import AlphaMonitor.Feed.PriceChange
import AlphaMonitor.Shard.TokenClock

/-!
# Timestamps from the future

The WebSocket task checks the timestamp of each message against the local time and against the
last timestamp that it took for the token; the shard worker closes the seconds that lie two
seconds behind the latest one it has seen.  A timestamp that is ahead of the local time moves
both on, and what comes after it is compared with it.

## Main definitions

- `takeMessage`: a message is checked and its events are handled
- `KeepsInSecond`: the events of a message are in order and counted in their own second

## Main results

- `kept_after_future_iff`: when a message is handled as it would be without the one from the
  future
- `future_stamp_drops_metrics`: when it is not
-/

namespace AlphaMonitor.Feed

open Shard Lib

/-! ## Checked timestamps -/

section

variable {tsRaw : Option ℤ} {localTsMs : ℤ} {lastGood : Option ℤ}

/-- The last good timestamp after a check. -/
def nextGood (tsRaw : Option ℤ) (localTsMs : ℤ) (lastGood : Option ℤ) : Option ℤ :=
  let check := validateExchangeTs tsRaw localTsMs lastGood
  if check.source = .venueWs then some check.exchangeTsMs else lastGood

/-- A timestamp is taken if it is neither negative, nor far ahead of the local time, nor far
behind the last good one. -/
def IsTaken (ts localTsMs : ℤ) (lastGood : Option ℤ) : Prop :=
  0 ≤ ts ∧ ts ≤ localTsMs + 300000 ∧ ∀ last ∈ lastGood, last - 2000 ≤ ts

theorem any_last {p : ℤ → Prop} [DecidablePred p] :
    (lastGood.any fun last => decide (p last)) = true ↔ ∃ last ∈ lastGood, p last := by
  cases lastGood with
  | none => simp
  | some last => simp

theorem validateExchangeTs_taken {raw : ℤ} (h : IsTaken (scaleTsMs raw) localTsMs lastGood) :
    validateExchangeTs (some raw) localTsMs lastGood =
      ⟨scaleTsMs raw, .venueWs, false, false,
        lastGood.any fun last => decide (scaleTsMs raw < last)⟩ := by
  obtain ⟨hpos, hahead, hbehind⟩ := h
  have hany : (lastGood.any fun last => decide (scaleTsMs raw < last - 2000)) = false := by
    rw [← Bool.not_eq_true, any_last]
    rintro ⟨last, hlast, hlt⟩
    have hle := hbehind last hlast
    omega
  unfold validateExchangeTs
  simp only
  rw [if_neg (not_lt.mpr hpos), if_neg (not_lt.mpr hahead), hany]
  rfl

theorem validateExchangeTs_refused (h : ∀ raw ∈ tsRaw, ¬ IsTaken (scaleTsMs raw) localTsMs lastGood) :
    (validateExchangeTs tsRaw localTsMs lastGood).source = .localFallback ∧
      (validateExchangeTs tsRaw localTsMs lastGood).exchangeTsMs = localTsMs := by
  cases tsRaw with
  | none => exact ⟨rfl, rfl⟩
  | some raw =>
    have hnot := h raw rfl
    unfold validateExchangeTs
    simp only
    split
    · exact ⟨rfl, rfl⟩
    · split
      · exact ⟨rfl, rfl⟩
      · split
        · exact ⟨rfl, rfl⟩
        · rename_i hpos hahead hbehind
          refine absurd ⟨not_lt.mp hpos, not_lt.mp hahead, fun last hlast => ?_⟩ hnot
          by_contra hlt
          exact hbehind (any_last.mpr ⟨last, hlast, by omega⟩)

/-- Nothing but a last good timestamp that is later puts a message out of order. -/
theorem outOfOrder_iff {raw : ℤ} :
    (validateExchangeTs (some raw) localTsMs lastGood).outOfOrder = true ↔
      ∃ last ∈ lastGood, scaleTsMs raw < last := by
  unfold validateExchangeTs
  simp only
  split
  · exact any_last
  · split
    · exact any_last
    · split
      · rename_i hbehind
        obtain ⟨last, hlast, hlt⟩ := any_last.mp hbehind
        exact ⟨fun _ => ⟨last, hlast, by omega⟩, fun _ => rfl⟩
      · exact any_last

/-- A message that is not ahead of the local time is not dated ahead of it. -/
theorem validateExchangeTs_le (h : ∀ raw ∈ tsRaw, scaleTsMs raw ≤ localTsMs) :
    (validateExchangeTs tsRaw localTsMs lastGood).exchangeTsMs ≤ localTsMs := by
  by_cases htaken : ∃ raw ∈ tsRaw, IsTaken (scaleTsMs raw) localTsMs lastGood
  · obtain ⟨raw, hraw, htaken⟩ := htaken
    cases hraw
    rw [validateExchangeTs_taken htaken]
    exact h raw rfl
  · rw [(validateExchangeTs_refused fun raw hraw htaken' => htaken ⟨raw, hraw, htaken'⟩).2]

end

/-! ## Two histories of timestamps -/

/-- The first history still ends in the timestamp `lead`, or it is not later than the second. -/
def LeadsBy (lead : ℤ) (lastGood other : Option ℤ) : Prop :=
  lastGood = some lead ∨ ∀ last ∈ lastGood, ∃ last' ∈ other, last ≤ last'

/-- A message that both histories see leaves the lead, or ends it. -/
theorem LeadsBy.next {lead : ℤ} {lastGood other : Option ℤ} (h : LeadsBy lead lastGood other)
    (tsRaw : Option ℤ) (localTsMs : ℤ) :
    LeadsBy lead (nextGood tsRaw localTsMs lastGood) (nextGood tsRaw localTsMs other) := by
  have hrefused : ∀ good : Option ℤ,
      (∀ raw ∈ tsRaw, ¬ IsTaken (scaleTsMs raw) localTsMs good) →
      nextGood tsRaw localTsMs good = good := by
    intro good hnot
    have hsource := (validateExchangeTs_refused hnot).1
    simp only [nextGood, hsource, reduceCtorEq, if_false]
  cases tsRaw with
  | none =>
    have hnone : ∀ good : Option ℤ, nextGood none localTsMs good = good :=
      fun good => hrefused good fun raw hraw => absurd hraw (Option.not_mem_none raw)
    rw [hnone, hnone]
    exact h
  | some raw =>
    have htaken : ∀ good : Option ℤ, IsTaken (scaleTsMs raw) localTsMs good →
        nextGood (some raw) localTsMs good = some (scaleTsMs raw) := by
      intro good htaken
      unfold nextGood
      rw [validateExchangeTs_taken htaken]
      rfl
    have hkeep : ∀ good : Option ℤ, ¬ IsTaken (scaleTsMs raw) localTsMs good →
        nextGood (some raw) localTsMs good = good := by
      intro good hnot
      refine hrefused good fun raw' hraw' => ?_
      cases hraw'
      exact hnot
    by_cases hfirst : IsTaken (scaleTsMs raw) localTsMs lastGood
    · rw [htaken lastGood hfirst]
      right
      intro last hlast
      cases hlast
      by_cases hsecond : IsTaken (scaleTsMs raw) localTsMs other
      · rw [htaken other hsecond]
        exact ⟨_, rfl, le_refl _⟩
      · -- the second history refuses it for a later timestamp of its own
        rw [hkeep other hsecond]
        by_contra hnone
        refine hsecond ⟨hfirst.1, hfirst.2.1, fun last' hlast' => ?_⟩
        by_contra hlt
        exact hnone ⟨last', hlast', by omega⟩
    · rw [hkeep lastGood hfirst]
      rcases h with hlead | hbehind
      · exact Or.inl hlead
      · right
        intro last hlast
        obtain ⟨last', hlast', hle⟩ := hbehind last hlast
        by_cases hsecond : IsTaken (scaleTsMs raw) localTsMs other
        · refine absurd ⟨hsecond.1, hsecond.2.1, fun old hold => ?_⟩ hfirst
          have heq : old = last := Option.some.inj ((Option.mem_def.mp hold).symm.trans hlast)
          have hclose := hsecond.2.2 last' hlast'
          omega
        · rw [hkeep other hsecond]
          exact ⟨last', hlast', hle⟩

/-! ## Messages and events -/

/-- What one event of a message says, apart from its times. -/
structure EventBody where
  kind : EventKind
  channel : Option String
  tradeSideMissing : Bool
  payload : EventPayload
  deriving DecidableEq, Repr

/-- A message of the WebSocket about one token, with the events that are made of it. -/
structure WsMessage where
  tokenKey : String
  tsRaw : Option ℤ
  localTsMs : ℤ
  bodies : List EventBody
  deriving DecidableEq, Repr

/-- An event of the message, with the checked times. -/
def WsMessage.event (message : WsMessage) (check : TimestampCheck) (body : EventBody) : Event where
  venue := .polymarket
  tokenKey := message.tokenKey
  kind := body.kind
  channel := body.channel
  exchangeTsMs := check.exchangeTsMs
  localTsMs := message.localTsMs
  exchangeTsSource := check.source
  flags := ⟨check.tsMissing, check.tsAnomaly, check.outOfOrder, body.tradeSideMissing⟩
  payload := body.payload

/-- The connection of the WebSocket task and the shard worker behind it. -/
structure WsSystem where
  /-- `last_good_ts`. -/
  lastGood : LastGoodTs
  worker : ShardWorker

inductive WsEvent where
  | message (env : ShardEnv) (message : WsMessage)
  /-- A tick, or an event that another task has dated. -/
  | other (env : ShardEnv) (message : ShardMessage)
  /-- A new connection starts without timestamps. -/
  | reconnect

namespace WsSystem

def start (config : ShardConfig) : WsSystem := ⟨fun _ => none, ShardWorker.start config⟩

variable (s : WsSystem)

/-- The check of a message. -/
def check (message : WsMessage) : TimestampCheck :=
  validateExchangeTs message.tsRaw message.localTsMs (s.lastGood message.tokenKey)

/-- A message is checked, and its events are handled. -/
def takeMessage (env : ShardEnv) (message : WsMessage) : WsSystem where
  lastGood := Function.update s.lastGood message.tokenKey
    (nextGood message.tsRaw message.localTsMs (s.lastGood message.tokenKey))
  worker := s.worker.handleEvents env (message.bodies.map (message.event (s.check message)))

def take : WsEvent → WsSystem
  | .message env message => s.takeMessage env message
  | .other env message => { s with worker := s.worker.handle env message }
  | .reconnect => { s with lastGood := fun _ => none }

/-- All events of a list, one after the other. -/
def takeAll (es : List WsEvent) : WsSystem := es.foldl take s

/-- The events of a message are in order, and each is counted in the given second. -/
def KeepsInSecond (env : ShardEnv) (message : WsMessage) (second : ℤ) : Prop :=
  ∀ entry ∈ (s.takeMessage env message).worker.handled.drop s.worker.handled.length,
    entry.1.flags.outOfOrder = false ∧ entry.2 = some second

instance (env : ShardEnv) (message : WsMessage) (second : ℤ) :
    Decidable (s.KeepsInSecond env message second) :=
  inferInstanceAs (Decidable (∀ entry ∈ _, _))

theorem takeAll_cons (e : WsEvent) (es : List WsEvent) :
    s.takeAll (e :: es) = (s.take e).takeAll es := rfl

/-- The last good timestamp of a token after an event. -/
theorem lastGood_take (e : WsEvent) (tokenKey : String) :
    (s.take e).lastGood tokenKey =
      match e with
      | .message _ message =>
        if message.tokenKey = tokenKey then
          nextGood message.tsRaw message.localTsMs (s.lastGood tokenKey)
        else s.lastGood tokenKey
      | .other _ _ => s.lastGood tokenKey
      | .reconnect => none := by
  cases e with
  | message env message =>
    by_cases hkey : message.tokenKey = tokenKey
    · subst hkey
      simp only [if_true]
      exact Function.update_self _ _ _
    · simp only [hkey, if_false]
      exact Function.update_of_ne (Ne.symm hkey) _ _
  | other env message => rfl
  | reconnect => rfl

theorem dirtyTokens_takeAll (es : List WsEvent) (hnodup : s.worker.dirtyTokens.Nodup) :
    (s.takeAll es).worker.dirtyTokens.Nodup := by
  induction es generalizing s with
  | nil => exact hnodup
  | cons e es ih =>
    apply ih (s.take e)
    cases e with
    | message env message => exact s.worker.dirtyTokens_handleEvents env _ hnodup
    | other env message => exact (s.worker.handle_frame env message hnodup).2
    | reconnect => exact hnodup

end WsSystem

/-! ## Well-clocked messages -/

namespace WsEvent

/-- The local second in which the event is handled, as far as it reads one. -/
def localSecond : WsEvent → Option ℤ
  | .message _ received => some (received.localTsMs.tdiv 1000)
  | .other _ (.event event) => some (event.localTsMs.tdiv 1000)
  | .other _ (.tick barSecond) => some barSecond
  | .reconnect => none

/-- Nothing about the token is dated ahead of its local time. -/
def NotAhead (tokenKey : String) : WsEvent → Prop
  | .message _ received =>
    received.tokenKey = tokenKey → ∀ raw ∈ received.tsRaw, scaleTsMs raw ≤ received.localTsMs
  | .other _ (.event event) => event.tokenKey = tokenKey → event.exchangeTsMs ≤ event.localTsMs
  | .other _ (.tick _) | .reconnect => True

instance (tokenKey : String) : ∀ e : WsEvent, Decidable (e.NotAhead tokenKey)
  | .message _ received =>
    inferInstanceAs (Decidable (_ → ∀ raw ∈ received.tsRaw, scaleTsMs raw ≤ received.localTsMs))
  | .other _ (.event event) => inferInstanceAs (Decidable (_ → event.exchangeTsMs ≤ event.localTsMs))
  | .other _ (.tick _) | .reconnect => inferInstanceAs (Decidable True)

end WsEvent

/-- The timestamp of a message is not ahead of its local time, and no local time that was read
since the events `es` began is two seconds past it. -/
structure WsMessage.AgreesWithLocal (message : WsMessage) (es : List WsEvent) (tsMs : ℤ) :
    Prop where
  dated : ∃ raw, message.tsRaw = some raw ∧ scaleTsMs raw = tsMs
  pos : 0 ≤ tsMs
  notAhead : tsMs ≤ message.localTsMs
  inTime : message.localTsMs.tdiv 1000 < tsMs.tdiv 1000 + lateEventBufferSecs
  clock : ∀ e ∈ es, ∀ second ∈ e.localSecond, second < tsMs.tdiv 1000 + lateEventBufferSecs

/-! ## The run with the message and the run without it -/

section

variable {s : WsSystem} {tokenKey : String} {lead : ℤ} {start clock : LateClock} {bound : ℤ}

/-- A token's last good timestamps in two systems that take the same events. -/
theorem leadsBy_takeAll {s' : WsSystem} {es : List WsEvent}
    (h : LeadsBy lead (s.lastGood tokenKey) (s'.lastGood tokenKey)) :
    LeadsBy lead ((s.takeAll es).lastGood tokenKey) ((s'.takeAll es).lastGood tokenKey) := by
  induction es generalizing s s' with
  | nil => exact h
  | cons e es ih =>
    rw [WsSystem.takeAll_cons, WsSystem.takeAll_cons]
    apply ih
    rw [WsSystem.lastGood_take, WsSystem.lastGood_take]
    cases e with
    | message env message =>
      simp only
      split
      · exact h.next message.tsRaw message.localTsMs
      · exact h
    | other env message => exact h
    | reconnect => exact Or.inr fun last hlast => absurd hlast (Option.not_mem_none last)

/-- Events that are not ahead of the local time move the clock no further than that. -/
theorem runs_take (h : (s.worker.track tokenKey).Runs clock)
    (hsince : start.Since lateEventBufferSecs bound clock)
    (hstart : start.Settled lateEventBufferSecs) (hnodup : s.worker.dirtyTokens.Nodup) {e : WsEvent}
    (hahead : e.NotAhead tokenKey) (hbound : ∀ second ∈ e.localSecond, second ≤ bound) :
    ∃ clock', ((s.take e).worker.track tokenKey).Runs clock' ∧
      start.Since lateEventBufferSecs bound clock' := by
  have hdated : ∀ {exchange loc : ℤ}, exchange ≤ loc → loc.tdiv 1000 ≤ bound →
      exchange.tdiv 1000 ≤ bound :=
    fun hle hloc => (Int.tdiv_le_tdiv (by decide) hle).trans hloc
  cases e with
  | message env message =>
    apply ShardWorker.runs_handleEvents env h hsince hstart
    intro event hevent hkey
    obtain ⟨body, -, rfl⟩ := List.mem_map.mp hevent
    exact hdated (validateExchangeTs_le (hahead hkey)) (hbound _ rfl)
  | other env message =>
    show ∃ clock', ((s.worker.handle env message).track tokenKey).Runs clock' ∧ _
    rw [s.worker.track_handle env message tokenKey hnodup]
    cases message with
    | event event =>
      simp only [TokenTrack.handle]
      split
      · rename_i hkey
        exact ⟨_, h.takeEvent s.worker.config env tokenKey event,
          hsince.see hstart (hdated (hahead hkey) (hbound _ rfl))⟩
      · exact ⟨clock, h, hsince⟩
    | tick barSecond =>
      simp only [TokenTrack.handle]
      split
      · exact ⟨_, h.takeTick s.worker.config env tokenKey barSecond,
          hsince.see hstart (hbound _ rfl)⟩
      · exact ⟨clock, h, hsince⟩
  | reconnect => exact ⟨clock, h, hsince⟩

theorem runs_takeAll {es : List WsEvent} (h : (s.worker.track tokenKey).Runs clock)
    (hsince : start.Since lateEventBufferSecs bound clock)
    (hstart : start.Settled lateEventBufferSecs) (hnodup : s.worker.dirtyTokens.Nodup)
    (hahead : ∀ e ∈ es, e.NotAhead tokenKey)
    (hbound : ∀ e ∈ es, ∀ second ∈ e.localSecond, second ≤ bound) :
    ∃ clock', ((s.takeAll es).worker.track tokenKey).Runs clock' ∧
      start.Since lateEventBufferSecs bound clock' := by
  induction es generalizing s clock with
  | nil => exact ⟨clock, h, hsince⟩
  | cons e es ih =>
    obtain ⟨hfirst, hrest⟩ := List.forall_mem_cons.mp hahead
    obtain ⟨hfirst', hrest'⟩ := List.forall_mem_cons.mp hbound
    obtain ⟨clock', hruns, hsince'⟩ := runs_take h hsince hstart hnodup hfirst hfirst'
    exact ih hruns hsince' (s.dirtyTokens_takeAll [e] hnodup) hrest hrest'

end

/-! ## What becomes of a later message -/

/-- A connection that may receive anything. -/
def wsMachine (config : ShardConfig) : Machine WsSystem WsEvent where
  init s := s = WsSystem.start config
  step s e := some (s.take e)

theorem dirtyTokens_of_reachable {cfg : ShardConfig} {s : WsSystem}
    (h : (wsMachine cfg).Reachable s) : s.worker.dirtyTokens.Nodup := by
  apply (wsMachine cfg).inv_of_reachable ?_ ?_ h
  · rintro s rfl
    exact List.nodup_nil
  · intro s e s' hnodup hstep
    cases hstep
    exact s.dirtyTokens_takeAll [e] hnodup

/-- The check takes the timestamp of the message, which is ahead of the local time. -/
structure WsSystem.TakesAhead (s : WsSystem) (message : WsMessage) : Prop where
  taken : (s.check message).source = .venueWs
  ahead : message.localTsMs < (s.check message).exchangeTsMs

section

variable {s : WsSystem} {message : WsMessage} {tsMs : ℤ} {es : List WsEvent}

/-- What the check makes of a message that agrees with the local time. -/
theorem check_agreeing (h : message.AgreesWithLocal es tsMs) :
    ((s.check message).outOfOrder = true ↔
        ∃ last ∈ s.lastGood message.tokenKey, tsMs < last) ∧
      ((s.check message).outOfOrder = false → (s.check message).exchangeTsMs = tsMs) := by
  obtain ⟨raw, hraw, rfl⟩ := h.dated
  have hiff : (s.check message).outOfOrder = true ↔
      ∃ last ∈ s.lastGood message.tokenKey, scaleTsMs raw < last := by
    unfold WsSystem.check
    rw [hraw]
    exact outOfOrder_iff
  refine ⟨hiff, fun hinOrder => ?_⟩
  have htaken : IsTaken (scaleTsMs raw) message.localTsMs (s.lastGood message.tokenKey) := by
    have hahead := h.notAhead
    refine ⟨h.pos, by omega, fun last hlast => ?_⟩
    by_contra hlt
    have hlate := hiff.mpr ⟨last, hlast, by omega⟩
    rw [hinOrder] at hlate
    cases hlate
  unfold WsSystem.check
  rw [hraw, validateExchangeTs_taken htaken]

/-- A message is kept by a clock that runs if it is in order and its second is not closed. -/
theorem keepsInSecond_iff {env : ShardEnv} {clock : LateClock} (hevents : message.bodies ≠ [])
    (hruns : (s.worker.track message.tokenKey).Runs clock)
    (hsettled : clock.Settled lateEventBufferSecs) (h : message.AgreesWithLocal es tsMs) :
    s.KeepsInSecond env message (tsMs.tdiv 1000) ↔
      (∀ last ∈ s.lastGood message.tokenKey, last ≤ tsMs) ∧ clock.closed < tsMs.tdiv 1000 := by
  obtain ⟨hiff, htime⟩ := @check_agreeing s message tsMs es h
  have hkept := @ShardWorker.handleEvents_kept_iff env s.worker message.tokenKey clock
    (message.bodies.map (message.event (s.check message)))
    ((s.check message).exchangeTsMs.tdiv 1000) (tsMs.tdiv 1000) hruns hsettled (by
      intro event hevent
      obtain ⟨body, -, rfl⟩ := List.mem_map.mp hevent
      exact ⟨rfl, rfl⟩)
  have hinOrder : (s.check message).outOfOrder = false ↔
      ∀ last ∈ s.lastGood message.tokenKey, last ≤ tsMs := by
    rw [← Bool.not_eq_true, hiff]
    simp only [not_exists, not_and, not_lt]
  unfold WsSystem.KeepsInSecond
  show (∀ entry ∈ (s.worker.handleEvents env _).handled.drop _, _) ↔ _
  rw [hkept, ← hinOrder]
  constructor
  · intro hall
    obtain ⟨body, hbody⟩ := List.exists_mem_of_ne_nil _ hevents
    obtain ⟨horder, hopen, hown⟩ := hall _ (List.mem_map_of_mem hbody)
    exact ⟨horder, hown ▸ hopen⟩
  · rintro ⟨horder, hopen⟩ event hevent
    obtain ⟨body, -, rfl⟩ := List.mem_map.mp hevent
    rw [htime horder]
    exact ⟨horder, hopen, rfl⟩

/-- A message that is kept was not before the last good timestamp. -/
theorem lastGood_le_of_kept {env : ShardEnv} (hevents : message.bodies ≠ [])
    (h : message.AgreesWithLocal es tsMs) {second : ℤ} (hkept : s.KeepsInSecond env message second) :
    ∀ last ∈ s.lastGood message.tokenKey, last ≤ tsMs := by
  obtain ⟨hiff, -⟩ := @check_agreeing s message tsMs es h
  obtain ⟨body, rest, hbodies⟩ := List.exists_cons_of_ne_nil hevents
  have hinOrder : (s.check message).outOfOrder = false := by
    apply @ShardWorker.inOrder_of_kept env s.worker (message.event (s.check message) body)
      (rest.map (message.event (s.check message)))
    intro entry hentry
    refine (hkept entry ?_).1
    show entry ∈ (s.worker.handleEvents env _).handled.drop _
    rw [hbodies]
    exact hentry
  intro last hlast
  by_contra hlt
  have hlate := hiff.mpr ⟨last, hlast, not_le.mp hlt⟩
  rw [hinOrder] at hlate
  cases hlate

end

/-- A message that agrees with the local time, and would be in order and counted in its own
second without the one from the future, is so with it just in case it is not dated before that
one while that is still the last good timestamp, and its second is later than the last one that
was flushed on it. -/
theorem kept_after_future_iff {cfg : ShardConfig} {s : WsSystem}
    (hs : (wsMachine cfg).Reachable s) {future message : WsMessage}
    (hkey : future.tokenKey = message.tokenKey) (hfuture : s.TakesAhead future)
    (hclock : 1000 ≤ future.localTsMs) (hevents : future.bodies ≠ [] ∧ message.bodies ≠ [])
    {es : List WsEvent} (hes : ∀ e ∈ es, e.NotAhead message.tokenKey) {tsMs : ℤ}
    (hagrees : message.AgreesWithLocal es tsMs) (env env' : ShardEnv)
    (hkept : (s.takeAll es).KeepsInSecond env' message (tsMs.tdiv 1000)) :
    ((s.takeMessage env future).takeAll es).KeepsInSecond env' message (tsMs.tdiv 1000) ↔
      (((s.takeMessage env future).takeAll es).lastGood message.tokenKey =
          some (s.check future).exchangeTsMs → (s.check future).exchangeTsMs ≤ tsMs) ∧
        ∀ st ∈ (s.takeMessage env future).worker.state message.tokenKey,
          st.lastFlushedSecond < tsMs.tdiv 1000 := by
  have hnodup := dirtyTokens_of_reachable hs
  set lead := (s.check future).exchangeTsMs with hlead
  -- after the message from the future, its timestamp is the last good one and the clock runs
  have hgood : (s.takeMessage env future).lastGood message.tokenKey = some lead := by
    have htaken := hfuture.taken
    rw [← hkey]
    show Function.update _ _ _ _ = _
    rw [Function.update_self]
    unfold WsSystem.check at htaken
    simp only [nextGood, htaken, if_true]
    rfl
  have hsecond : 0 < lead.tdiv 1000 := by
    have hone : (1000 : ℤ).tdiv 1000 ≤ lead.tdiv 1000 :=
      Int.tdiv_le_tdiv (by decide) (hclock.trans hfuture.ahead.le)
    exact lt_of_lt_of_le (by decide) hone
  obtain ⟨start, hruns, hstart⟩ := @ShardWorker.settled_handleEvents env s.worker message.tokenKey
    (future.bodies.map (future.event (s.check future)))
    (fun hnil => hevents.1 (List.map_eq_nil_iff.mp hnil)) (by
      intro event hevent
      obtain ⟨body, -, rfl⟩ := List.mem_map.mp hevent
      exact ⟨hkey, hsecond⟩)
  -- from there on, the clock sees no second later than the next one of the message
  have hbuffer : lateEventBufferSecs = 2 := rfl
  obtain ⟨clock, hruns', hsince⟩ := @runs_takeAll (s.takeMessage env future) message.tokenKey start
    start (tsMs.tdiv 1000 + 1) es hruns (LateClock.Since.refl hstart _) hstart
    (s.worker.dirtyTokens_handleEvents env _ hnodup) hes (by
      intro e he second hlocal
      have hlt := hagrees.clock e he second hlocal
      omega)
  have hleads : LeadsBy lead (((s.takeMessage env future).takeAll es).lastGood message.tokenKey)
      ((s.takeAll es).lastGood message.tokenKey) := leadsBy_takeAll (Or.inl hgood)
  have hbefore := lastGood_le_of_kept hevents.2 hagrees hkept
  rw [keepsInSecond_iff hevents.2 hruns' hsince.settled hagrees]
  have hflushed : (∀ st ∈ (s.takeMessage env future).worker.state message.tokenKey,
      st.lastFlushedSecond < tsMs.tdiv 1000) ↔ start.closed < tsMs.tdiv 1000 := by
    obtain ⟨st, hstate, -, rfl⟩ := hruns
    constructor
    · exact fun hall => hall st hstate
    · intro hlt st' hst'
      have heq : st = st' := Option.some.inj (hstate.symm.trans hst')
      exact heq ▸ hlt
  rw [hflushed]
  constructor
  · rintro ⟨horder, hopen⟩
    exact ⟨fun hlast => horder lead hlast, lt_of_le_of_lt hsince.kept hopen⟩
  · rintro ⟨horder, hopen⟩
    refine ⟨?_, hsince.closed_lt hopen (by omega)⟩
    rcases hleads with hlast | hbehind
    · intro last hmem
      have heq : lead = last := Option.some.inj (hlast.symm.trans hmem)
      exact heq ▸ horder hlast
    · intro last hmem
      obtain ⟨last', hmem', hle⟩ := hbehind last hmem
      exact hle.trans (hbefore last' hmem')

/-! ## Two samples -/

/-- The local time at which the samples begin. -/
def stampMs : ℤ := 1700000000000

/-- A trade that is received and dated some milliseconds after that. -/
def tradeAt (localMs tsMs : ℤ) : WsMessage where
  tokenKey := "token"
  tsRaw := some (stampMs + tsMs)
  localTsMs := stampMs + localMs
  bodies := [⟨.trade, some "last_trade_price", false,
    { EventPayload.empty with side := some .bid, price := some (1 / 2), size := some 10 }⟩]

/-- A token after its first trade. -/
def tradedOnce : WsSystem :=
  (WsSystem.start exampleConfig).take (.message calmEnv (tradeAt 0 0))

theorem reachable_tradedOnce : (wsMachine exampleConfig).Reachable tradedOnce :=
  ⟨_, [.message calmEnv (tradeAt 0 0)], rfl, rfl⟩

/-- A trade of the next second agrees with its local time. -/
theorem agrees_tradeAt : (tradeAt 1000 1000).AgreesWithLocal [] (stampMs + 1000) where
  dated := ⟨_, rfl, by decide⟩
  pos := by decide
  notAhead := by decide
  inTime := by decide
  clock e he := absurd he List.not_mem_nil

/-- Of a timestamp that is less than a second ahead nothing is left in the next second. -/
theorem kept_after_future_iff_close :
    ((tradedOnce.takeMessage calmEnv (tradeAt 100 900)).takeAll []).KeepsInSecond calmEnv
      (tradeAt 1000 1000) ((stampMs + 1000).tdiv 1000) := by
  have hkept : (tradedOnce.takeAll []).KeepsInSecond calmEnv (tradeAt 1000 1000)
      ((stampMs + 1000).tdiv 1000) := by
    decide +kernel
  apply (@kept_after_future_iff exampleConfig tradedOnce reachable_tradedOnce (tradeAt 100 900)
    (tradeAt 1000 1000) rfl ⟨by decide +kernel, by decide +kernel⟩ (by decide)
    ⟨by decide, by decide⟩ [] (List.forall_mem_nil _) (stampMs + 1000) agrees_tradeAt calmEnv
    calmEnv hkept).mpr
  constructor
  · intro _
    decide +kernel
  · decide +kernel

/-- One timestamp that is five seconds ahead, and the trade of the next second is out of order
and counted nowhere. -/
theorem future_stamp_drops_metrics :
    ¬ ∀ s : WsSystem, (wsMachine exampleConfig).Reachable s →
      ∀ (future message : WsMessage) (es : List WsEvent) (tsMs : ℤ),
        future.tokenKey = message.tokenKey → s.TakesAhead future →
        (∀ e ∈ es, e.NotAhead message.tokenKey) → message.AgreesWithLocal es tsMs →
        (s.takeAll es).KeepsInSecond calmEnv message (tsMs.tdiv 1000) →
        ((s.takeMessage calmEnv future).takeAll es).KeepsInSecond calmEnv message
          (tsMs.tdiv 1000) := by
  intro h
  have hkept := h tradedOnce reachable_tradedOnce (tradeAt 100 5000) (tradeAt 1000 1000) []
    (stampMs + 1000) rfl ⟨by decide +kernel, by decide +kernel⟩ (List.forall_mem_nil _)
    agrees_tradeAt (by decide +kernel)
  revert hkept
  decide +kernel

end AlphaMonitor.Feed
