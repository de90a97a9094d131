import AlphaMonitor.Shard.Tracks

/-!
# Every second is barred once, every event is counted once

The bars of a token are the closed windows of its seconds, so what is known of
windows holds of bars.  A tick, however, only visits the tokens that had an event
since the last tick.

## Main results

- `eachSecondOnce_of_reachable`: the bars of a token are contiguous, and bars and
  accumulators together count every event that is not late once
- `tick_complete_iff`: when a tick leaves no second behind
-/

namespace AlphaMonitor.Shard

open Lib (Windows consecutive totalAt)

/-! ## Counting -/

/-- How many of the handled events are counted in a second. -/
def countedIn (handled : List (Event × Option ℤ)) (t : ℤ) : ℤ :=
  (handled.countP fun entry => decide (entry.2 = some t) : ℕ)

theorem countedIn_append_none (handled : List (Event × Option ℤ)) (event : Event) :
    countedIn (handled ++ [(event, none)]) = countedIn handled := by
  funext t
  simp [countedIn]

theorem countedIn_append_some (handled : List (Event × Option ℤ)) (event : Event) (s : ℤ) :
    countedIn (handled ++ [(event, some s)]) =
      Function.update (countedIn handled) s (countedIn handled s + 1) := by
  funext t
  by_cases hts : t = s
  · subst hts
    simp [countedIn]
  · rw [Function.update_of_ne hts]
    simp [countedIn, Ne.symm hts]

/-- Counted in its own second, or marked as out of order and counted nowhere. -/
def Classified (entry : Event × Option ℤ) : Prop :=
  entry.2 = some entry.1.barSecond ∨ entry.2 = none ∧ entry.1.flags.outOfOrder = true

namespace TokenTrack

variable (cfg : ShardConfig) (env : ShardEnv) (tokenKey : String)

/-! ## What is sent -/

/-- Sending closes the windows that are due, and bars them. -/
theorem send_windows (track : TokenTrack) (st : TokenState) :
    ∃ sent, (track.send cfg env tokenKey st).state = some sent ∧
      ((st.watermarkSecond ≤ 0 ∨ st.watermarkSecond - lateEventBufferSecs ≤ st.lastFlushedSecond) ∧
          sent.windows = st.windows ∧ (track.send cfg env tokenKey st).bars = track.bars ∨
        (0 < st.watermarkSecond ∧ st.lastFlushedSecond < st.watermarkSecond - lateEventBufferSecs) ∧
          sent.windows = st.windows.close (st.watermarkSecond - lateEventBufferSecs) ∧
          (track.send cfg env tokenKey st).bars.map TokenState.barCount =
            track.bars.map TokenState.barCount ++
              st.windows.closing SecondAccumulator.eventCount
                (st.watermarkSecond - lateEventBufferSecs)) := by
  refine ⟨_, rfl, ?_⟩
  have hsent := (ShardWorker.emitAll_spec env (st.flushReady cfg tokenKey).1
    (st.flushReady cfg tokenKey).2).1.windows
  unfold send
  simp only
  rcases st.flushReady_windows cfg tokenKey with ⟨hnot, hready⟩ | ⟨hclock, hdue, hwin, hbars⟩
  · left
    refine ⟨hnot, ?_, ?_⟩
    · rw [hsent, hready]
    · rw [hready]
      exact List.append_nil _
  · right
    refine ⟨⟨hclock, hdue⟩, hsent.trans hwin, ?_⟩
    rw [List.map_append, ShardWorker.map_barCount_emitAll, hbars]

/-! ## A token whose first second is on the clock -/

/-- The seconds from the first one on are accounted for. -/
structure Counted (first : ℤ) (track : TokenTrack) (st : TokenState) : Prop where
  clock : 0 < st.watermarkSecond
  accounted : st.windows.Accounted SecondAccumulator.eventCount first
    (track.bars.map TokenState.barCount) (countedIn track.handled)

section

variable {first : ℤ} {track : TokenTrack} {st : TokenState}

theorem Counted.send (h : Counted first track st) :
    ∃ sent, (track.send cfg env tokenKey st).state = some sent ∧
      Counted first (track.send cfg env tokenKey st) sent := by
  obtain ⟨sent, hstate, hsent⟩ := send_windows cfg env tokenKey track st
  refine ⟨sent, hstate, ?_⟩
  have hhandled : (track.send cfg env tokenKey st).handled = track.handled := rfl
  rcases hsent with ⟨_, hwin, hbars⟩ | ⟨⟨hclock, hdue⟩, hwin, hbars⟩
  · refine ⟨?_, ?_⟩
    · have hsame : sent.windows.watermark = st.windows.watermark := by rw [hwin]
      exact lt_of_lt_of_eq h.clock hsame.symm
    · rw [hwin, hbars, hhandled]
      exact h.accounted
  · refine ⟨?_, ?_⟩
    · have hsame : sent.windows.watermark = st.windows.watermark := by
        rw [hwin]
        rfl
      exact lt_of_lt_of_eq hclock hsame.symm
    · rw [hwin, hbars, hhandled]
      refine h.accounted.close (le_of_lt hdue) ?_
      show st.watermarkSecond - lateEventBufferSecs ≤ st.watermarkSecond
      have hbuffer : lateEventBufferSecs = 2 := rfl
      omega

/-- An event, before the flush. -/
theorem Counted.event (h : Counted first track st) (event : Event) :
    Counted first
      { track with
        dirty := true
        handled := track.handled ++ [((st.handleEvent event).event, (st.handleEvent event).second)] }
      (st.handleEvent event).state := by
  have hseen := h.accounted.see event.barSecond
  rcases st.handleEvent_windows event h.clock with
    ⟨_, hsecond, hwin⟩ | ⟨hopen, hsecond, acc, hacc, hwin⟩
  · refine ⟨?_, ?_⟩
    · have hle : st.watermarkSecond ≤ (st.handleEvent event).state.windows.watermark := by
        rw [hwin]
        exact le_max_left _ _
      exact lt_of_lt_of_le h.clock hle
    · rw [hwin, hsecond]
      simp only [countedIn_append_none]
      exact hseen
  · refine ⟨?_, ?_⟩
    · have hle : st.watermarkSecond ≤ (st.handleEvent event).state.windows.watermark := by
        rw [hwin]
        exact le_max_left _ _
      exact lt_of_lt_of_le h.clock hle
    · rw [hwin, hsecond]
      simp only [countedIn_append_some]
      exact hseen.put hopen (le_max_right _ _) hacc

theorem Counted.advance (h : Counted first track st) (barSecond : ℤ) :
    Counted first { track with dirty := false } (st.advance barSecond) := by
  have hwin := st.advance_windows barSecond h.clock
  refine ⟨?_, ?_⟩
  · have hle : st.watermarkSecond ≤ (st.advance barSecond).windows.watermark := by
      rw [hwin]
      exact le_max_left _ _
    exact lt_of_lt_of_le h.clock hle
  · rw [hwin]
    exact h.accounted.see barSecond

end

/-! ## A token that came before the clock's first second -/

/-- Nothing up to second 0 is ever barred, and what is counted there stays. -/
structure Early (track : TokenTrack) (st : TokenState) : Prop where
  behind : 0 < st.watermarkSecond → 0 ≤ st.lastFlushedSecond
  bars : ∀ entry ∈ track.bars.map TokenState.barCount, 0 < entry.1
  opened : ∀ s ≤ 0, (st.accumulators s).isSome = true ↔ ∃ entry ∈ track.handled, entry.2 = some s

section

variable {track : TokenTrack} {st : TokenState}

theorem Early.send (h : Early track st) :
    ∃ sent, (track.send cfg env tokenKey st).state = some sent ∧
      Early (track.send cfg env tokenKey st) sent := by
  obtain ⟨sent, hstate, hsent⟩ := send_windows cfg env tokenKey track st
  refine ⟨sent, hstate, ?_⟩
  rcases hsent with ⟨_, hwin, hbars⟩ | ⟨⟨hclock, hdue⟩, hwin, hbars⟩
  · simp only [TokenState.windows, Windows.mk.injEq] at hwin
    obtain ⟨hmark, hflushed, hacc⟩ := hwin
    refine ⟨?_, ?_, ?_⟩
    · rw [hmark, hflushed]
      exact h.behind
    · rw [hbars]
      exact h.bars
    · rw [hacc]
      exact h.opened
  · have hbehind := h.behind hclock
    have hflushed : sent.windows.closed = st.watermarkSecond - lateEventBufferSecs := by
      rw [hwin]
      rfl
    refine ⟨?_, ?_, ?_⟩
    · intro _
      exact le_trans hbehind (le_trans (le_of_lt hdue) (le_of_eq hflushed.symm))
    · rw [hbars]
      intro entry hentry
      rcases List.mem_append.mp hentry with hold | hnew
      · exact h.bars entry hold
      · obtain ⟨t, ht, rfl⟩ := List.mem_map.mp hnew
        have hrange := (Lib.mem_consecutive.mp ht).1
        have hstart : st.windows.closed = st.lastFlushedSecond := rfl
        simp only
        omega
    · intro s hs
      have hkept : sent.windows.acc s = st.windows.acc s := by
        rw [hwin]
        exact Windows.close_acc_of_le _ (le_trans hs hbehind) _
      have hopened := h.opened s hs
      have hsame : sent.accumulators s = st.accumulators s := hkept
      rw [hsame]
      exact hopened

/-- An event, before the flush. -/
theorem Early.event (h : Early track st) (event : Event) :
    Early
      { track with
        dirty := true
        handled := track.handled ++ [((st.handleEvent event).event, (st.handleEvent event).second)] }
      (st.handleEvent event).state := by
  by_cases hclock : 0 < st.watermarkSecond
  · have hbehind := h.behind hclock
    rcases st.handleEvent_windows event hclock with
      ⟨_, hsecond, hwin⟩ | ⟨hopen, hsecond, acc, _, hwin⟩
    · simp only [TokenState.windows, Windows.see, Windows.mk.injEq] at hwin
      obtain ⟨_, hflushed, hacc⟩ := hwin
      refine ⟨fun _ => by omega, h.bars, ?_⟩
      intro s hs
      rw [hacc, h.opened s hs]
      simp [hsecond]
    · simp only [TokenState.windows, Windows.see, Windows.put, Windows.mk.injEq] at hwin
      obtain ⟨_, hflushed, hacc⟩ := hwin
      refine ⟨fun _ => by omega, h.bars, ?_⟩
      intro s hs
      have hne : s ≠ event.barSecond := by omega
      rw [hacc, Function.update_of_ne hne, h.opened s hs]
      simp [hsecond, Ne.symm hne]
  · -- the clock starts with this event, at whatever second
    obtain ⟨hsecond, acc, _, hwin⟩ := st.handleEvent_windows_idle event (not_lt.mp hclock)
    simp only [TokenState.windows, Windows.put, Windows.mk.injEq] at hwin
    obtain ⟨hmark, hflushed, hacc⟩ := hwin
    refine ⟨fun _ => by omega, h.bars, ?_⟩
    intro s hs
    by_cases hse : s = event.barSecond
    · subst hse
      rw [hacc, Function.update_self]
      simp [hsecond]
    · rw [hacc, Function.update_of_ne hse, h.opened s hs]
      simp [hsecond, Ne.symm hse]

theorem Early.advance (h : Early track st) (barSecond : ℤ) :
    Early { track with dirty := false } (st.advance barSecond) := by
  by_cases hclock : 0 < st.watermarkSecond
  · have hwin := st.advance_windows barSecond hclock
    simp only [TokenState.windows, Windows.see, Windows.mk.injEq] at hwin
    obtain ⟨_, hflushed, hacc⟩ := hwin
    have hbehind := h.behind hclock
    refine ⟨fun _ => by omega, h.bars, ?_⟩
    rw [hacc]
    exact h.opened
  · have hsame : st.advance barSecond = st := by
      unfold TokenState.advance
      rw [if_neg (fun hboth => hclock hboth.1)]
    rw [hsame]
    exact ⟨h.behind, h.bars, h.opened⟩

end

/-! ## Whole runs -/

/-- What is known of the seconds of a token that began with the second `first`. -/
structure Begun (first : ℤ) (track : TokenTrack) (st : TokenState) : Prop where
  counted : 0 < first → Counted first track st
  early : first ≤ 0 → Early track st

/-- What is known of a token's seconds at any time. -/
def Seconds (track : TokenTrack) : Prop :=
  match track.state with
  | none => track.bars = [] ∧ track.handled = []
  | some st =>
    (∀ entry ∈ track.handled, Classified entry) ∧
      ∃ event : Event, track.handled.head? = some (event, some event.barSecond) ∧
        Begun event.barSecond track st

/-- Nothing is handled yet. -/
theorem begun_new {track : TokenTrack} (hbars : track.bars = []) (hhandled : track.handled = [])
    (venue : Venue) (side : TokenSide) (first now : ℤ) :
    Begun first track (TokenState.new venue side first now) where
  counted hfirst := by
    have hmax : max first 0 = first := max_eq_left (le_of_lt hfirst)
    refine ⟨?_, ?_⟩
    · show 0 < max first 0
      omega
    · have hwin : (TokenState.new venue side first now).windows =
          ⟨first, first - 1, fun _ => none⟩ := by
        simp only [TokenState.windows, TokenState.new, hmax]
      rw [hwin, hbars, hhandled]
      exact Lib.Windows.accounted_start SecondAccumulator.eventCount first
  early hfirst := by
    refine ⟨?_, ?_, ?_⟩
    · intro hclock
      have hzero : (TokenState.new venue side first now).watermarkSecond = 0 := max_eq_right hfirst
      omega
    · rw [hbars]
      intro entry hentry
      cases hentry
    · intro s _
      rw [hhandled]
      simp [TokenState.new]

section

variable {first : ℤ} {track : TokenTrack} {st : TokenState}

theorem Begun.send (h : Begun first track st) :
    ∃ sent, (track.send cfg env tokenKey st).state = some sent ∧
      Begun first (track.send cfg env tokenKey st) sent := by
  by_cases hfirst : 0 < first
  · obtain ⟨sent, hstate, hsent⟩ := (h.counted hfirst).send cfg env tokenKey
    exact ⟨sent, hstate, fun _ => hsent, fun hle => absurd hfirst (not_lt.mpr hle)⟩
  · obtain ⟨sent, hstate, hsent⟩ := (h.early (not_lt.mp hfirst)).send cfg env tokenKey
    exact ⟨sent, hstate, fun hpos => absurd hpos hfirst, fun _ => hsent⟩

theorem Begun.event (h : Begun first track st) (event : Event) :
    Begun first
      { track with
        dirty := true
        handled := track.handled ++ [((st.handleEvent event).event, (st.handleEvent event).second)] }
      (st.handleEvent event).state :=
  ⟨fun hfirst => (h.counted hfirst).event event, fun hfirst => (h.early hfirst).event event⟩

theorem Begun.advance (h : Begun first track st) (barSecond : ℤ) :
    Begun first { track with dirty := false } (st.advance barSecond) :=
  ⟨fun hfirst => (h.counted hfirst).advance barSecond,
    fun hfirst => (h.early hfirst).advance barSecond⟩

end

theorem second_handleEvent (st : TokenState) (event : Event) :
    (st.handleEvent event).second = none ∨
      (st.handleEvent event).second = some event.barSecond := by
  by_cases hclock : 0 < st.watermarkSecond
  · rcases st.handleEvent_windows event hclock with ⟨_, hsecond, _⟩ | ⟨_, hsecond, _⟩
    · exact Or.inl hsecond
    · exact Or.inr hsecond
  · exact Or.inr (st.handleEvent_windows_idle event (not_lt.mp hclock)).1

/-- An event is marked as out of order where it is counted nowhere. -/
theorem classified_handleEvent (st : TokenState) (event : Event) :
    Classified ((st.handleEvent event).event, (st.handleEvent event).second) := by
  obtain ⟨hfields, hflag⟩ := st.handleEvent_event event
  rcases second_handleEvent st event with hnone | hsome
  · exact Or.inr ⟨hnone, hflag hnone⟩
  · left
    rw [hfields, hsome]
    rfl

/-- The first event of a token is never late. -/
theorem second_new (venue : Venue) (side : TokenSide) (now : ℤ) (event : Event) :
    ((TokenState.new venue side event.barSecond now).handleEvent event).second =
      some event.barSecond := by
  set st := TokenState.new venue side event.barSecond now
  have hmark : st.watermarkSecond = max event.barSecond 0 := rfl
  have hflushed : st.lastFlushedSecond = max event.barSecond 0 - 1 := rfl
  by_cases hclock : 0 < st.watermarkSecond
  · rcases st.handleEvent_windows event hclock with ⟨hlate, _⟩ | ⟨_, hsecond, _⟩
    · omega
    · exact hsecond
  · exact (st.handleEvent_windows_idle event (not_lt.mp hclock)).1

theorem Seconds.takeEvent {track : TokenTrack} (h : Seconds track) (event : Event) :
    Seconds (track.takeEvent cfg env tokenKey event) := by
  set st := track.stateFor env tokenKey event with hst
  have hclass := classified_handleEvent st event
  -- what is known of the state that the event is handled in
  have hbefore : (∀ entry ∈ track.handled, Classified entry) ∧
      ∃ first : Event, Begun first.barSecond track st ∧
        (track.handled ++ [((st.handleEvent event).event, (st.handleEvent event).second)]).head? =
          some (first, some first.barSecond) := by
    unfold Seconds at h
    cases hstate : track.state with
    | none =>
      rw [hstate] at h
      obtain ⟨hbars, hhandled⟩ := h
      have hnew : st = TokenState.new event.venue ((env.tokenSides tokenKey).getD .unknown)
          event.barSecond env.now := track.stateFor_none env tokenKey event hstate
      have hsecond : (st.handleEvent event).second = some event.barSecond := by
        rw [hnew]
        exact second_new _ _ _ event
      have hbar : (st.handleEvent event).event.barSecond = event.barSecond := by
        rw [(st.handleEvent_event event).1]
        rfl
      refine ⟨by simp [hhandled], (st.handleEvent event).event, ?_, ?_⟩
      · rw [hbar, hnew]
        exact begun_new hbars hhandled _ _ _ _
      · rw [hhandled, hsecond, hbar]
        rfl
    | some old =>
      rw [hstate] at h
      obtain ⟨hclassified, first, hhead, hbegun⟩ := h
      have hsame : st = old := track.stateFor_some env tokenKey event hstate
      refine ⟨hclassified, first, hsame ▸ hbegun, ?_⟩
      rw [List.head?_append, hhead]
      rfl
  obtain ⟨hclassified, first, hbegun, hhead⟩ := hbefore
  obtain ⟨sent, hstate, hsent⟩ := (hbegun.event event).send cfg env tokenKey
  unfold Seconds
  rw [TokenTrack.takeEvent, ← hst, hstate]
  refine ⟨?_, first, hhead, hsent⟩
  intro entry hentry
  rcases List.mem_append.mp hentry with hold | hnew
  · exact hclassified entry hold
  · rw [List.mem_singleton.mp hnew]
    exact hclass

theorem Seconds.takeTick {track : TokenTrack} (h : Seconds track) (barSecond : ℤ) :
    Seconds (track.takeTick cfg env tokenKey barSecond) := by
  cases hstate : track.state with
  | none =>
    unfold Seconds TokenTrack.takeTick at *
    rw [hstate] at h
    simp only [hstate]
    exact h
  | some st =>
    rw [takeTick_of_state cfg env tokenKey track barSecond hstate]
    unfold Seconds at h
    rw [hstate] at h
    obtain ⟨hclassified, first, hhead, hbegun⟩ := h
    obtain ⟨sent, hsent, hbegun'⟩ := (hbegun.advance barSecond).send cfg env tokenKey
    unfold Seconds
    rw [hsent]
    exact ⟨hclassified, first, hhead, hbegun'⟩

theorem Seconds.handle {track : TokenTrack} (h : Seconds track) (message : ShardMessage) :
    Seconds (track.handle cfg env tokenKey message) := by
  cases message with
  | event event =>
    simp only [TokenTrack.handle]
    split
    · exact h.takeEvent cfg env tokenKey event
    · exact h
  | tick barSecond =>
    simp only [TokenTrack.handle]
    split
    · exact h.takeTick cfg env tokenKey barSecond
    · exact h

end TokenTrack

theorem seconds_of_reachable {cfg : ShardConfig} {worker : ShardWorker}
    (h : (shardMachine cfg).Reachable worker) (tokenKey : String) :
    (worker.track tokenKey).Seconds := by
  apply trackInv_of_reachable (P := fun _ track => track.Seconds) ?_ ?_ h
  · intro key
    exact ⟨rfl, rfl⟩
  · intro env key track message hseconds
    exact hseconds.handle cfg env key message

/-! ## Every second once -/

/-- The events counted in a second that is not barred yet. -/
def TokenTrack.openCount (track : TokenTrack) (t : ℤ) : ℤ :=
  match track.state with
  | some st => st.openCount t
  | none => 0

/-- The seconds from `first` on are barred once each and count each event once. -/
structure EachSecondOnce (first : ℤ) (track : TokenTrack) : Prop where
  /-- The barred seconds follow each other from the first one on. -/
  contiguous : track.bars.map (·.barSecond) = consecutive first track.bars.length
  /-- A second that still gathers events is not barred. -/
  pending : ∀ t, track.openCount t ≠ 0 → t ∉ track.bars.map (·.barSecond)
  /-- Bars and accumulators together count the events of a second. -/
  counted : ∀ t, totalAt (track.bars.map TokenState.barCount) t + track.openCount t =
    countedIn track.handled t
  /-- An event is counted in its own second, or is out of order and counted nowhere. -/
  classified : ∀ entry ∈ track.handled, Classified entry

theorem map_fst_barCount (bars : List Bars1sToken) :
    (bars.map TokenState.barCount).map Prod.fst = bars.map (·.barSecond) := by
  rw [List.map_map]
  rfl

theorem TokenTrack.Counted.eachSecondOnce {first : ℤ} {track : TokenTrack} {st : TokenState}
    (hstate : track.state = some st) (h : Counted first track st)
    (hclassified : ∀ entry ∈ track.handled, Classified entry) : EachSecondOnce first track := by
  have hopen : ∀ t, track.openCount t = st.windows.gathered SecondAccumulator.eventCount t := by
    intro t
    simp only [TokenTrack.openCount, hstate]
    rfl
  refine ⟨?_, ?_, ?_, hclassified⟩
  · have horder := h.accounted.inOrder
    rw [map_fst_barCount] at horder
    have hlen := congrArg List.length horder
    rw [List.length_map, Lib.length_consecutive] at hlen
    rw [horder, hlen]
  · intro t ht hmem
    rw [← map_fst_barCount, h.accounted.mem_closings] at hmem
    apply ht
    rw [hopen]
    -- a closed window has gathered nothing
    cases hacc : st.windows.acc t with
    | none => simp [Windows.gathered, hacc]
    | some acc =>
      have hlater := (h.accounted.opened t (by rw [hacc]; rfl)).1
      omega
  · intro t
    rw [hopen]
    exact h.accounted.total t

/-- Every second of a token is barred exactly once, and every event is counted once. -/
theorem eachSecondOnce_of_reachable {cfg : ShardConfig} {worker : ShardWorker}
    (h : (shardMachine cfg).Reachable worker) {tokenKey : String} {first : Event × Option ℤ}
    (hfirst : (worker.track tokenKey).handled.head? = some first) (hpos : 0 < first.1.barSecond) :
    EachSecondOnce first.1.barSecond (worker.track tokenKey) := by
  have hseconds := seconds_of_reachable h tokenKey
  unfold TokenTrack.Seconds at hseconds
  cases hstate : (worker.track tokenKey).state with
  | none =>
    rw [hstate] at hseconds
    rw [hseconds.2] at hfirst
    cases hfirst
  | some st =>
    rw [hstate] at hseconds
    obtain ⟨hclassified, event, hhead, hbegun⟩ := hseconds
    rw [hhead] at hfirst
    cases hfirst
    exact (hbegun.counted hpos).eachSecondOnce hstate hclassified

/-- A token with two events and a tick. -/
theorem eachSecondOnce_two_events :
    EachSecondOnce 100
      (((ShardWorker.start exampleConfig).handle calmEnv
        (.event (eventAt .polymarket .health EventPayload.empty 100200))).handle calmEnv
        (.event (eventAt .polymarket .health EventPayload.empty 103500)) |>.track "token") :=
  @eachSecondOnce_of_reachable exampleConfig _
    ⟨ShardWorker.start exampleConfig,
      [(calmEnv, .event (eventAt .polymarket .health EventPayload.empty 100200)),
        (calmEnv, .event (eventAt .polymarket .health EventPayload.empty 103500))], rfl, rfl⟩
    "token" (eventAt .polymarket .health EventPayload.empty 100200, some 100) rfl (by decide)

/-! ## Ticks -/

/-- No second up to `last` is left behind. -/
structure CompleteUpTo (last : ℤ) (track : TokenTrack) : Prop where
  barred : ∀ first ∈ track.handled.head?, ∀ s, first.1.barSecond ≤ s → s ≤ last →
    s ∈ track.bars.map (·.barSecond)
  cleared : ∀ st ∈ track.state, ∀ s ≤ last, st.accumulators s = none

/-- The token had an event since the last tick, or has no second that is due.  A token that
began before second 1 is never rid of the seconds up to 0. -/
def TickReaches (barSecond : ℤ) (track : TokenTrack) : Prop :=
  ∀ st ∈ track.state, ∀ first ∈ track.handled.head?,
    (0 < first.1.barSecond →
      track.dirty = true ∨ barSecond - lateEventBufferSecs ≤ st.lastFlushedSecond) ∧
    (first.1.barSecond ≤ 0 → ∀ entry ∈ track.handled, ∀ s, entry.2 = some s →
      barSecond - lateEventBufferSecs < s)

section

variable {track : TokenTrack} {st : TokenState} {first : Event} {last : ℤ}

theorem TokenTrack.Counted.complete_iff (h : Counted first.barSecond track st)
    (hstate : track.state = some st)
    (hhead : track.handled.head? = some (first, some first.barSecond)) :
    CompleteUpTo last track ↔ last ≤ st.lastFlushedSecond := by
  have hmem : ∀ s, s ∈ track.bars.map (·.barSecond) ↔
      first.barSecond ≤ s ∧ s ≤ st.lastFlushedSecond := by
    intro s
    rw [← map_fst_barCount, h.accounted.mem_closings]
    rfl
  constructor
  · intro hcomplete
    by_contra hbehind
    -- the second after the last flushed one is due and not barred
    have hstart : first.barSecond ≤ st.lastFlushedSecond + 1 := h.accounted.start
    have hdue := hcomplete.barred _ hhead (st.lastFlushedSecond + 1) hstart (by omega)
    have hflushed := ((hmem _).mp hdue).2
    omega
  · intro hlast
    refine ⟨?_, ?_⟩
    · intro entry hentry s hs hle
      rw [hhead] at hentry
      cases hentry
      exact (hmem s).mpr ⟨hs, by omega⟩
    · intro st' hst' s hs
      rw [hstate] at hst'
      cases hst'
      by_contra hsome
      have hlater := (h.accounted.opened s (Option.isSome_iff_ne_none.mpr hsome)).1
      have hclosed : st.windows.closed = st.lastFlushedSecond := rfl
      omega

theorem TokenTrack.Early.complete_iff (h : Early track st) (hstate : track.state = some st)
    (hfirst : first.barSecond ≤ 0)
    (hhead : track.handled.head? = some (first, some first.barSecond)) :
    CompleteUpTo last track ↔ ∀ entry ∈ track.handled, ∀ s, entry.2 = some s → last < s := by
  have hmem := List.mem_of_mem_head? hhead
  constructor
  · intro hcomplete entry hentry s hs
    by_contra hle
    by_cases hzero : s ≤ 0
    · have hopen := (h.opened s hzero).mpr ⟨entry, hentry, hs⟩
      rw [hcomplete.cleared st hstate s (not_lt.mp hle)] at hopen
      cases hopen
    · -- then the first second of the token is due too
      have hopen := (h.opened _ hfirst).mpr ⟨_, hmem, rfl⟩
      rw [hcomplete.cleared st hstate first.barSecond (by omega)] at hopen
      cases hopen
  · intro hall
    have hlast := hall _ hmem _ rfl
    refine ⟨?_, ?_⟩
    · intro entry hentry s hs hle
      rw [hhead] at hentry
      cases hentry
      simp only at hs
      omega
    · intro st' hst' s hs
      rw [hstate] at hst'
      cases hst'
      by_contra hsome
      obtain ⟨entry, hentry, hcount⟩ :=
        (h.opened s (by omega)).mp (Option.isSome_iff_ne_none.mpr hsome)
      have hlater := hall entry hentry s hcount
      omega

end

section

variable (cfg : ShardConfig) (env : ShardEnv) (tokenKey : String)

/-- A tick that visits the token flushes it up to two seconds before the tick. -/
theorem TokenTrack.flushed_takeTick {track : TokenTrack} {st : TokenState}
    (hstate : track.state = some st) (hclock : 0 < st.watermarkSecond) (barSecond : ℤ) :
    ∃ sent, (track.takeTick cfg env tokenKey barSecond).state = some sent ∧
      barSecond - lateEventBufferSecs ≤ sent.lastFlushedSecond := by
  rw [TokenTrack.takeTick_of_state cfg env tokenKey track barSecond hstate]
  obtain ⟨sent, hsent, hflush⟩ := TokenTrack.send_windows cfg env tokenKey
    { track with dirty := false } (st.advance barSecond)
  refine ⟨sent, hsent, ?_⟩
  have hwin := st.advance_windows barSecond hclock
  simp only [TokenState.windows, Windows.see, Windows.mk.injEq] at hwin
  obtain ⟨hmark, hflushed, _⟩ := hwin
  rcases hflush with ⟨hnot, hwin', _⟩ | ⟨_, hwin', _⟩
  · simp only [TokenState.windows, Windows.mk.injEq] at hwin'
    omega
  · have hcutoff : sent.windows.closed = (st.advance barSecond).watermarkSecond -
        lateEventBufferSecs := by
      rw [hwin']
      rfl
    have hsame : sent.windows.closed = sent.lastFlushedSecond := rfl
    omega

theorem TokenTrack.Seconds.complete_iff {track : TokenTrack} (h : track.Seconds)
    (barSecond : ℤ) :
    CompleteUpTo (barSecond - lateEventBufferSecs)
        (track.handle cfg env tokenKey (.tick barSecond)) ↔
      TickReaches barSecond track := by
  have hafter := h.handle cfg env tokenKey (.tick barSecond)
  have hhandled : (track.handle cfg env tokenKey (.tick barSecond)).handled = track.handled := by
    simp only [TokenTrack.handle, TokenTrack.takeTick]
    split
    · split <;> rfl
    · rfl
  have hstill : ∀ st ∈ track.state,
      (track.handle cfg env tokenKey (.tick barSecond)).state.isSome = true := by
    intro st hstate
    simp only [TokenTrack.handle]
    split
    · rw [TokenTrack.takeTick_of_state cfg env tokenKey track barSecond hstate]
      rfl
    · rw [hstate]
      rfl
  have hnone : track.state = none →
      (track.handle cfg env tokenKey (.tick barSecond)).state = none := by
    intro hstate
    simp only [TokenTrack.handle, TokenTrack.takeTick, hstate]
    split <;> simp [hstate]
  cases hstate : track.state with
  | none =>
    unfold TokenTrack.Seconds at h
    rw [hstate] at h
    constructor
    · intro _ st hst
      rw [hstate] at hst
      cases hst
    · intro _
      refine ⟨?_, ?_⟩
      · intro first hfirst
        rw [hhandled, h.2] at hfirst
        cases hfirst
      · intro st hst
        rw [hnone hstate] at hst
        cases hst
  | some st =>
    obtain ⟨sent, hsent⟩ := Option.isSome_iff_exists.mp (hstill st hstate)
    unfold TokenTrack.Seconds at h hafter
    rw [hstate] at h
    rw [hsent] at hafter
    obtain ⟨_, first, hhead, hbegun⟩ := h
    obtain ⟨_, first', hhead', hbegun'⟩ := hafter
    have hsame : first' = first := by
      rw [hhandled, hhead] at hhead'
      cases hhead'
      rfl
    subst hsame
    have hreaches : TickReaches barSecond track ↔
        (0 < first'.barSecond →
          track.dirty = true ∨ barSecond - lateEventBufferSecs ≤ st.lastFlushedSecond) ∧
        (first'.barSecond ≤ 0 → ∀ entry ∈ track.handled, ∀ s, entry.2 = some s →
          barSecond - lateEventBufferSecs < s) := by
      simp only [TickReaches, hstate, hhead, Option.mem_def, Option.some.injEq, forall_eq']
    rw [hreaches]
    by_cases hfirst : 0 < first'.barSecond
    · have hcounted := hbegun.counted hfirst
      rw [(hbegun'.counted hfirst).complete_iff hsent hhead']
      constructor
      · intro hflushed
        refine ⟨fun _ => ?_, fun hle => absurd hfirst (not_lt.mpr hle)⟩
        by_cases hdirty : track.dirty = true
        · exact Or.inl hdirty
        · -- a tick that does not visit the token flushes nothing
          right
          simp only [TokenTrack.handle, if_neg hdirty, hstate, Option.some.injEq] at hsent
          rw [hsent]
          exact hflushed
      · rintro ⟨hreach, _⟩
        by_cases hdirty : track.dirty = true
        · obtain ⟨sent', hsent', hflushed⟩ := TokenTrack.flushed_takeTick cfg env tokenKey hstate
            hcounted.clock barSecond
          simp only [TokenTrack.handle, if_pos hdirty] at hsent
          rw [hsent, Option.some.injEq] at hsent'
          rw [hsent']
          exact hflushed
        · simp only [TokenTrack.handle, if_neg hdirty, hstate, Option.some.injEq] at hsent
          rw [← hsent]
          exact (hreach hfirst).resolve_left hdirty
    · have hle := not_lt.mp hfirst
      rw [(hbegun'.early hle).complete_iff hsent hle hhead', hhandled]
      constructor
      · intro hall
        exact ⟨fun hpos => absurd hpos hfirst, fun _ => hall⟩
      · intro hall
        exact hall.2 hle

end

/-- A tick leaves no second of any token behind just in case it reaches them all. -/
theorem tick_complete_iff {cfg : ShardConfig} {worker : ShardWorker}
    (h : (shardMachine cfg).Reachable worker) (env : ShardEnv) (barSecond : ℤ) :
    (∀ tokenKey, CompleteUpTo (barSecond - lateEventBufferSecs)
        ((worker.handle env (.tick barSecond)).track tokenKey)) ↔
      ∀ tokenKey, TickReaches barSecond (worker.track tokenKey) := by
  apply forall_congr'
  intro tokenKey
  rw [worker.track_handle env (.tick barSecond) tokenKey (worker_of_reachable h).2]
  exact (seconds_of_reachable h tokenKey).complete_iff worker.config env tokenKey barSecond

/-- A token without events since its last tick is left behind by the next ones. -/
theorem silent_token_left_behind :
    ¬ ∀ (cfg : ShardConfig) (worker : ShardWorker), (shardMachine cfg).Reachable worker →
      ∀ (env : ShardEnv) (barSecond : ℤ) (tokenKey : String),
        CompleteUpTo (barSecond - lateEventBufferSecs)
          ((worker.handle env (.tick barSecond)).track tokenKey) := by
  intro hall
  have hcomplete := hall exampleConfig
    (((ShardWorker.start exampleConfig).handle calmEnv
      (.event (eventAt .polymarket .health EventPayload.empty 100200))).handle calmEnv (.tick 101))
    ⟨ShardWorker.start exampleConfig,
      [(calmEnv, .event (eventAt .polymarket .health EventPayload.empty 100200)),
        (calmEnv, .tick 101)], rfl, rfl⟩ calmEnv 110 "token"
  have hbarred := hcomplete.barred
    (eventAt .polymarket .health EventPayload.empty 100200, some 100) (by rfl) 100 (by decide)
    (by decide)
  revert hbarred
  decide +kernel

/-- A tick reaches a token that just had an event. -/
theorem tick_complete_after_event :
    ((((ShardWorker.start exampleConfig).handle calmEnv
        (.event (eventAt .polymarket .health EventPayload.empty 100200))).handle calmEnv
        (.tick 105)).barsOf "token").map (·.barSecond) = [100, 101, 102, 103] ∧
      ∀ tokenKey, CompleteUpTo (105 - lateEventBufferSecs)
        ((((ShardWorker.start exampleConfig).handle calmEnv
          (.event (eventAt .polymarket .health EventPayload.empty 100200))).handle calmEnv
          (.tick 105)).track tokenKey) := by
  refine ⟨by decide +kernel, (tick_complete_iff
    ⟨ShardWorker.start exampleConfig,
      [(calmEnv, .event (eventAt .polymarket .health EventPayload.empty 100200))], rfl, rfl⟩
    calmEnv 105).mpr fun tokenKey st hst first hfirst => ?_⟩
  have hnodup := (@worker_of_reachable exampleConfig _ ⟨_, [], rfl, rfl⟩).2
  rw [(ShardWorker.start exampleConfig).track_handle calmEnv _ tokenKey hnodup] at hst hfirst ⊢
  by_cases hkey : tokenKey = "token"
  · subst hkey
    cases hfirst
    exact ⟨fun _ => .inl rfl, fun hle => absurd hle (by decide)⟩
  · simp only [TokenTrack.handle] at hst
    rw [if_neg fun heq => hkey heq.symm] at hst
    cases hst

end AlphaMonitor.Shard
