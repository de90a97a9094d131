import AlphaMonitor.Shard.Sharding

/-!
# Dropped events are marked

The dispatcher counts the events of a venue that it drops, and a shard marks the next bar
that it sends of a token.  Both wait for the health: the dispatcher after an event was
refused, and the shard before every single bar, so that drops may be noted between two bars
of one flush.  A bar in a gap has the same mark of its own.

## Main definitions

- `ShardTask`: a shard that may be half way through a message
- `taskMachine`: the dispatcher, the shards and the health, from one wait to the next

## Main results

- `ShardTask.finish_take`: a message whose bars are sent without a break is handled as by
  `ShardWorker.handle`
- `TaskSystem.drops_are_marked`: a bar is marked if and only if it is in a gap, or a drop of
  its venue was noted since the bar before
-/

namespace AlphaMonitor.Shard

open Feed (HealthState HealthNote)
open Lib (Mail Route Router)

/-- The bit for dropped events. -/
def Bars1sToken.eventDrop (bar : Bars1sToken) : Bool := bar.connectionHealthFlags.testBit 3

/-- The bar is in a gap. -/
def Bars1sToken.inGap (bar : Bars1sToken) : Bool := decide (bar.barGapFlag = 1)

/-! ## Parts of a message -/

namespace ShardWorker

variable (worker : ShardWorker)

/-- `flush_ready`, with the bars that it sends afterwards. -/
def flush (tokenKey : String) (st : TokenState) : ShardWorker × List Bars1sToken :=
  let (st, bars) := st.flushReady worker.config tokenKey
  ({ worker with state := Function.update worker.state tokenKey (some st) }, bars)

/-- `handle_event`, up to the bars. -/
def startEvent (now : ℤ) (tokenSides : String → Option TokenSide) (event : Event) :
    ShardWorker × List Bars1sToken :=
  let tokenKey := event.tokenKey
  let side := (tokenSides tokenKey).getD .unknown
  let st := (worker.state tokenKey).getD (TokenState.new event.venue side event.barSecond now)
  let result := st.handleEvent event
  let worker :=
    { worker with
      dirtyTokens := worker.dirtyTokens.insert tokenKey
      handled := worker.handled ++ [(result.event, result.second)] }
  worker.flush tokenKey result.state

/-- `handle_tick` for one token, up to the bars. -/
def visit (barSecond : ℤ) (tokenKey : String) : ShardWorker × List Bars1sToken :=
  match worker.state tokenKey with
  | some st => worker.flush tokenKey (st.advance barSecond)
  | none => (worker, [])

/-- `emit_result` for one bar, with the state of its token. -/
def send (env : ShardEnv) (bar : Bars1sToken) : ShardWorker :=
  match worker.state bar.tokenKey with
  | some st =>
    let (st, sent) := emitResult env st bar
    { worker with
      state := Function.update worker.state bar.tokenKey (some st)
      emitted := worker.emitted ++ [sent] }
  -- a bar was made from the state of its token, and states are never removed
  | none => worker

end ShardWorker

/-- A shard, with what is left of the message at hand. -/
structure ShardTask where
  worker : ShardWorker
  /-- The tokens that a tick still has to visit, each with the second of the tick. -/
  visits : List (ℤ × String)
  /-- The bars of the last flush that are still to be sent. -/
  unsent : List Bars1sToken

namespace ShardTask

def start (cfg : ShardConfig) : ShardTask := ⟨ShardWorker.start cfg, [], []⟩

/-- The next message, for a task that is done with the one before. -/
def take (now : ℤ) (tokenSides : String → Option TokenSide) (task : ShardTask) :
    ShardMessage → ShardTask
  | .event event =>
    let (worker, bars) := task.worker.startEvent now tokenSides event
    { task with worker := worker, unsent := bars }
  | .tick barSecond =>
    { task with
      worker := { task.worker with dirtyTokens := [] }
      visits := task.worker.dirtyTokens.map fun tokenKey => (barSecond, tokenKey) }

/-- The next step of the message at hand: a bar is sent, or the next token is visited. -/
def next (env : ShardEnv) (task : ShardTask) : Option ShardTask :=
  match task.unsent, task.visits with
  | bar :: rest, _ => some { task with worker := task.worker.send env bar, unsent := rest }
  | [], (barSecond, tokenKey) :: rest =>
    let (worker, bars) := task.worker.visit barSecond tokenKey
    some ⟨worker, rest, bars⟩
  | [], [] => none

/-- All that is left, in the same surroundings. -/
def finish (env : ShardEnv) (task : ShardTask) : ShardWorker :=
  task.visits.foldl
    (fun worker visit =>
      let (worker, bars) := worker.visit visit.1 visit.2
      bars.foldl (fun worker bar => worker.send env bar) worker)
    (task.unsent.foldl (fun worker bar => worker.send env bar) task.worker)

end ShardTask

/-! ### Without a break -/

namespace ShardWorker

variable {env : ShardEnv} {worker : ShardWorker}

theorem foldl_send {tokenKey : String} {bars : List Bars1sToken} {st : TokenState}
    (hstate : worker.state tokenKey = some st) (hbars : ∀ bar ∈ bars, bar.tokenKey = tokenKey) :
    bars.foldl (fun worker bar => worker.send env bar) worker =
      { worker with
        state := Function.update worker.state tokenKey (some (emitAll env st bars).1)
        emitted := worker.emitted ++ (emitAll env st bars).2 } := by
  induction bars generalizing worker st with
  | nil =>
    rw [List.foldl_nil, emitAll, Function.update_eq_self_iff.mpr hstate.symm, List.append_nil]
  | cons bar rest ih =>
    have hkey := hbars bar List.mem_cons_self
    have hsend : worker.send env bar =
        { worker with
          state := Function.update worker.state tokenKey (some (emitResult env st bar).1)
          emitted := worker.emitted ++ [(emitResult env st bar).2] } := by
      unfold send
      rw [hkey, hstate]
    rw [List.foldl_cons, hsend, ih (Function.update_self _ _ _)
      fun bar hmem => hbars bar (List.mem_cons_of_mem _ hmem)]
    simp only [emitAll, Function.update_idem, List.append_assoc, List.singleton_append]

/-- A flush and its bars. -/
theorem foldl_send_flush (tokenKey : String) (st : TokenState) :
    (worker.flush tokenKey st).2.foldl (fun worker bar => worker.send env bar)
        (worker.flush tokenKey st).1 = worker.flushToken env tokenKey st := by
  have hbars := st.flushReady_tokenKey worker.config tokenKey
  unfold flush flushToken
  simp only
  rw [foldl_send (Function.update_self _ _ _) hbars]
  simp only [Function.update_idem]

end ShardWorker

/-- A message whose bars are sent without a break is handled as by the worker. -/
theorem ShardTask.finish_take (env : ShardEnv) (worker : ShardWorker) (message : ShardMessage) :
    (ShardTask.take env.now env.tokenSides ⟨worker, [], []⟩ message).finish env =
      worker.handle env message := by
  cases message with
  | event event =>
    simp only [take, finish, List.foldl_nil]
    exact ShardWorker.foldl_send_flush _ _
  | tick barSecond =>
    simp only [take, finish, List.foldl_nil, List.foldl_map]
    unfold ShardWorker.handle ShardWorker.handleTick
    congr 1
    funext worker tokenKey
    unfold ShardWorker.visit ShardWorker.tickToken
    cases hstate : worker.state tokenKey with
    | none => rfl
    | some st => exact ShardWorker.foldl_send_flush _ _

/-! ## What a flush marks -/

namespace TokenState

variable (cfg : ShardConfig) (tokenKey : String)

theorem eventDrop_flushOne (current : ℤ) (st : TokenState) :
    (flushOne cfg tokenKey current st).2.eventDrop =
      (flushOne cfg tokenKey current st).2.inGap := by
  have hflags : ∀ recent gap : Bool,
      ((if recent = true then healthResyncRecent else 0) |||
        (if gap = true then healthEventDrop else 0)).testBit 3 =
          decide ((if gap = true then (1 : ℤ) else 0) = 1) := by decide
  exact hflags _ _

theorem flushLoop_marks (n : ℕ) (current : ℤ) (st : TokenState) :
    (flushLoop cfg tokenKey n current st).1.venue = st.venue ∧
      ∀ bar ∈ (flushLoop cfg tokenKey n current st).2,
        bar.venue = st.venue ∧ bar.eventDrop = bar.inGap := by
  induction n generalizing current st with
  | zero => exact ⟨rfl, fun bar hbar => by cases hbar⟩
  | succ n ih =>
    obtain ⟨hvenue, hbars⟩ := ih (current + 1) (flushOne cfg tokenKey current st).1
    rw [flushLoop_succ]
    refine ⟨hvenue, fun bar hbar => ?_⟩
    rcases List.mem_cons.mp hbar with rfl | hrest
    · exact ⟨rfl, eventDrop_flushOne cfg tokenKey current st⟩
    · exact hbars bar hrest

theorem flushReady_marks (st : TokenState) :
    (st.flushReady cfg tokenKey).1.venue = st.venue ∧
      (st.flushReady cfg tokenKey).1.lastDropCount = st.lastDropCount ∧
      ∀ bar ∈ (st.flushReady cfg tokenKey).2, bar.venue = st.venue ∧ bar.eventDrop = bar.inGap := by
  have hcount : (st.flushReady cfg tokenKey).1 =
      (st.flushReady cfg tokenKey).1.relabel st.tokenSide st.lastDropCount :=
    flushReady_relabel cfg tokenKey st.tokenSide st.lastDropCount st
  refine ⟨?_, by rw [hcount]; rfl, ?_⟩
  · unfold flushReady
    simp only
    split
    · rfl
    · exact (flushLoop_marks cfg tokenKey _ _ st).1
  · unfold flushReady
    simp only
    split
    · exact fun bar hbar => by cases hbar
    · exact (flushLoop_marks cfg tokenKey _ _ st).2

/-- An event changes neither the venue of a token nor the drops that were marked. -/
theorem handleEvent_frame (st : TokenState) (event : Event) :
    (st.handleEvent event).state.venue = st.venue ∧
      (st.handleEvent event).state.lastDropCount = st.lastDropCount := by
  have hcount : (st.handleEvent event).state =
      (st.handleEvent event).state.relabel st.tokenSide st.lastDropCount :=
    handleEvent_relabel st.tokenSide st.lastDropCount st event
  refine ⟨?_, by rw [hcount]; rfl⟩
  rw [handleEvent_eq]
  simp only
  rw [(dispatch_same _ _ _).venue]
  have hadmit : (st.admitEvent event).1.venue = st.venue := by
    unfold admitEvent
    simp only
    split
    · rfl
    · split <;> rfl
  rw [← hadmit]
  unfold countEvent onAcc
  cases (st.admitEvent event).2 <;> rfl

theorem advance_frame (st : TokenState) (barSecond : ℤ) :
    (st.advance barSecond).venue = st.venue ∧
      (st.advance barSecond).lastDropCount = st.lastDropCount := by
  unfold advance
  split
  · exact ⟨rfl, rfl⟩
  · exact ⟨rfl, rfl⟩

end TokenState

/-! ## What a worker marks -/

namespace ShardWorker

variable {env : ShardEnv}

/-- A bar is marked when more was dropped than was marked before. -/
theorem emitResult_marks (st : TokenState) (bar : Bars1sToken) {drops : ℤ}
    (hdrops : (env.health bar.venue bar.barSecond).droppedEvents = drops) :
    (emitResult env st bar).1.lastDropCount = max st.lastDropCount drops ∧
      ((emitResult env st bar).2.eventDrop = true ↔
        bar.eventDrop = true ∨ st.lastDropCount < drops) := by
  have hbits : ∀ (flags : ℕ) (up ok : Bool),
      (flags ||| (if up = true then healthWsConnected else 0) |||
        (if ok = true then healthHeartbeatOk else 0)).testBit 3 = flags.testBit 3 := by
    intro flags up ok
    have hup : healthWsConnected.testBit 3 = false := by decide
    have hok : healthHeartbeatOk.testBit 3 = false := by decide
    cases up <;> cases ok <;> simp [hup, hok]
  have hflags := hbits bar.connectionHealthFlags (env.health bar.venue bar.barSecond).wsUp
    (decide (bar.venue = .polymarket ∨
      (env.health bar.venue bar.barSecond).heartbeatFail.getD 0 = 0))
  simp only [decide_eq_true_eq] at hflags
  have hdrop : healthEventDrop.testBit 3 = true := by decide
  unfold emitResult Bars1sToken.eventDrop
  simp only [hdrops]
  split
  · rename_i hmore
    refine ⟨(max_eq_right (le_of_lt hmore)).symm, ?_⟩
    rw [Nat.testBit_or, hdrop, Bool.or_true]
    simp [hmore]
  · rename_i hnone
    refine ⟨(max_eq_left (not_lt.mp hnone)).symm, ?_⟩
    rw [hflags]
    simp [hnone]

theorem emitResult_inGap (st : TokenState) (bar : Bars1sToken) :
    (emitResult env st bar).2.inGap = bar.inGap := by
  rw [(emitResult_spec env st bar).2.fields]
  rfl

/-- The drops that were marked for a token. -/
def marked (worker : ShardWorker) (tokenKey : String) : ℤ :=
  ((worker.state tokenKey).map (·.lastDropCount)).getD 0

/-- The token's state is one of the venue. -/
def IsOf (worker : ShardWorker) (tokenKey : String) (venue : Venue) : Prop :=
  ∃ st ∈ worker.state tokenKey, st.venue = venue

/-- No bar is sent and no drop is marked, and every token stays with its venue. -/
structure Quiet (worker worker' : ShardWorker) : Prop where
  emitted : worker'.emitted = worker.emitted
  marked : ∀ tokenKey, worker'.marked tokenKey = worker.marked tokenKey
  venue : ∀ tokenKey venue, worker.IsOf tokenKey venue → worker'.IsOf tokenKey venue

/-- Bars as a flush makes them: of tokens that are there, and only marked for a gap. -/
def AreFlushed (worker : ShardWorker) (bars : List Bars1sToken) : Prop :=
  ∀ bar ∈ bars, bar.eventDrop = bar.inGap ∧ worker.IsOf bar.tokenKey bar.venue

variable {worker worker' : ShardWorker} {tokenKey : String}

theorem Quiet.refl (worker : ShardWorker) : Quiet worker worker :=
  ⟨rfl, fun _ => rfl, fun _ _ h => h⟩

theorem marked_of_state {st : TokenState} (h : worker.state tokenKey = some st) :
    worker.marked tokenKey = st.lastDropCount := by
  rw [marked, h]
  rfl

theorem IsOf.unique {venue venue' : Venue} (h : worker.IsOf tokenKey venue)
    (h' : worker.IsOf tokenKey venue') : venue = venue' := by
  obtain ⟨st, hst, rfl⟩ := h
  obtain ⟨st', hst', rfl⟩ := h'
  rw [Option.some.inj (hst.symm.trans hst')]

theorem isOf_update {other : String} {st : TokenState} {venue : Venue}
    (hvenue : ∀ st₀ ∈ worker.state tokenKey, st.venue = st₀.venue)
    (hstate : worker'.state = Function.update worker.state tokenKey (some st))
    (h : worker.IsOf other venue) : worker'.IsOf other venue := by
  obtain ⟨st₀, hst₀, hof⟩ := h
  unfold IsOf
  rw [hstate]
  by_cases hkey : other = tokenKey
  · subst hkey
    rw [Function.update_self]
    exact ⟨st, rfl, (hvenue st₀ hst₀).trans hof⟩
  · rw [Function.update_of_ne hkey]
    exact ⟨st₀, hst₀, hof⟩

/-- A flush of a state that keeps the venue and the marks. -/
theorem flush_spec {st : TokenState} (hvenue : ∀ st₀ ∈ worker.state tokenKey, st.venue = st₀.venue)
    (hmarked : st.lastDropCount = worker.marked tokenKey) :
    Quiet worker (worker.flush tokenKey st).1 ∧
      AreFlushed (worker.flush tokenKey st).1 (worker.flush tokenKey st).2 := by
  obtain ⟨hready, hcount, hbars⟩ := TokenState.flushReady_marks worker.config tokenKey st
  refine ⟨⟨rfl, fun other => ?_, fun other venue hof => ?_⟩, fun bar hbar => ?_⟩
  · unfold marked flush
    by_cases hkey : other = tokenKey
    · subst hkey
      simp only [Function.update_self, Option.map_some, Option.getD_some]
      rw [hcount, hmarked, marked]
    · simp only [Function.update_of_ne hkey]
  · refine isOf_update (fun st₀ hst₀ => ?_) rfl hof
    exact hready.trans (hvenue st₀ hst₀)
  · obtain ⟨hof, hmark⟩ := hbars bar hbar
    refine ⟨hmark, ?_⟩
    rw [st.flushReady_tokenKey worker.config tokenKey bar hbar]
    exact ⟨_, Function.update_self _ _ _, hready.trans hof.symm⟩

theorem startEvent_spec (now : ℤ) (tokenSides : String → Option TokenSide) (event : Event) :
    Quiet worker (worker.startEvent now tokenSides event).1 ∧
      AreFlushed (worker.startEvent now tokenSides event).1
        (worker.startEvent now tokenSides event).2 := by
  set st := (worker.state event.tokenKey).getD (TokenState.new event.venue
    ((tokenSides event.tokenKey).getD .unknown) event.barSecond now) with hst
  obtain ⟨hvenue, hcount⟩ := st.handleEvent_frame event
  -- the worker's lists play no part in a flush
  obtain ⟨hquiet, hflushed⟩ := @flush_spec
    { worker with
      dirtyTokens := worker.dirtyTokens.insert event.tokenKey
      handled := worker.handled ++ [((st.handleEvent event).event, (st.handleEvent event).second)] }
    event.tokenKey (st.handleEvent event).state
    (fun st₀ hst₀ => by
      have hold : worker.state event.tokenKey = some st₀ := hst₀
      rw [hvenue, hst, hold, Option.getD_some])
    (by
      rw [hcount]
      change _ = worker.marked event.tokenKey
      rw [hst, marked]
      cases worker.state event.tokenKey with
      | none => rfl
      | some st₀ => rfl)
  exact ⟨⟨hquiet.emitted, hquiet.marked, hquiet.venue⟩, hflushed⟩

theorem visit_spec (barSecond : ℤ) (tokenKey : String) :
    Quiet worker (worker.visit barSecond tokenKey).1 ∧
      AreFlushed (worker.visit barSecond tokenKey).1 (worker.visit barSecond tokenKey).2 := by
  unfold visit
  cases hstate : worker.state tokenKey with
  | none => exact ⟨Quiet.refl worker, fun bar hbar => by cases hbar⟩
  | some st =>
    obtain ⟨hvenue, hcount⟩ := st.advance_frame barSecond
    refine flush_spec (fun st₀ hst₀ => ?_) ?_
    · rw [hstate] at hst₀
      cases hst₀
      exact hvenue
    · rw [hcount, marked_of_state hstate]

/-- One bar is sent: it is marked when it is in a gap, or more was dropped than was marked for its
token before, and then all drops are marked. -/
structure Sends (drops : Venue → ℤ) (worker worker' : ShardWorker) (sent : Bars1sToken) :
    Prop where
  emitted : worker'.emitted = worker.emitted ++ [sent]
  isOf : worker.IsOf sent.tokenKey sent.venue
  drop : sent.eventDrop = true ↔
    sent.inGap = true ∨ worker.marked sent.tokenKey < drops sent.venue
  marked : worker'.marked sent.tokenKey = max (worker.marked sent.tokenKey) (drops sent.venue)
  others : ∀ other, other ≠ sent.tokenKey → worker'.marked other = worker.marked other
  venue : ∀ tokenKey venue, worker.IsOf tokenKey venue → worker'.IsOf tokenKey venue

theorem exists_sends {bar : Bars1sToken} {drops : Venue → ℤ}
    (hdrops : ∀ venue second, (env.health venue second).droppedEvents = drops venue)
    (hof : worker.IsOf bar.tokenKey bar.venue) (hmark : bar.eventDrop = bar.inGap) :
    ∃ sent, Sends drops worker (worker.send env bar) sent := by
  obtain ⟨st, hst, hvenue⟩ := hof
  have hstate : worker.state bar.tokenKey = some st := hst
  have hsend : worker.send env bar =
      { worker with
        state := Function.update worker.state bar.tokenKey (some (emitResult env st bar).1)
        emitted := worker.emitted ++ [(emitResult env st bar).2] } := by
    unfold send
    rw [hstate]
  obtain ⟨hcount, hdrop⟩ := emitResult_marks st bar (hdrops bar.venue bar.barSecond)
  obtain ⟨hsame, hbar⟩ := emitResult_spec env st bar
  have hkey : (emitResult env st bar).2.tokenKey = bar.tokenKey := by rw [hbar.fields]
  have hof : (emitResult env st bar).2.venue = bar.venue := by rw [hbar.fields]
  rw [hsend]
  refine ⟨(emitResult env st bar).2, rfl, ?_, ?_, ?_, fun other hne => ?_, fun other venue => ?_⟩
  · rw [hkey, hof]
    exact ⟨st, hst, hvenue⟩
  · rw [hkey, hof, marked_of_state hstate, hdrop, hmark, emitResult_inGap]
  · rw [hkey, hof, marked_of_state hstate, marked_of_state (Function.update_self _ _ _), hcount]
  · rw [hkey] at hne
    unfold marked
    simp only [Function.update_of_ne hne]
  · refine isOf_update (fun st₀ hst₀ => ?_) rfl
    rw [hstate] at hst₀
    cases hst₀
    rw [hsame]

end ShardWorker

/-- A step of a shard sends a bar, or it is quiet. -/
theorem ShardTask.next_spec {env : ShardEnv} {drops : Venue → ℤ} {task task' : ShardTask}
    (hdrops : ∀ venue second, (env.health venue second).droppedEvents = drops venue)
    (hflushed : task.worker.AreFlushed task.unsent) (hnext : task.next env = some task') :
    task'.worker.AreFlushed task'.unsent ∧
      (ShardWorker.Quiet task.worker task'.worker ∨
        ∃ sent, ShardWorker.Sends drops task.worker task'.worker sent) := by
  cases hunsent : task.unsent with
  | cons bar rest =>
    simp only [next, hunsent] at hnext
    cases hnext
    rw [hunsent] at hflushed
    obtain ⟨hmark, hof⟩ := hflushed bar List.mem_cons_self
    obtain ⟨sent, hsends⟩ := ShardWorker.exists_sends hdrops hof hmark
    refine ⟨fun other hmem => ?_, Or.inr ⟨sent, hsends⟩⟩
    obtain ⟨hmark', hof'⟩ := hflushed other (List.mem_cons_of_mem _ hmem)
    exact ⟨hmark', hsends.venue _ _ hof'⟩
  | nil =>
    cases hvisits : task.visits with
    | cons visit rest =>
      simp only [next, hunsent, hvisits] at hnext
      cases hnext
      obtain ⟨hquiet, hbars⟩ := task.worker.visit_spec visit.1 visit.2
      exact ⟨hbars, Or.inl hquiet⟩
    | nil =>
      simp only [next, hunsent, hvisits] at hnext
      cases hnext

theorem ShardTask.take_spec {task : ShardTask} (hidle : task.unsent = []) (now : ℤ)
    (tokenSides : String → Option TokenSide) (message : ShardMessage) :
    (task.take now tokenSides message).worker.AreFlushed (task.take now tokenSides message).unsent ∧
      ShardWorker.Quiet task.worker (task.take now tokenSides message).worker := by
  cases message with
  | event event => exact (task.worker.startEvent_spec now tokenSides event).symm
  | tick barSecond =>
    refine ⟨fun bar hbar => ?_, rfl, fun _ => rfl, fun _ _ hof => hof⟩
    have hnone : bar ∈ task.unsent := hbar
    rw [hidle] at hnone
    cases hnone

/-! ## The system -/

/-- The dispatcher's queues, the shards and the health, as they are while all of them wait. -/
structure TaskSystem (n : ℕ) where
  mail : Mail (Fin n) ShardMessage
  shards : Fin n → ShardTask
  health : HealthState
  /-- The refused event whose drop the dispatcher is about to note. -/
  dropping : Option Event
  /-- The events whose drops were noted. -/
  noted : List Event

inductive TaskEvent (n : ℕ) where
  /-- The dispatcher takes a message out of its channel. -/
  | dispatch (message : ShardMessage)
  /-- It has the health and notes a drop. -/
  | noteDrop
  /-- It goes on handing out a tick. -/
  | push
  /-- A shard takes the first message of its queue. -/
  | take (shard : Fin n) (now : ℤ) (tokenSides : String → Option TokenSide)
  /-- A shard goes on with its message; a bar needs the health. -/
  | next (shard : Fin n) (now : ℤ)
  /-- The WebSocket task of a venue notes something. -/
  | note (venue : Venue) (note : HealthNote)

/-- The event that is refused when the dispatcher tries a message. -/
def refusedEvent {n : ℕ} (mail : Mail (Fin n) ShardMessage) (message : ShardMessage) :
    Option Event :=
  match message, (shardRouter n).route message with
  | .event event, .try_ shard =>
    if (mail.waiting shard).length < (shardRouter n).cap then none else some event
  | _, _ => none

namespace TaskSystem

variable {n : ℕ} (sys : TaskSystem n)

def start (n : ℕ) (cfg : ShardConfig) : TaskSystem n :=
  ⟨Mail.empty, fun _ => ShardTask.start cfg, HealthState.new, none, []⟩

/-- One step of one of the tasks. -/
def step : TaskEvent n → Option (TaskSystem n)
  | .dispatch message =>
    -- the dispatcher is busy while it hands out a tick or waits to note a drop
    if sys.mail.sending.isNone && sys.dropping.isNone then
      some { sys with
        mail := sys.mail.offer (shardRouter n) message
        dropping := refusedEvent sys.mail message }
    else none
  | .noteDrop =>
    sys.dropping.map fun event =>
      { sys with
        health := sys.health.recordDrop event.venue
        dropping := none
        noted := sys.noted ++ [event] }
  | .push => (sys.mail.push (shardRouter n)).map fun mail => { sys with mail := mail }
  | .take shard now tokenSides =>
    match (sys.shards shard).visits, (sys.shards shard).unsent with
    | [], [] =>
      (sys.mail.take shard).map fun taken =>
        { sys with
          mail := taken.2
          shards := Function.update sys.shards shard
            ((sys.shards shard).take now tokenSides taken.1) }
    | _, _ => none
  | .next shard now =>
    ((sys.shards shard).next (DispatchSystem.envOf sys.health now fun _ => none)).map fun task =>
      { sys with shards := Function.update sys.shards shard task }
  | .note venue note => some { sys with health := sys.health.note venue note }

/-- The bars of a token that a shard has sent. -/
def barsOf (shard : Fin n) (tokenKey : String) : List Bars1sToken :=
  (sys.shards shard).worker.barsOf tokenKey

end TaskSystem

/-- The dispatcher with `n` shards, from one wait to the next. -/
def taskMachine (n : ℕ) (cfg : ShardConfig) : Lib.Machine (TaskSystem n) (TaskEvent n) where
  init sys := sys = TaskSystem.start n cfg
  step sys e := sys.step e

/-! ## What a step does -/

namespace TaskSystem

variable {n : ℕ} {cfg : ShardConfig} {sys sys' : TaskSystem n}

/-- The drops that were noted are those of the refused events, but for the one at hand, and the
health counts them. -/
structure Noted (sys : TaskSystem n) : Prop where
  refused : sys.mail.refused = (sys.noted ++ sys.dropping.toList).map ShardMessage.event
  counted : ∀ venue, sys.health.dropped venue =
    sys.noted.countP fun event => decide (event.venue = venue)

theorem refused_offer (mail : Mail (Fin n) ShardMessage) (message : ShardMessage) :
    (mail.offer (shardRouter n) message).refused =
      mail.refused ++ (refusedEvent mail message).toList.map ShardMessage.event := by
  rcases mail.offer_cases (shardRouter n) message with
    ⟨heq, lane, hroute, hfull⟩ | ⟨lane, hroute, hroom, heq⟩ | ⟨lanes, hroute, heq⟩
  · rw [heq]
    cases message with
    | event event =>
      simp only [refusedEvent, hroute]
      rw [if_neg (not_lt.mpr hfull)]
      rfl
    | tick barSecond => cases hroute
  · rw [heq]
    cases message with
    | event event =>
      simp only [refusedEvent, hroute]
      rw [if_pos hroom]
      exact (List.append_nil _).symm
    | tick barSecond => cases hroute
  · rw [heq]
    have hnone : refusedEvent mail message = none := by
      unfold refusedEvent
      rw [hroute]
      cases message <;> rfl
    rw [hnone]
    exact (List.append_nil _).symm

/-- A message is tried, a drop is noted, a tick or a note goes its way, or a shard takes a step. -/
theorem step_cases {e : TaskEvent n} (hstep : sys.step e = some sys') :
    (∃ message, sys.dropping = none ∧ sys' = { sys with
        mail := sys.mail.offer (shardRouter n) message
        dropping := refusedEvent sys.mail message }) ∨
      (∃ event, sys.dropping = some event ∧ sys' = { sys with
        health := sys.health.recordDrop event.venue
        dropping := none
        noted := sys.noted ++ [event] }) ∨
      (∃ mail health, sys' = { sys with mail := mail, health := health } ∧
        mail.refused = sys.mail.refused ∧
        ∀ venue, health.dropped venue = sys.health.dropped venue) ∨
      ∃ shard task mail, sys' = { sys with
          mail := mail
          shards := Function.update sys.shards shard task } ∧
        mail.refused = sys.mail.refused ∧
        ((∃ now tokenSides message, (sys.shards shard).unsent = [] ∧
            task = (sys.shards shard).take now tokenSides message) ∨
          ∃ now, (sys.shards shard).next (DispatchSystem.envOf sys.health now fun _ => none) =
            some task) := by
  cases e with
  | dispatch message =>
    simp only [step] at hstep
    split at hstep
    · rename_i hidle
      cases hstep
      refine Or.inl ⟨message, ?_, rfl⟩
      exact Option.isNone_iff_eq_none.mp (Bool.and_eq_true_iff.mp hidle).2
    · cases hstep
  | noteDrop =>
    obtain ⟨event, hdropping, rfl⟩ := Option.map_eq_some_iff.mp hstep
    exact Or.inr (Or.inl ⟨event, hdropping, rfl⟩)
  | push =>
    obtain ⟨mail, hpush, rfl⟩ := Option.map_eq_some_iff.mp hstep
    obtain ⟨message, lane, rest, -, -, rfl⟩ := Mail.push_eq_some hpush
    exact Or.inr (Or.inr (Or.inl ⟨_, _, rfl, rfl, fun _ => rfl⟩))
  | note venue note =>
    cases hstep
    exact Or.inr (Or.inr (Or.inl
      ⟨_, _, rfl, rfl, fun other => HealthState.dropped_note _ _ other _⟩))
  | take shard now tokenSides =>
    simp only [step] at hstep
    split at hstep
    · rename_i hunsent
      obtain ⟨⟨message, mail⟩, htake, rfl⟩ := Option.map_eq_some_iff.mp hstep
      obtain ⟨rest, -, rfl⟩ := Mail.take_eq_some htake
      exact Or.inr (Or.inr (Or.inr ⟨shard, _, _, rfl, rfl,
        Or.inl ⟨now, tokenSides, message, hunsent, rfl⟩⟩))
    · cases hstep
  | next shard now =>
    obtain ⟨task, htask, rfl⟩ := Option.map_eq_some_iff.mp hstep
    exact Or.inr (Or.inr (Or.inr ⟨shard, task, _, rfl, rfl, Or.inr ⟨now, htask⟩⟩))

/-! ## What holds at every step -/

theorem Noted.step (h : sys.Noted) {e : TaskEvent n} (hstep : sys.step e = some sys') :
    sys'.Noted := by
  obtain ⟨message, hnone, rfl⟩ | ⟨event, hdropping, rfl⟩ | ⟨mail, health, rfl, hrefused, hdropped⟩ |
    ⟨shard, task, mail, rfl, hrefused, -⟩ := step_cases hstep
  · refine ⟨?_, h.counted⟩
    have hall := h.refused
    rw [hnone, Option.toList_none, List.append_nil] at hall
    rw [refused_offer, hall, List.map_append]
  · constructor
    · have hall := h.refused
      rw [hdropping] at hall
      rw [hall, Option.toList_none, List.append_nil]
      rfl
    · intro venue
      rw [List.countP_append, List.countP_singleton]
      by_cases hvenue : event.venue = venue
      · subst hvenue
        simp [h.counted event.venue]
      · rw [HealthState.dropped_recordDrop_of_ne _ (Ne.symm hvenue), h.counted venue]
        simp [hvenue]
  · exact ⟨hrefused.trans h.refused, fun venue => (hdropped venue).trans (h.counted venue)⟩
  · exact ⟨hrefused.trans h.refused, h.counted⟩

/-- The drops of a venue only get more. -/
theorem dropped_le {e : TaskEvent n} (hstep : sys.step e = some sys') (venue : Venue) :
    sys.health.dropped venue ≤ sys'.health.dropped venue := by
  obtain ⟨message, -, rfl⟩ | ⟨event, -, rfl⟩ | ⟨mail, health, rfl, -, hdropped⟩ |
    ⟨shard, task, mail, rfl, -, -⟩ := step_cases hstep
  · exact le_refl _
  · by_cases hvenue : event.venue = venue
    · subst hvenue
      rw [HealthState.dropped_recordDrop]
      exact Int.le_add_one (le_refl _)
    · rw [HealthState.dropped_recordDrop_of_ne _ (Ne.symm hvenue)]
  · exact (hdropped venue).ge
  · exact le_refl _

/-- The drops that are marked were noted, and the bars that wait are as they were flushed. -/
structure Tracked (sys : TaskSystem n) : Prop where
  noted : sys.Noted
  unsent : ∀ shard, (sys.shards shard).worker.AreFlushed (sys.shards shard).unsent
  marked : ∀ shard tokenKey venue, (sys.shards shard).worker.IsOf tokenKey venue →
    (sys.shards shard).worker.marked tokenKey ≤ sys.health.dropped venue

/-- What a step does to a shard: nothing that is seen, or it sends one bar. -/
theorem Tracked.shard_step (h : sys.Tracked) {e : TaskEvent n} (hstep : sys.step e = some sys')
    (shard : Fin n) :
    (sys'.shards shard).worker.AreFlushed (sys'.shards shard).unsent ∧
      (ShardWorker.Quiet (sys.shards shard).worker (sys'.shards shard).worker ∨
        sys'.noted = sys.noted ∧ sys'.health = sys.health ∧
        ∃ sent, ShardWorker.Sends sys.health.dropped (sys.shards shard).worker
          (sys'.shards shard).worker sent) := by
  have hidle : ShardWorker.Quiet (sys.shards shard).worker (sys.shards shard).worker :=
    ShardWorker.Quiet.refl _
  obtain ⟨message, -, rfl⟩ | ⟨event, -, rfl⟩ | ⟨mail, health, rfl, -, -⟩ |
    ⟨worked, task, mail, rfl, -, htask⟩ := step_cases hstep
  · exact ⟨h.unsent shard, Or.inl hidle⟩
  · exact ⟨h.unsent shard, Or.inl hidle⟩
  · exact ⟨h.unsent shard, Or.inl hidle⟩
  · dsimp only
    by_cases hshard : shard = worked
    · subst hshard
      rw [Function.update_self]
      obtain ⟨now, tokenSides, message, hunsent, rfl⟩ | ⟨now, hnext⟩ := htask
      · obtain ⟨hflushed, hquiet⟩ := ShardTask.take_spec hunsent now tokenSides message
        exact ⟨hflushed, Or.inl hquiet⟩
      · obtain ⟨hflushed, hdone⟩ := @ShardTask.next_spec _ sys.health.dropped _ _
          (fun _ _ => rfl) (h.unsent shard) hnext
        exact ⟨hflushed, hdone.imp_right fun hsends => ⟨rfl, rfl, hsends⟩⟩
    · rw [Function.update_of_ne hshard]
      exact ⟨h.unsent shard, Or.inl hidle⟩

/-- What is marked for a token was dropped of its venue. -/
theorem Tracked.marked_le (h : sys.Tracked) {shard : Fin n} {tokenKey : String} {venue : Venue}
    {worker : ShardWorker} (hof : worker.IsOf tokenKey venue)
    (hkept : ∀ venue, (sys.shards shard).worker.IsOf tokenKey venue → worker.IsOf tokenKey venue) :
    (sys.shards shard).worker.marked tokenKey ≤ sys.health.dropped venue := by
  cases hstate : (sys.shards shard).worker.state tokenKey with
  | none =>
    rw [ShardWorker.marked, hstate, h.noted.counted venue]
    exact Int.natCast_nonneg _
  | some st =>
    have hthere : (sys.shards shard).worker.IsOf tokenKey st.venue := ⟨st, hstate, rfl⟩
    rw [hof.unique (hkept _ hthere)]
    exact h.marked shard tokenKey _ hthere

theorem Tracked.step (h : sys.Tracked) {e : TaskEvent n} (hstep : sys.step e = some sys') :
    sys'.Tracked := by
  refine ⟨h.noted.step hstep, fun shard => (h.shard_step hstep shard).1, ?_⟩
  intro shard tokenKey venue hof
  refine le_trans ?_ (dropped_le hstep venue)
  obtain ⟨-, hquiet | ⟨-, -, sent, hsends⟩⟩ := h.shard_step hstep shard
  · rw [hquiet.marked]
    exact h.marked_le hof (hquiet.venue tokenKey)
  · have hbefore := h.marked_le hof (hsends.venue tokenKey)
    by_cases hkey : tokenKey = sent.tokenKey
    · subst hkey
      rw [hsends.marked]
      rw [hof.unique (hsends.venue _ _ hsends.isOf)] at hbefore ⊢
      exact max_le hbefore (le_refl _)
    · rw [hsends.others tokenKey hkey]
      exact hbefore

theorem tracked_of_reachable (h : (taskMachine n cfg).Reachable sys) : sys.Tracked := by
  apply (taskMachine n cfg).inv_of_reachable ?_ ?_ h
  · rintro _ rfl
    refine ⟨⟨rfl, fun venue => ?_⟩, fun shard bar hbar => ?_, fun shard tokenKey venue hof => ?_⟩
    · cases venue <;> rfl
    · cases hbar
    · obtain ⟨st, hst, -⟩ := hof
      cases hst
  · intro sys e sys' htracked hstep
    exact htracked.step hstep

/-! ## One token -/

variable {shard : Fin n} {tokenKey : String}

theorem noted_grows {e : TaskEvent n} (hstep : sys.step e = some sys') :
    sys.noted <+: sys'.noted := by
  obtain ⟨message, -, rfl⟩ | ⟨event, -, rfl⟩ | ⟨mail, health, rfl, -, -⟩ |
    ⟨shard, task, mail, rfl, -, -⟩ := step_cases hstep
  · exact List.prefix_refl _
  · exact List.prefix_append _ _
  · exact List.prefix_refl _
  · exact List.prefix_refl _

/-- A step sends a bar of the token and marks all drops of its venue, or leaves both the bars and
the marks of the token as they are. -/
theorem Tracked.token_step (h : sys.Tracked) {e : TaskEvent n} (hstep : sys.step e = some sys')
    (shard : Fin n) (tokenKey : String) :
    (∀ venue, (sys.shards shard).worker.IsOf tokenKey venue →
        (sys'.shards shard).worker.IsOf tokenKey venue) ∧
      (sys'.barsOf shard tokenKey = sys.barsOf shard tokenKey ∧
          (sys'.shards shard).worker.marked tokenKey = (sys.shards shard).worker.marked tokenKey ∨
        ∃ sent, sys'.barsOf shard tokenKey = sys.barsOf shard tokenKey ++ [sent] ∧
          sys'.noted = sys.noted ∧ sys'.health = sys.health ∧
          (sys.shards shard).worker.IsOf tokenKey sent.venue ∧
          (sent.eventDrop = true ↔ sent.inGap = true ∨
            (sys.shards shard).worker.marked tokenKey < sys.health.dropped sent.venue) ∧
          (sys'.shards shard).worker.marked tokenKey = sys.health.dropped sent.venue) := by
  obtain ⟨-, hquiet | ⟨hnoted, hhealth, sent, hsends⟩⟩ := h.shard_step hstep shard
  · refine ⟨hquiet.venue tokenKey, Or.inl ⟨?_, hquiet.marked tokenKey⟩⟩
    unfold barsOf ShardWorker.barsOf
    rw [hquiet.emitted]
  · refine ⟨hsends.venue tokenKey, ?_⟩
    by_cases hkey : sent.tokenKey = tokenKey
    · subst hkey
      refine Or.inr ⟨sent, ?_, hnoted, hhealth, hsends.isOf, hsends.drop, ?_⟩
      · unfold barsOf ShardWorker.barsOf
        rw [hsends.emitted, List.filter_append, List.filter_singleton, decide_eq_true rfl]
        rfl
      · rw [hsends.marked]
        exact max_eq_right (h.marked shard _ _ hsends.isOf)
    · refine Or.inl ⟨?_, hsends.others tokenKey (Ne.symm hkey)⟩
      unfold barsOf ShardWorker.barsOf
      rw [hsends.emitted, List.filter_append, List.filter_singleton, decide_eq_false hkey]
      exact List.append_nil _

/-- While a token sends no bars, its marks stay and the noted drops only get more. -/
theorem quiet_run {es : List (TaskEvent n)} (h : sys.Tracked)
    (hr : (taskMachine n cfg).run sys es = some sys') (shard : Fin n) (tokenKey : String) :
    sys.noted <+: sys'.noted ∧
      (∀ venue, (sys.shards shard).worker.IsOf tokenKey venue →
        (sys'.shards shard).worker.IsOf tokenKey venue) ∧
      ∃ new, sys'.barsOf shard tokenKey = sys.barsOf shard tokenKey ++ new ∧
        (new = [] → (sys'.shards shard).worker.marked tokenKey =
          (sys.shards shard).worker.marked tokenKey) := by
  induction es generalizing sys with
  | nil =>
    cases hr
    exact ⟨List.prefix_refl _, fun venue hof => hof, [], (List.append_nil _).symm, fun _ => rfl⟩
  | cons e es ih =>
    obtain ⟨mid, hmid, hrest⟩ := (taskMachine n cfg).run_cons_eq_some hr
    obtain ⟨hnoted, hvenue, new, hnew, hsame⟩ := ih (h.step hmid) hrest
    obtain ⟨hvenue₁, ⟨hbars, hmarked⟩ | ⟨sent, hbars, -⟩⟩ := h.token_step hmid shard tokenKey
    · refine ⟨(noted_grows hmid).trans hnoted, fun venue hof => hvenue venue (hvenue₁ venue hof),
        new, ?_, fun hnil => (hsame hnil).trans hmarked⟩
      rw [hnew, hbars]
    · refine ⟨(noted_grows hmid).trans hnoted, fun venue hof => hvenue venue (hvenue₁ venue hof),
        sent :: new, ?_, fun hnil => by cases hnil⟩
      rw [hnew, hbars, List.append_assoc]
      rfl

/-- The run is empty, or its last step sent a bar of the token. -/
def JustSent (cfg : ShardConfig) (shard : Fin n) (tokenKey : String) (es : List (TaskEvent n))
    (sys : TaskSystem n) : Prop :=
  es = [] ∨ ∃ taken e prev, es = taken ++ [e] ∧
    (taskMachine n cfg).run (start n cfg) taken = some prev ∧
    prev.barsOf shard tokenKey ≠ sys.barsOf shard tokenKey

/-- Then what is marked for the token are the drops of its venue that were noted so far. -/
theorem JustSent.marked {es : List (TaskEvent n)}
    (hr : (taskMachine n cfg).run (TaskSystem.start n cfg) es = some sys)
    (hsent : JustSent cfg shard tokenKey es sys) :
    (∃ venue, (sys.shards shard).worker.IsOf tokenKey venue ∧
        (sys.shards shard).worker.marked tokenKey = sys.health.dropped venue) ∨
      (sys.shards shard).worker.marked tokenKey = 0 ∧ sys.noted = [] := by
  obtain rfl | ⟨taken, e, prev, rfl, htaken, hne⟩ := hsent
  · cases hr
    exact Or.inr ⟨rfl, rfl⟩
  · left
    have htracked : prev.Tracked := @tracked_of_reachable n cfg prev ⟨_, taken, rfl, htaken⟩
    have hstep : prev.step e = some sys := by
      rw [Lib.Machine.run_append, htaken, Option.bind_some] at hr
      obtain ⟨next, hnext, hend⟩ := (taskMachine n cfg).run_cons_eq_some hr
      rwa [← Option.some.inj hend]
    obtain ⟨hvenue, ⟨hbars, -⟩ | ⟨sent, -, -, hhealth, hof, -, hmarked⟩⟩ :=
      htracked.token_step hstep shard tokenKey
    · exact (hne hbars.symm).elim
    · refine ⟨sent.venue, hvenue _ hof, ?_⟩
      rw [hmarked, hhealth]

/-- A bar is marked if and only if it is in a gap, or a drop of its venue was noted since the bar
before: `es` ends where the token's last bar was sent, `more` is what happened since, and `e` sends
the next bar.  The noted drops are those of all refused events, but for the one at hand. -/
theorem drops_are_marked {es more : List (TaskEvent n)} {e : TaskEvent n}
    {before after : TaskSystem n} {sent : Bars1sToken}
    (hr : (taskMachine n cfg).run (start n cfg) es = some sys)
    (hlast : JustSent cfg shard tokenKey es sys)
    (hmore : (taskMachine n cfg).run sys more = some before)
    (hquiet : before.barsOf shard tokenKey = sys.barsOf shard tokenKey)
    (hstep : before.step e = some after)
    (hsent : after.barsOf shard tokenKey = before.barsOf shard tokenKey ++ [sent]) :
    ∃ fresh, before.noted = sys.noted ++ fresh ∧
      before.mail.refused = (before.noted ++ before.dropping.toList).map ShardMessage.event ∧
      (sent.eventDrop = true ↔
        sent.inGap = true ∨ ∃ event ∈ fresh, event.venue = sent.venue) := by
  have htracked : sys.Tracked := @tracked_of_reachable n cfg sys ⟨_, es, rfl, hr⟩
  have hbefore : before.Tracked := @tracked_of_reachable n cfg before
    ⟨_, es ++ more, rfl, by rw [Lib.Machine.run_append, hr]; exact hmore⟩
  obtain ⟨⟨fresh, hfresh⟩, hvenue, new, hnew, hsame⟩ := quiet_run htracked hmore shard tokenKey
  refine ⟨fresh, hfresh.symm, hbefore.noted.refused, ?_⟩
  have hnil : new = [] := List.self_eq_append_right.mp (hquiet.symm.trans hnew)
  obtain ⟨-, ⟨hbars, -⟩ | ⟨sent', hbars, -, -, hof, hdrop, -⟩⟩ :=
    hbefore.token_step hstep shard tokenKey
  · rw [hbars] at hsent
    simp at hsent
  · obtain rfl : sent' = sent := by
      rw [hbars] at hsent
      simpa using hsent
    -- what is marked are the drops that were noted when the last bar was sent
    have hold : (before.shards shard).worker.marked tokenKey = sys.health.dropped sent'.venue := by
      rw [hsame hnil]
      obtain ⟨venue, hthere, hall⟩ | ⟨hzero, hnone⟩ := JustSent.marked hr hlast
      · rw [hall, hof.unique (hvenue _ hthere)]
      · rw [hzero, htracked.noted.counted, hnone]
        rfl
    rw [hdrop, hold, htracked.noted.counted, hbefore.noted.counted, ← hfresh, List.countP_append,
      Nat.cast_lt, Nat.lt_add_right_iff_pos, List.countP_pos_iff]
    simp only [decide_eq_true_eq]

/-! ### A sample run -/

/-- While its shard has room, the dispatcher passes on one event after the other. -/
theorem run_dispatch {event : Event} {shard : Fin n}
    (hroute : (shardRouter n).route (.event event) = .try_ shard) (hidle : sys.mail.sending = none)
    (hdropping : sys.dropping = none) (k : ℕ)
    (hroom : (sys.mail.waiting shard).length + k ≤ (shardRouter n).cap) :
    ∃ mail, (taskMachine n cfg).run sys (List.replicate k (.dispatch (.event event))) =
        some { sys with mail := mail } ∧
      mail.sending = none ∧ (mail.waiting shard).length = (sys.mail.waiting shard).length + k := by
  induction k generalizing sys with
  | zero => exact ⟨sys.mail, rfl, hidle, rfl⟩
  | succ k ih =>
    have hfits : (sys.mail.waiting shard).length < (shardRouter n).cap := by omega
    have hoffer : sys.mail.offer (shardRouter n) (.event event) =
        { sys.mail.put shard (.event event) with log := sys.mail.log ++ [.event event] } := by
      simp only [Mail.offer, hroute]
      rw [if_pos hfits]
    have hstep : sys.step (.dispatch (.event event)) =
        some { sys with mail := sys.mail.offer (shardRouter n) (.event event) } := by
      simp only [TaskSystem.step, hidle, hdropping, refusedEvent, hroute]
      rw [if_pos hfits]
      rfl
    have hlonger : ((sys.mail.offer (shardRouter n) (.event event)).waiting shard).length =
        (sys.mail.waiting shard).length + 1 := by
      rw [hoffer]
      show ((sys.mail.put shard (.event event)).waiting shard).length = _
      rw [Mail.waiting_put, if_pos rfl, List.length_append, List.length_singleton]
    obtain ⟨mail, hrun, hfree, hlength⟩ := @ih
      { sys with mail := sys.mail.offer (shardRouter n) (.event event) }
      (by rw [hoffer]; exact hidle) hdropping (by rw [hlonger]; omega)
    refine ⟨mail, ?_, hfree, by rw [hlength, hlonger]; omega⟩
    rw [List.replicate_succ, Lib.Machine.run_cons]
    exact (congrArg (Option.bind · _) hstep).trans hrun

/-- An event more is refused, and its drop is noted. -/
theorem run_refused {event : Event} {shard : Fin n}
    (hroute : (shardRouter n).route (.event event) = .try_ shard) (hidle : sys.mail.sending = none)
    (hdropping : sys.dropping = none) (hempty : sys.mail.waiting shard = []) :
    ∃ mail, (taskMachine n cfg).run sys
        (List.replicate (shardRouter n).cap (.dispatch (.event event)) ++
          [.dispatch (.event event), .noteDrop]) =
      some { sys with
        mail := mail
        health := sys.health.recordDrop event.venue
        dropping := none
        noted := sys.noted ++ [event] } := by
  obtain ⟨mail, hrun, hfree, hlength⟩ := @run_dispatch n cfg sys event shard hroute hidle hdropping
    (shardRouter n).cap (by rw [hempty, List.length_nil, Nat.zero_add])
  have hfull : ¬ (mail.waiting shard).length < (shardRouter n).cap := by
    rw [hlength, hempty, List.length_nil, Nat.zero_add]
    exact lt_irrefl _
  have hrefused : TaskSystem.step { sys with mail := mail } (.dispatch (.event event)) =
      some { sys with
        mail := mail.offer (shardRouter n) (.event event)
        dropping := some event } := by
    simp only [TaskSystem.step, hfree, hdropping, refusedEvent, hroute]
    rw [if_neg hfull]
    rfl
  refine ⟨mail.offer (shardRouter n) (.event event), ?_⟩
  rw [Lib.Machine.run_append, hrun, Option.bind_some, Lib.Machine.run_cons]
  exact congrArg (Option.bind · _) hrefused

/-- An event of the sample run. -/
def sampleEvent (tsMs : ℤ) : Event := eventAt .polymarket .health EventPayload.empty tsMs

/-- The second event makes two bars due. -/
def twoBarsDue : List (TaskEvent 1) :=
  [.dispatch (.event (sampleEvent 100200)), .take 0 100200 fun _ => none,
    .dispatch (.event (sampleEvent 103200)), .take 0 103200 fun _ => none]

/-- The queue is filled, one event more is refused, and its drop is noted. -/
def oneRefused : List (TaskEvent 1) :=
  List.replicate (shardRouter 1).cap (.dispatch (.event (sampleEvent 103300))) ++
    [.dispatch (.event (sampleEvent 103300)), .noteDrop]

/-- A run of one shard. -/
def oneShardRun (es : List (TaskEvent 1)) : Option (TaskSystem 1) :=
  (taskMachine 1 exampleConfig).run (start 1 exampleConfig) es

/-- The gaps and venues of the bars of the sample's token. -/
def sampleBars (task : ShardTask) : List (Bool × Venue) :=
  (task.worker.barsOf "token").map fun bar => (bar.inGap, bar.venue)

/-- What follows after a drop was noted. -/
def nextAfterDrop (sys : TaskSystem 1) : Option ShardTask :=
  (sys.shards 0).next
    (DispatchSystem.envOf (sys.health.recordDrop .polymarket) 103350 fun _ => none)

theorem sampleEvent_route (tsMs : ℤ) :
    (shardRouter 1).route (.event (sampleEvent tsMs)) = .try_ 0 := by
  have hlt : pickShard (sampleEvent tsMs).tokenKey 1 < 1 := Nat.mod_lt _ (by decide)
  show shardRoute 1 (.event (sampleEvent tsMs)) = _
  rw [shardRoute, dif_pos hlt]
  exact congrArg Route.try_ (Subsingleton.elim _ _)

/-- One of the two bars is sent, and the other one is left. -/
theorem oneShardRun_first :
    ∃ prev sys, oneShardRun twoBarsDue = some prev ∧
      oneShardRun (twoBarsDue ++ [.next 0 103250]) = some sys ∧
      prev.barsOf 0 "token" = [] ∧ (sys.barsOf 0 "token").length = 1 ∧
      (sys.mail.sending = none ∧ sys.dropping = none ∧ sys.mail.waiting 0 = []) ∧
      (nextAfterDrop sys).map sampleBars =
        some [(false, .polymarket), (false, .polymarket)] := by
  obtain ⟨prev, hprev⟩ : ∃ prev, oneShardRun twoBarsDue = some prev :=
    Option.isSome_iff_exists.mp (by decide +kernel)
  obtain ⟨sys, hsys⟩ : ∃ sys, oneShardRun (twoBarsDue ++ [.next 0 103250]) = some sys :=
    Option.isSome_iff_exists.mp (by decide +kernel)
  have hnone : (oneShardRun twoBarsDue).map (·.barsOf 0 "token") = some [] := by decide +kernel
  have hone : (oneShardRun (twoBarsDue ++ [.next 0 103250])).map
      (fun sys => (sys.barsOf 0 "token").length) = some 1 := by decide +kernel
  have hidle : (oneShardRun (twoBarsDue ++ [.next 0 103250])).map
      (fun sys => (sys.mail.sending, sys.dropping, sys.mail.waiting 0)) =
        some (none, none, []) := by decide +kernel
  have hnext : ((oneShardRun (twoBarsDue ++ [.next 0 103250])).bind nextAfterDrop).map
      sampleBars = some [(false, .polymarket), (false, .polymarket)] := by decide +kernel
  rw [hprev] at hnone
  rw [hsys] at hone hidle hnext
  obtain ⟨hsending, hrest⟩ := Prod.mk.inj (Option.some.inj hidle)
  obtain ⟨hdropping, hwaiting⟩ := Prod.mk.inj hrest
  exact ⟨prev, sys, hprev, hsys, Option.some.inj hnone, Option.some.inj hone,
    ⟨hsending, hdropping, hwaiting⟩, hnext⟩

/-- The drop is noted between two bars of one flush: the second bar is marked, in no gap. -/
theorem drops_are_marked_between_bars :
    ∃ sys before after sent, oneShardRun (twoBarsDue ++ [.next 0 103250]) = some sys ∧
      (taskMachine 1 exampleConfig).run sys oneRefused = some before ∧
      before.step (.next 0 103350) = some after ∧
      after.barsOf 0 "token" = before.barsOf 0 "token" ++ [sent] ∧
      sent.inGap = false ∧ sent.eventDrop = true := by
  obtain ⟨prev, sys, hprev, hsys, hnone, hone, ⟨hsending, hdropping, hwaiting⟩, hnext⟩ :=
    oneShardRun_first
  obtain ⟨task, htask, hmarks⟩ := Option.map_eq_some_iff.mp hnext
  obtain ⟨mail, hmore⟩ := @run_refused 1 exampleConfig sys _ 0 (sampleEvent_route 103300)
    hsending hdropping hwaiting
  rw [← oneRefused] at hmore
  generalize hbefore : ({ sys with
    mail := mail
    health := sys.health.recordDrop (sampleEvent 103300).venue
    dropping := none
    noted := sys.noted ++ [sampleEvent 103300] } : TaskSystem 1) = before at hmore
  obtain ⟨after, hstep, hafter⟩ : ∃ after, before.step (.next 0 103350) = some after ∧
      sampleBars (after.shards 0) = [(false, .polymarket), (false, .polymarket)] := by
    subst hbefore
    refine ⟨_, congrArg (Option.map _) htask, ?_⟩
    dsimp only
    rw [Function.update_self]
    exact hmarks
  have hquiet : before.barsOf 0 "token" = sys.barsOf 0 "token" := by rw [← hbefore]; rfl
  have hnoted : before.noted = sys.noted ++ [sampleEvent 103300] := by rw [← hbefore]
  have hreached : (taskMachine 1 exampleConfig).Reachable before := by
    refine ⟨_, (twoBarsDue ++ [.next 0 103250]) ++ oneRefused, rfl, ?_⟩
    rw [oneShardRun] at hsys
    rw [Lib.Machine.run_append, hsys, Option.bind_some]
    exact hmore
  obtain ⟨sent, hsent⟩ : ∃ sent,
      after.barsOf 0 "token" = before.barsOf 0 "token" ++ [sent] := by
    obtain ⟨-, ⟨hsame, -⟩ | ⟨sent, hsent, -⟩⟩ :=
      (tracked_of_reachable hreached).token_step hstep 0 "token"
    · have htwo : (after.barsOf 0 "token").length = 2 := by
        rw [← List.length_map (fun bar => (bar.inGap, bar.venue))]
        exact congrArg List.length hafter
      rw [hsame, hquiet, hone] at htwo
      cases htwo
    · exact ⟨sent, hsent⟩
  obtain ⟨hgap, hvenue⟩ : sent.inGap = false ∧ sent.venue = .polymarket := by
    have hlast : ((after.barsOf 0 "token").map fun bar => (bar.inGap, bar.venue)).getLast? =
      some (false, .polymarket) := congrArg List.getLast? hafter
    rw [hsent, List.map_append, List.map_singleton, List.getLast?_concat] at hlast
    exact Prod.mk.inj (Option.some.inj hlast)
  have hfirst : prev.barsOf 0 "token" ≠ sys.barsOf 0 "token" := by
    intro hsame
    rw [← hsame, hnone] at hone
    cases hone
  obtain ⟨fresh, hfresh, -, hiff⟩ := drops_are_marked hsys
    (Or.inr ⟨twoBarsDue, .next 0 103250, prev, rfl, hprev, hfirst⟩) hmore hquiet hstep hsent
  obtain rfl := List.append_cancel_left (hfresh.symm.trans hnoted)
  refine ⟨sys, before, after, sent, hsys, hmore, hstep, hsent, hgap, hiff.mpr (Or.inr ?_)⟩
  exact ⟨_, List.mem_singleton_self _, hvenue.symm⟩

end TaskSystem

end AlphaMonitor.Shard
