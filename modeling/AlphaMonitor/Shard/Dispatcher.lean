import AlphaMonitor.Feed.Health
import AlphaMonitor.Lib.Router
import AlphaMonitor.Shard.Tracks
import Mathlib.Data.List.FinRange

/-!
# The dispatcher and its shards

Every token belongs to the shard that its key is hashed to.  The dispatcher tries each
event on the queue of its shard, and drops it when the queue is full; a tick it hands to
all shards in turn, and waits for room.  Each shard is a worker of its own.

## Main definitions

- `pickShard`: the shard of a token
- `shardRouter`: the dispatcher as a router
- `dispatchMachine`: the dispatcher, the shards, and the health module that both read

## Main results

- `DispatchSystem.routed_of_reachable`: each queue carries its messages in order
- `DispatchSystem.shards_drain`: the shards can always be drained, in a bounded number of steps
-/

namespace AlphaMonitor.Shard

open Feed (HealthState HealthNote)
open Lib (Mail Route Router)

/-! ## Sharding -/

/-- `fnv1a_64`. -/
def fnv1a64 (data : List ℕ) : ℕ := data.foldl hashByte 0xcbf29ce484222325

/-- `pick_shard`. -/
def pickShard (tokenKey : String) (shardCount : ℕ) : ℕ :=
  fnv1a64 ((tokenKey.toList.flatMap String.utf8EncodeChar).map UInt8.toNat) % max shardCount 1

/-- `SHARD_QUEUE_CAPACITY`. -/
def shardQueueCapacity : ℕ := 1024

/-- Where the dispatcher sends a message. -/
def shardRoute (n : ℕ) : ShardMessage → Route (Fin n)
  | .event event =>
    -- without shards an event is lost
    if h : pickShard event.tokenKey n < n then .try_ ⟨pickShard event.tokenKey n, h⟩ else .wait []
  | .tick _ => .wait (List.finRange n)

/-- The dispatcher. -/
def shardRouter (n : ℕ) : Router (Fin n) ShardMessage where
  route := shardRoute n
  cap := shardQueueCapacity
  cap_pos := by decide
  nodup := by
    rintro (event | barSecond)
    · simp only [shardRoute]
      split
      · exact List.nodup_singleton _
      · exact List.nodup_nil
    · exact List.nodup_finRange n

/-- An event goes to the shard of its token. -/
@[simp] theorem mem_lanes_event {n : ℕ} {event : Event} {shard : Fin n} :
    shard ∈ ((shardRouter n).route (.event event)).lanes ↔ pickShard event.tokenKey n = shard := by
  simp only [shardRouter, shardRoute]
  split
  · rw [Route.lanes, List.mem_singleton, Fin.ext_iff]
    exact eq_comm
  · rename_i hlost
    simp only [Route.lanes, List.not_mem_nil, false_iff]
    intro heq
    exact hlost (heq ▸ shard.isLt)

/-- A tick goes to all shards. -/
@[simp] theorem mem_lanes_tick {n : ℕ} {barSecond : ℤ} {shard : Fin n} :
    shard ∈ ((shardRouter n).route (.tick barSecond)).lanes :=
  List.mem_finRange shard

/-! ## The system -/

/-- The dispatcher's queues, the workers, and the health module. -/
structure DispatchSystem (n : ℕ) where
  mail : Mail (Fin n) ShardMessage
  workers : Fin n → ShardWorker
  health : HealthState

inductive DispatchEvent (n : ℕ) where
  /-- The dispatcher takes a message out of its channel. -/
  | dispatch (message : ShardMessage)
  /-- It goes on handing out a tick. -/
  | push
  /-- A shard handles the first message of its queue. -/
  | work (shard : Fin n) (now : ℤ) (tokenSides : String → Option TokenSide)
  /-- The WebSocket task of a venue notes something. -/
  | note (venue : Venue) (note : HealthNote)

namespace DispatchSystem

variable {n : ℕ} (sys : DispatchSystem n)

def start (n : ℕ) (cfg : ShardConfig) : DispatchSystem n :=
  ⟨Mail.empty, fun _ => ShardWorker.start cfg, HealthState.new⟩

/-- The queue of the message's shard is full. -/
def isRefused (message : ShardMessage) : Bool :=
  match (shardRouter n).route message with
  | .try_ shard => decide ((shardRouter n).cap ≤ (sys.mail.waiting shard).length)
  | .wait _ => false

/-- `record_drop` for an event that was not sent. -/
def afterRefusal (health : HealthState) : ShardMessage → HealthState
  | .event event => health.recordDrop event.venue
  | .tick _ => health

/-- The surroundings of a worker. -/
def envOf (health : HealthState) (now : ℤ) (tokenSides : String → Option TokenSide) : ShardEnv where
  now := now
  tokenSides := tokenSides
  health venue barSecond := health.seen now venue barSecond

/-- One step of one of the tasks. -/
def step : DispatchEvent n → Option (DispatchSystem n)
  | .dispatch message =>
    if sys.mail.sending.isNone then
      some { sys with
        mail := sys.mail.offer (shardRouter n) message
        health := if sys.isRefused message then afterRefusal sys.health message else sys.health }
    else none
  | .push => (sys.mail.push (shardRouter n)).map fun mail => { sys with mail := mail }
  | .work shard now tokenSides =>
    (sys.mail.take shard).map fun taken =>
      { sys with
        mail := taken.2
        workers := Function.update sys.workers shard
          ((sys.workers shard).handle (envOf sys.health now tokenSides) taken.1) }
  | .note venue note => some { sys with health := sys.health.note venue note }

end DispatchSystem

/-- The dispatcher with `n` shards. -/
def dispatchMachine (n : ℕ) (cfg : ShardConfig) :
    Lib.Machine (DispatchSystem n) (DispatchEvent n) where
  init sys := sys = DispatchSystem.start n cfg
  step sys e := sys.step e

/-! ## What a step does -/

namespace DispatchSystem

variable {n : ℕ} {cfg : ShardConfig} {sys sys' : DispatchSystem n}

theorem step_dispatch {message : ShardMessage} (h : sys.step (.dispatch message) = some sys') :
    sys.mail.sending = none ∧ sys'.mail = sys.mail.offer (shardRouter n) message ∧
      sys'.workers = sys.workers ∧
      sys'.health = if sys.isRefused message then afterRefusal sys.health message else sys.health := by
  unfold step at h
  simp only at h
  split at h
  · rename_i hidle
    cases h
    exact ⟨Option.isNone_iff_eq_none.mp hidle, rfl, rfl, rfl⟩
  · cases h

theorem step_push (h : sys.step .push = some sys') :
    sys.mail.push (shardRouter n) = some sys'.mail ∧ sys'.workers = sys.workers ∧
      sys'.health = sys.health := by
  simp only [step, Option.map_eq_some_iff] at h
  obtain ⟨mail, hpush, rfl⟩ := h
  exact ⟨hpush, rfl, rfl⟩

theorem step_work {shard : Fin n} {now : ℤ} {tokenSides : String → Option TokenSide}
    (h : sys.step (.work shard now tokenSides) = some sys') :
    ∃ message, sys.mail.take shard = some (message, sys'.mail) ∧
      sys'.workers = Function.update sys.workers shard
        ((sys.workers shard).handle (envOf sys.health now tokenSides) message) ∧
      sys'.health = sys.health := by
  simp only [step, Option.map_eq_some_iff] at h
  obtain ⟨⟨message, mail⟩, htake, rfl⟩ := h
  exact ⟨message, htake, rfl, rfl⟩

theorem step_note {venue : Venue} {note : HealthNote} (h : sys.step (.note venue note) = some sys') :
    sys' = { sys with health := sys.health.note venue note } :=
  (Option.some.inj h).symm

/-! ## The queues -/

theorem routed_step (hrouted : sys.mail.Routed (shardRouter n)) {e : DispatchEvent n}
    (h : sys.step e = some sys') : sys'.mail.Routed (shardRouter n) := by
  cases e with
  | dispatch message =>
    obtain ⟨hidle, hmail, -⟩ := step_dispatch h
    rw [hmail]
    exact hrouted.offer hidle message
  | push => exact hrouted.push (step_push h).1
  | work shard now tokenSides =>
    obtain ⟨message, htake, -⟩ := step_work h
    exact hrouted.take htake
  | note venue note =>
    rw [step_note h]
    exact hrouted

theorem routed_of_reachable (h : (dispatchMachine n cfg).Reachable sys) :
    sys.mail.Routed (shardRouter n) := by
  apply (dispatchMachine n cfg).inv_of_reachable ?_ ?_ h
  · rintro _ rfl
    exact Mail.Routed.empty
  · intro sys e sys' hrouted hstep
    exact routed_step hrouted hstep

/-! ## Draining -/

/-- A step that only works off what the dispatcher has taken up. -/
def IsWork : DispatchEvent n → Prop
  | .push => True
  | .work _ _ _ => True
  | _ => False

/-- Each such step does one of the moves that are left. -/
theorem work_step {e : DispatchEvent n} (he : IsWork e) (h : sys.step e = some sys') :
    sys'.mail.work + 1 = sys.mail.work := by
  cases e with
  | dispatch message => cases he
  | push => exact Mail.work_push (step_push h).1
  | work shard now tokenSides =>
    obtain ⟨message, htake, -⟩ := step_work h
    exact Mail.work_take htake
  | note venue note => cases he

/-- While something is left, some task can go on. -/
theorem exists_work (hrouted : sys.mail.Routed (shardRouter n)) (h : ¬sys.mail.Drained)
    (now : ℤ) (tokenSides : String → Option TokenSide) :
    (∃ next, sys.step .push = some next) ∨
      ∃ shard next, sys.step (.work shard now tokenSides) = some next := by
  rcases Mail.exists_move hrouted h with ⟨mail, hpush⟩ | ⟨shard, message, mail, htake⟩
  · refine Or.inl ⟨{ sys with mail := mail }, ?_⟩
    simp only [step, hpush, Option.map_some]
  · refine Or.inr ⟨shard, { sys with
      mail := mail
      workers := Function.update sys.workers shard
        ((sys.workers shard).handle (envOf sys.health now tokenSides) message) }, ?_⟩
    simp only [step, htake, Option.map_some]

/-- A run of such steps is no longer than the moves that are left, and ends with the rest. -/
theorem length_of_work {es : List (DispatchEvent n)} (hes : ∀ e ∈ es, IsWork e)
    (hr : (dispatchMachine n cfg).run sys es = some sys') :
    es.length + sys'.mail.work = sys.mail.work := by
  induction es generalizing sys with
  | nil =>
    cases hr
    exact Nat.zero_add _
  | cons e es ih =>
    obtain ⟨mid, hmid, hrest⟩ := (dispatchMachine n cfg).run_cons_eq_some hr
    have hstep := work_step (hes e List.mem_cons_self) hmid
    have htail := ih (fun e' he' => hes e' (List.mem_cons_of_mem e he')) hrest
    rw [List.length_cons]
    omega

/-- Such a step takes up nothing and refuses nothing. -/
theorem log_of_work {es : List (DispatchEvent n)} (hes : ∀ e ∈ es, IsWork e)
    (hr : (dispatchMachine n cfg).run sys es = some sys') :
    sys'.mail.log = sys.mail.log ∧ sys'.mail.refused = sys.mail.refused := by
  induction es generalizing sys with
  | nil =>
    cases hr
    exact ⟨rfl, rfl⟩
  | cons e es ih =>
    obtain ⟨mid, hmid, hrest⟩ := (dispatchMachine n cfg).run_cons_eq_some hr
    have htail := ih (fun e' he' => hes e' (List.mem_cons_of_mem e he')) hrest
    have hstep : mid.mail.log = sys.mail.log ∧ mid.mail.refused = sys.mail.refused := by
      cases e with
      | dispatch message => cases hes _ List.mem_cons_self
      | push =>
        obtain ⟨message, lane, rest, -, -, hmail⟩ := Mail.push_eq_some (step_push hmid).1
        rw [hmail]
        exact ⟨rfl, rfl⟩
      | work shard now tokenSides =>
        obtain ⟨message, htake, -⟩ := step_work hmid
        obtain ⟨rest, -, hmail⟩ := Mail.take_eq_some htake
        rw [hmail]
        exact ⟨rfl, rfl⟩
      | note venue note => cases hes _ List.mem_cons_self
    exact ⟨htail.1.trans hstep.1, htail.2.trans hstep.2⟩

/-- When nothing more arrives, the tasks are done after a bounded number of steps, whatever the
order of these, and they only stop when each shard has handled all that was sent to it. -/
theorem shards_drain (h : (dispatchMachine n cfg).Reachable sys) {es : List (DispatchEvent n)}
    (hes : ∀ e ∈ es, IsWork e) (hr : (dispatchMachine n cfg).run sys es = some sys')
    (now : ℤ) (tokenSides : String → Option TokenSide) :
    es.length ≤ (shardQueueCapacity + 2) * n ∧ sys'.mail.log = sys.mail.log ∧
      sys'.mail.refused = sys.mail.refused ∧
      ((∃ next, sys'.step .push = some next) ∨
        (∃ shard next, sys'.step (.work shard now tokenSides) = some next) ∨
        ∀ shard, sys'.mail.taken shard = (shardRouter n).streamOf shard sys.mail.log) := by
  have hlog := log_of_work hes hr
  have hlength := length_of_work hes hr
  have hwork := Mail.work_le (routed_of_reachable h)
  rw [Fintype.card_fin] at hwork
  have hrouted : sys'.mail.Routed (shardRouter n) := by
    obtain ⟨start, taken, hstart, hto⟩ := h
    refine routed_of_reachable ⟨start, taken ++ es, hstart, ?_⟩
    rw [Lib.Machine.run_append, hto]
    exact hr
  refine ⟨le_trans (by omega) hwork, hlog.1, hlog.2, ?_⟩
  by_cases hdrained : sys'.mail.Drained
  · refine Or.inr (Or.inr fun shard => ?_)
    rw [← hlog.1]
    exact hdrained.taken hrouted shard
  · exact (exists_work hrouted hdrained now tokenSides).imp_right Or.inl

/-- A tick that the first shard has taken, before the second one has it. -/
def halfTicked : List (DispatchEvent 2) :=
  [.dispatch (.tick 103), .push, .work 0 103500 fun _ => none]

theorem shards_drain_ticked :
    ∃ sys, (dispatchMachine 2 exampleConfig).run (start 2 exampleConfig) halfTicked = some sys ∧
      ∃ sys', (dispatchMachine 2 exampleConfig).run sys
          [.push, .work 1 103600 fun _ => none] = some sys' ∧
        sys'.mail.log = sys.mail.log ∧
          ((∃ next, sys'.step .push = some next) ∨
            (∃ shard next, sys'.step (.work shard 103700 fun _ => none) = some next) ∨
              ∀ shard, sys'.mail.taken shard = (shardRouter 2).streamOf shard sys.mail.log) := by
  have hreach : ∃ sys, (dispatchMachine 2 exampleConfig).run (start 2 exampleConfig) halfTicked =
      some sys := ⟨_, rfl⟩
  obtain ⟨sys, hsys⟩ := hreach
  have hwork : ∃ sys', (dispatchMachine 2 exampleConfig).run sys
      [.push, .work 1 103600 fun _ => none] = some sys' := by
    cases hsys
    exact ⟨_, rfl⟩
  obtain ⟨sys', hsys'⟩ := hwork
  obtain ⟨-, hlog, -, hdone⟩ := shards_drain ⟨_, halfTicked, rfl, hsys⟩
    (by simp [IsWork]) hsys' 103700 fun _ => none
  exact ⟨sys, hsys, sys', hsys', hlog, hdone⟩

end DispatchSystem

end AlphaMonitor.Shard
