import Mathlib.Algebra.Group.Action.Defs
import Mathlib.Algebra.Order.BigOperators.Group.Finset
import Mathlib.Data.Fintype.BigOperators
import Mathlib.Tactic.Ring

/-!
# Routing messages to bounded lanes

A router takes messages one at a time and puts each of them into lanes, which are
bounded queues with one reader each.  A message is either tried on one lane, and
refused when the lane is full, or handed to several lanes in turn, and then the
router waits at a lane that is full.

## Main definitions

- `Mail`: the lanes, what was read from them, and the message being handed out
- `Routed`: each lane carries its messages in order, none lost or doubled
- `work`: the moves that are still to be made

## Main results

- `Routed.offer`, `Routed.push`, `Routed.take`: the router and the readers keep this
- `Routed.length_streamOf_le`: how far a lane can lag behind the router
- `exists_move`, `work_push`, `work_take`, `work_le`: the lanes can always be emptied, in a
  bounded number of moves
-/

namespace AlphaMonitor.Lib

variable {κ μ : Type*}

/-- Where a message goes. -/
inductive Route (κ : Type*) where
  /-- To one lane, if it has room. -/
  | try_ (lane : κ)
  /-- To these lanes in turn, as soon as each has room. -/
  | wait (lanes : List κ)

/-- The lanes that a route names. -/
def Route.lanes : Route κ → List κ
  | .try_ lane => [lane]
  | .wait lanes => lanes

/-- A router: the route of each message and the bound of the lanes. -/
structure Router (κ μ : Type*) where
  route : μ → Route κ
  cap : ℕ
  cap_pos : 0 < cap
  nodup : ∀ m, (route m).lanes.Nodup

/-- The lanes of a router, with a record of what became of the messages. -/
structure Mail (κ μ : Type*) where
  /-- The messages that were not refused, in order. -/
  log : List μ
  /-- The messages that were refused, in order. -/
  refused : List μ
  waiting : κ → List μ
  /-- What was read from each lane, in order. -/
  taken : κ → List μ
  /-- The message that is being handed out, and the lanes that still wait for it. -/
  sending : Option (μ × List κ)

namespace Mail

def empty : Mail κ μ := ⟨[], [], fun _ => [], fun _ => [], none⟩

variable [DecidableEq κ] (R : Router κ μ) (mail : Mail κ μ)

/-- The lane with a message put at its end. -/
def put (lane : κ) (message : μ) : Mail κ μ :=
  { mail with waiting := Function.update mail.waiting lane (mail.waiting lane ++ [message]) }

/-- A new message, which the router takes up when no other one is being handed out. -/
def offer (message : μ) : Mail κ μ :=
  match R.route message with
  | .try_ lane =>
    if (mail.waiting lane).length < R.cap then
      { mail.put lane message with log := mail.log ++ [message] }
    else { mail with refused := mail.refused ++ [message] }
  | .wait [] => { mail with log := mail.log ++ [message] }
  | .wait (lane :: lanes) =>
    { mail with log := mail.log ++ [message], sending := some (message, lane :: lanes) }

/-- The router hands its message to the next lane, or waits for room. -/
def push : Option (Mail κ μ) :=
  match mail.sending with
  | some (message, lane :: rest) =>
    if (mail.waiting lane).length < R.cap then
      some { mail.put lane message with
        sending := if rest = [] then none else some (message, rest) }
    else none
  | _ => none

/-- The reader of a lane takes its first message. -/
def take (lane : κ) : Option (μ × Mail κ μ) :=
  match mail.waiting lane with
  | [] => none
  | message :: rest =>
    some (message,
      { mail with
        waiting := Function.update mail.waiting lane rest
        taken := Function.update mail.taken lane (mail.taken lane ++ [message]) })

end Mail

/-! ## What each lane carries -/

/-- The messages of a log that are for a lane. -/
def Router.streamOf [DecidableEq κ] (R : Router κ μ) (lane : κ) (log : List μ) : List μ :=
  log.filter fun message => decide (lane ∈ (R.route message).lanes)

namespace Mail

variable [DecidableEq κ] {R : Router κ μ} {mail mail' : Mail κ μ}

/-- The message that the lane still waits for. -/
def owed (mail : Mail κ μ) (lane : κ) : List μ :=
  match mail.sending with
  | some (message, lanes) => if lane ∈ lanes then [message] else []
  | none => []

/-- Each lane carries its messages in order, and no more of them than it has room for. -/
structure Routed (R : Router κ μ) (mail : Mail κ μ) : Prop where
  stream : ∀ lane,
    mail.taken lane ++ mail.waiting lane ++ mail.owed lane = R.streamOf lane mail.log
  bounded : ∀ lane, (mail.waiting lane).length ≤ R.cap
  sending : ∀ message lanes, mail.sending = some (message, lanes) → lanes ≠ [] ∧ lanes.Nodup

theorem Routed.empty : Routed R (empty : Mail κ μ) := by
  refine ⟨fun lane => rfl, fun lane => Nat.zero_le _, ?_⟩
  intro message lanes h
  cases h

theorem streamOf_append (lane : κ) (log : List μ) (message : μ) :
    R.streamOf lane (log ++ [message]) =
      R.streamOf lane log ++ if lane ∈ (R.route message).lanes then [message] else [] := by
  rw [Router.streamOf, List.filter_append]
  by_cases h : lane ∈ (R.route message).lanes
  · simp [Router.streamOf, h]
  · simp [Router.streamOf, h]

theorem owed_of_none (h : mail.sending = none) (lane : κ) : mail.owed lane = [] := by
  rw [owed, h]

theorem owed_of_some {message : μ} {lanes : List κ} (h : mail.sending = some (message, lanes))
    (lane : κ) : mail.owed lane = if lane ∈ lanes then [message] else [] := by
  rw [owed, h]

theorem waiting_put (lane other : κ) (message : μ) :
    (mail.put lane message).waiting other =
      mail.waiting other ++ if other = lane then [message] else [] := by
  by_cases h : other = lane
  · subst h
    simp [put]
  · simp [put, h]

/-- A lane with room still keeps the bound with one message more. -/
theorem Routed.length_put_le (h : Routed R mail) {lane : κ}
    (hroom : (mail.waiting lane).length < R.cap) (message : μ) (other : κ) :
    ((mail.put lane message).waiting other).length ≤ R.cap := by
  rw [waiting_put]
  by_cases hother : other = lane
  · subst hother
    simpa using Nat.succ_le_of_lt hroom
  · simpa [hother] using h.bounded other

/-- A message is refused, put into its lane, or taken up. -/
theorem offer_cases (R : Router κ μ) (mail : Mail κ μ) (message : μ) :
    (mail.offer R message = { mail with refused := mail.refused ++ [message] } ∧
      ∃ lane, R.route message = .try_ lane ∧ R.cap ≤ (mail.waiting lane).length) ∨
    (∃ lane, R.route message = .try_ lane ∧ (mail.waiting lane).length < R.cap ∧
      mail.offer R message = { mail.put lane message with log := mail.log ++ [message] }) ∨
    (∃ lanes, R.route message = .wait lanes ∧
      mail.offer R message =
        { mail with
          log := mail.log ++ [message]
          sending := if lanes = [] then mail.sending else some (message, lanes) }) := by
  cases hroute : R.route message with
  | try_ lane =>
    by_cases hroom : (mail.waiting lane).length < R.cap
    · exact Or.inr (Or.inl ⟨lane, rfl, hroom, by simp [offer, hroute, hroom]⟩)
    · exact Or.inl ⟨by simp [offer, hroute, hroom], lane, rfl, not_lt.mp hroom⟩
  | wait lanes =>
    refine Or.inr (Or.inr ⟨lanes, rfl, ?_⟩)
    cases lanes with
    | nil => simp [offer, hroute]
    | cons lane lanes => simp [offer, hroute]

/-- Only a reader takes messages out. -/
theorem taken_offer (R : Router κ μ) (mail : Mail κ μ) (message : μ) :
    (mail.offer R message).taken = mail.taken := by
  rcases mail.offer_cases R message with ⟨heq, -⟩ | ⟨lane, -, -, heq⟩ | ⟨lanes, -, heq⟩
  · rw [heq]
  · rw [heq]
    rfl
  · rw [heq]

theorem Routed.offer (h : Routed R mail) (hidle : mail.sending = none) (message : μ) :
    Routed R (mail.offer R message) := by
  have hstream : ∀ lane, mail.taken lane ++ mail.waiting lane = R.streamOf lane mail.log := by
    intro lane
    have hlane := h.stream lane
    rwa [owed_of_none hidle, List.append_nil] at hlane
  rcases mail.offer_cases R message with ⟨heq, -⟩ | ⟨lane, hroute, hroom, heq⟩ |
    ⟨lanes, hroute, heq⟩
  · rw [heq]
    exact ⟨h.stream, h.bounded, h.sending⟩
  · rw [heq]
    refine ⟨fun other => ?_, fun other => ?_, fun message' lanes hsome => ?_⟩
    · -- only the lane of the message gets longer, and only its stream
      have howed : Mail.owed { mail.put lane message with log := mail.log ++ [message] } other =
          [] := owed_of_none hidle other
      have hlanes : (R.route message).lanes = [lane] := by rw [hroute, Route.lanes]
      rw [howed, List.append_nil, streamOf_append, ← hstream other, hlanes]
      show mail.taken other ++ (mail.put lane message).waiting other = _
      rw [waiting_put, List.append_assoc]
      simp only [List.mem_singleton]
    · exact h.length_put_le hroom message other
    · have hnone : mail.sending = some (message', lanes) := hsome
      rw [hidle] at hnone
      cases hnone
  · rw [heq]
    refine ⟨fun other => ?_, h.bounded, fun message' lanes' hsome => ?_⟩
    · have hlanes : (R.route message).lanes = lanes := by rw [hroute, Route.lanes]
      rw [streamOf_append, ← hstream other, hlanes]
      by_cases hnil : lanes = []
      · simp [Mail.owed, hnil, hidle]
      · simp [Mail.owed, hnil]
    · by_cases hnil : lanes = []
      · simp [hnil, hidle] at hsome
      · simp only [hnil, if_false, Option.some.injEq, Prod.mk.injEq] at hsome
        obtain ⟨-, rfl⟩ := hsome
        have hnodup := R.nodup message
        rw [hroute] at hnodup
        exact ⟨hnil, hnodup⟩

/-- What a push does. -/
theorem push_eq_some (h : mail.push R = some mail') :
    ∃ message lane rest, mail.sending = some (message, lane :: rest) ∧
      (mail.waiting lane).length < R.cap ∧
      mail' = { mail.put lane message with
        sending := if rest = [] then none else some (message, rest) } := by
  unfold push at h
  split at h
  · rename_i message lane rest hsending
    split at h
    · rename_i hroom
      exact ⟨message, lane, rest, hsending, hroom, (Option.some.inj h).symm⟩
    · cases h
  · cases h

theorem taken_push (h : mail.push R = some mail') : mail'.taken = mail.taken := by
  obtain ⟨message, lane, rest, -, -, rfl⟩ := push_eq_some h
  rfl

theorem Routed.push (h : Routed R mail) (hpush : mail.push R = some mail') : Routed R mail' := by
  obtain ⟨message, lane, rest, hsending, hroom, rfl⟩ := push_eq_some hpush
  obtain ⟨hnotin, hnodup⟩ := List.nodup_cons.mp (h.sending _ _ hsending).2
  refine ⟨fun other => ?_, fun other => ?_, fun message' lanes hsome => ?_⟩
  · have hother := h.stream other
    rw [owed_of_some hsending] at hother
    show mail.taken other ++ (mail.put lane message).waiting other ++ _ = R.streamOf other mail.log
    rw [← hother, waiting_put]
    -- what the lane was owed is now in the lane
    have howed : Mail.owed { mail.put lane message with
        sending := if rest = [] then none else some (message, rest) } other =
          if other ∈ rest then [message] else [] := by
      by_cases hnil : rest = []
      · simp [Mail.owed, hnil]
      · simp [Mail.owed, hnil]
    rw [howed]
    by_cases hlane : other = lane
    · subst hlane
      simp [hnotin]
    · simp [hlane]
  · exact h.length_put_le hroom message other
  · by_cases hnil : rest = []
    · simp [hnil] at hsome
    · simp only [hnil, if_false, Option.some.injEq, Prod.mk.injEq] at hsome
      obtain ⟨-, rfl⟩ := hsome
      exact ⟨hnil, hnodup⟩

/-- What taking a message does. -/
theorem take_eq_some {lane : κ} {message : μ} (h : mail.take lane = some (message, mail')) :
    ∃ rest, mail.waiting lane = message :: rest ∧
      mail' = { mail with
        waiting := Function.update mail.waiting lane rest
        taken := Function.update mail.taken lane (mail.taken lane ++ [message]) } := by
  unfold take at h
  split at h
  · cases h
  · rename_i rest hwaiting
    simp only [Option.some.injEq, Prod.mk.injEq] at h
    obtain ⟨rfl, rfl⟩ := h
    exact ⟨rest, hwaiting, rfl⟩

theorem Routed.take (h : Routed R mail) {lane : κ} {message : μ}
    (htake : mail.take lane = some (message, mail')) : Routed R mail' := by
  obtain ⟨rest, hwaiting, rfl⟩ := take_eq_some htake
  refine ⟨fun other => ?_, fun other => ?_, h.sending⟩
  · have hother := h.stream other
    show Function.update mail.taken lane _ other ++ Function.update mail.waiting lane rest other ++
      mail.owed other = R.streamOf other mail.log
    rw [← hother]
    by_cases hlane : other = lane
    · subst hlane
      simp [hwaiting]
    · simp [hlane]
  · have hbound := h.bounded other
    show (Function.update mail.waiting lane rest other).length ≤ R.cap
    by_cases hlane : other = lane
    · subst hlane
      rw [hwaiting, List.length_cons] at hbound
      simp only [Function.update_self]
      omega
    · simpa [hlane] using hbound

/-! ## Emptying the lanes -/

section Work

variable [Fintype κ]

/-- The moves that are still to be made with the messages at hand. -/
def work (mail : Mail κ μ) : ℕ :=
  ∑ lane, (mail.waiting lane).length + 2 * (mail.sending.map fun m => m.2.length).getD 0

/-- The router has nothing to hand out, and the lanes are empty. -/
def Drained (mail : Mail κ μ) : Prop := mail.sending = none ∧ ∀ lane, mail.waiting lane = []

theorem sum_length_update (lane : κ) (messages : List μ) :
    ∑ other, (Function.update mail.waiting lane messages other).length + (mail.waiting lane).length =
      ∑ other, (mail.waiting other).length + messages.length := by
  have hsplit : ∀ waiting : κ → List μ, ∑ other, (waiting other).length =
      (waiting lane).length + ∑ other ∈ Finset.univ.erase lane, (waiting other).length := by
    intro waiting
    exact (Finset.add_sum_erase Finset.univ _ (Finset.mem_univ lane)).symm
  have hrest : ∑ other ∈ Finset.univ.erase lane,
      (Function.update mail.waiting lane messages other).length =
        ∑ other ∈ Finset.univ.erase lane, (mail.waiting other).length := by
    apply Finset.sum_congr rfl
    intro other hother
    rw [Function.update_of_ne (Finset.ne_of_mem_erase hother)]
  rw [hsplit (Function.update _ _ _), hsplit mail.waiting, hrest, Function.update_self]
  omega

/-- A push does one of the moves that are left. -/
theorem work_push (h : mail.push R = some mail') : mail'.work + 1 = mail.work := by
  obtain ⟨message, lane, rest, hsending, -, rfl⟩ := push_eq_some h
  have hsum := @sum_length_update _ _ _ mail _ lane (mail.waiting lane ++ [message])
  rw [List.length_append, List.length_singleton] at hsum
  have hrest : ((if rest = [] then none else some (message, rest)).map
      fun m : μ × List κ => m.2.length).getD 0 = rest.length := by
    by_cases hnil : rest = []
    · simp [hnil]
    · simp [hnil]
  unfold work put
  simp only [hsending, hrest, Option.map_some, Option.getD_some, List.length_cons]
  omega

/-- So does taking a message. -/
theorem work_take {lane : κ} {message : μ} (h : mail.take lane = some (message, mail')) :
    mail'.work + 1 = mail.work := by
  obtain ⟨rest, hwaiting, rfl⟩ := take_eq_some h
  have hsum := @sum_length_update _ _ _ mail _ lane rest
  rw [hwaiting, List.length_cons] at hsum
  unfold work
  simp only
  omega

/-- No more moves are left than the lanes have room for, twice for what is handed out. -/
theorem work_le (hrouted : Routed R mail) : mail.work ≤ (R.cap + 2) * Fintype.card κ := by
  have hwaiting : ∑ lane, (mail.waiting lane).length ≤ Fintype.card κ * R.cap := by
    have hsum := Finset.sum_le_card_nsmul Finset.univ (fun lane => (mail.waiting lane).length) R.cap
      fun lane _ => hrouted.bounded lane
    rwa [Finset.card_univ, smul_eq_mul] at hsum
  have hlanes : (mail.sending.map fun m => m.2.length).getD 0 ≤ Fintype.card κ := by
    cases hs : mail.sending with
    | none => exact Nat.zero_le _
    | some m => exact (hrouted.sending m.1 m.2 hs).2.length_le_card
  calc mail.work ≤ Fintype.card κ * R.cap + 2 * Fintype.card κ :=
        Nat.add_le_add hwaiting (Nat.mul_le_mul_left 2 hlanes)
    _ = (R.cap + 2) * Fintype.card κ := by ring

/-- While anything is left to do, a push or a reader can do it. -/
theorem exists_move (hrouted : Routed R mail) (h : ¬mail.Drained) :
    (∃ mail', mail.push R = some mail') ∨
      ∃ lane message mail', mail.take lane = some (message, mail') := by
  by_cases hempty : ∀ lane, mail.waiting lane = []
  · left
    cases hs : mail.sending with
    | none => exact (h ⟨hs, hempty⟩).elim
    | some m =>
      obtain ⟨message, lanes⟩ := m
      cases lanes with
      | nil => exact ((hrouted.sending message [] hs).1 rfl).elim
      | cons lane rest =>
        -- the next lane is empty, so it has room
        have hroom : (mail.waiting lane).length < R.cap := by
          rw [hempty lane]
          exact R.cap_pos
        simp only [push, hs, hroom, if_true]
        exact ⟨_, rfl⟩
  · right
    obtain ⟨lane, hlane⟩ := not_forall.mp hempty
    obtain ⟨message, rest, hwaiting⟩ := List.exists_cons_of_ne_nil hlane
    refine ⟨lane, message, ?_⟩
    simp only [take, hwaiting]
    exact ⟨_, rfl⟩

end Work

/-- What was read from a lane is what it was sent first. -/
theorem taken_isPrefix (h : Routed R mail) (lane : κ) :
    mail.taken lane <+: R.streamOf lane mail.log := by
  rw [← h.stream lane, List.append_assoc]
  exact List.prefix_append _ _

theorem length_owed_le (mail : Mail κ μ) (lane : κ) : (mail.owed lane).length ≤ 1 := by
  unfold owed
  split
  · split
    · exact le_rfl
    · exact Nat.zero_le _
  · exact Nat.zero_le _

/-- What was sent to a lane was read, up to what it has room for and the message in hand. -/
theorem Routed.length_streamOf_le (h : Routed R mail) {log : List μ} (hlog : log <+: mail.log)
    (lane : κ) : (R.streamOf lane log).length ≤ (mail.taken lane).length + R.cap + 1 := by
  have hle : (R.streamOf lane log).length ≤ (R.streamOf lane mail.log).length :=
    (hlog.filter _).length_le
  have howed := length_owed_le mail lane
  have hbound := h.bounded lane
  rw [← h.stream lane, List.length_append, List.length_append] at hle
  omega

/-- In the end all of it was read. -/
theorem Drained.taken (h : Routed R mail) (hdrained : mail.Drained) (lane : κ) :
    mail.taken lane = R.streamOf lane mail.log := by
  rw [← h.stream lane, hdrained.2 lane, owed_of_none hdrained.1, List.append_nil, List.append_nil]

end Mail

end AlphaMonitor.Lib
