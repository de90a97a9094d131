import AlphaMonitor.Lib.Run
import AlphaMonitor.Lib.TimeIndex
import AlphaMonitor.Pair.Responses

/-!
# Pending responses

The entries of a shock wait in a map by target second.  Every tick hands the entries that are
due to the pending worker, until its budget is used up or the worker's channel is full; what
is left is put back.

How the channel answers and how many clock readings are in time is an input of each tick.

## Main definitions

- `PendingState.handleShock`, `PendingState.flushPending`: in and out of the map
- `pendingMachine`: shocks, token bars and ticks in any order

## Main results

- `flushTargets_spec`: what one call hands on
- `pending_responses_conserved`: every entry is handed on once, and not too early
-/

namespace AlphaMonitor.Pair

open AlphaMonitor.Lib

def pendingProcessMax : ℕ := 500

/-- The part of `PairAggState` and of the histories that the responses use. -/
structure PendingState where
  opiTokenMap : PairKey → Option String
  pmTokenMap : PairKey → Option String
  opiBarHistory : String → Option History
  pmBarHistory : String → Option History
  currentTick : ℤ
  /-- The entries of each target second, by increasing second. -/
  pendingByTarget : List (ℤ × List PendingResponse)
  pendingCount : ℕ

/-- Nothing has arrived; the token maps may be known already. -/
def PendingState.start (opiTokenMap pmTokenMap : PairKey → Option String) : PendingState where
  opiTokenMap := opiTokenMap
  pmTokenMap := pmTokenMap
  opiBarHistory := fun _ => none
  pmBarHistory := fun _ => none
  currentTick := 0
  pendingByTarget := []
  pendingCount := 0

/-! ## Flushing -/

/-- The locals of `flush_pending`: processed entries, clock readings that are still in time,
attempts to send, the running count and what has been sent. -/
structure PendingFlush where
  (processed clock attempts pendingCount : ℕ)
  sent : List PendingResponse

/-- The inner loop, over the entries of one target: what remains of them.  `accepts` tells
whether the channel takes the entry of an attempt. -/
def flushItems (captureEnabled : Bool) (accepts : ℕ → Bool) :
    List PendingResponse → PendingFlush → List PendingResponse × PendingFlush
  | [], f => ([], f)
  | pending :: rest, f =>
    -- number and time are looked at before every entry
    if f.processed ≥ pendingProcessMax ∨ f.clock = 0 then (pending :: rest, f)
    else
      let f := { f with clock := f.clock - 1 }
      -- with the capture off an entry counts as processed and goes nowhere
      if captureEnabled = false then
        flushItems captureEnabled accepts rest
          { f with processed := f.processed + 1, pendingCount := f.pendingCount - 1 }
      else if accepts f.attempts then
        flushItems captureEnabled accepts rest
          { f with
            processed := f.processed + 1
            attempts := f.attempts + 1
            pendingCount := f.pendingCount - 1
            sent := f.sent ++ [pending] }
      -- the channel is full: the entry goes back, and the flush ends
      else (pending :: rest, { f with attempts := f.attempts + 1 })

/-- The outer loop, over the targets up to `now`. -/
def flushTargets (captureEnabled : Bool) (accepts : ℕ → Bool) (now : ℤ) :
    List (ℤ × List PendingResponse) → PendingFlush →
      List (ℤ × List PendingResponse) × PendingFlush
  | [], f => ([], f)
  | (target, items) :: rest, f =>
    if target ≤ now then
      -- only where the target is exhausted does the loop go on to the next one
      match flushItems captureEnabled accepts items f with
      | ([], f) => flushTargets captureEnabled accepts now rest f
      | (pending :: remaining, f) => ((target, pending :: remaining) :: rest, f)
    -- the map is in order, so nothing that follows is due
    else ((target, items) :: rest, f)

namespace PendingState

variable (st : PendingState)

/-- `flush_pending`: the new state and what has been sent. -/
def flushPending (captureEnabled : Bool) (clock : ℕ) (accepts : ℕ → Bool) :
    PendingState × List PendingResponse :=
  let (index, f) := flushTargets captureEnabled accepts st.currentTick st.pendingByTarget
    ⟨0, clock, 0, st.pendingCount, []⟩
  ({ st with pendingByTarget := index, pendingCount := f.pendingCount }, f.sent)

/-- `store_opi_bar` or `store_pm_bar`, and the token maps. -/
def storeTokenBar (bar : HistoryBar) : PendingState :=
  let pairKey : PairKey := (bar.pairId, bar.tokenSide)
  match bar.venue with
  | .opinion =>
    { st with
      opiBarHistory := Function.update st.opiBarHistory bar.tokenKey
        (some (storeBar ((st.opiBarHistory bar.tokenKey).getD []) bar))
      opiTokenMap := Function.update st.opiTokenMap pairKey (some bar.tokenKey) }
  | .polymarket =>
    { st with
      pmBarHistory := Function.update st.pmBarHistory bar.tokenKey
        (some (storeBar ((st.pmBarHistory bar.tokenKey).getD []) bar))
      pmTokenMap := Function.update st.pmTokenMap pairKey (some bar.tokenKey) }

/-- The entries that a shock registers in this state. -/
def shockEntries (gapAllow : ℕ) (shock : ShockInput) (env : ShockContext) :
    List PendingResponse :=
  -- the histories are those of now, not of the shock's own second
  let pairKey : PairKey := (shock.pairId, shock.tokenSide)
  pendingResponses gapAllow (st.opiTokenMap pairKey) (st.pmTokenMap pairKey) st.opiBarHistory
    st.pmBarHistory shock env

/-- One entry is pushed under its target. -/
def pushPending (pending : PendingResponse) : PendingState :=
  { st with
    pendingByTarget := pushAt pending.target pending st.pendingByTarget
    pendingCount := st.pendingCount + 1 }

/-- `handle_shock`. -/
def handleShock (captureEnabled : Bool) (gapAllow : ℕ) (shock : ShockInput) (env : ShockContext) :
    PendingState :=
  if captureEnabled then (st.shockEntries gapAllow shock env).foldl pushPending st else st

end PendingState

/-! ## What one flush hands on -/

/-- The first entries are handed on, the others remain; the counter goes down with them. -/
theorem flushItems_spec (captureEnabled : Bool) (accepts : ℕ → Bool)
    (items : List PendingResponse) (f : PendingFlush) :
    ∃ done, items = done ++ (flushItems captureEnabled accepts items f).1 ∧
      (flushItems captureEnabled accepts items f).2.sent =
        f.sent ++ (if captureEnabled then done else []) ∧
      (flushItems captureEnabled accepts items f).2.pendingCount =
        f.pendingCount - done.length := by
  -- where the loop stops, nothing more is handed on
  have hstop : ∀ (items : List PendingResponse) (f : PendingFlush),
      ∃ done, items = done ++ items ∧ f.sent = f.sent ++ (if captureEnabled then done else []) ∧
        f.pendingCount = f.pendingCount - done.length :=
    fun items f => ⟨[], rfl, by simp, rfl⟩
  induction items generalizing f with
  | nil => exact hstop [] f
  | cons pending rest ih =>
    unfold flushItems
    split
    · exact hstop _ _
    · simp only
      split
      · rename_i hoff
        obtain ⟨done, hsplit, hsent, hcount⟩ := ih { f with
          clock := f.clock - 1, processed := f.processed + 1, pendingCount := f.pendingCount - 1 }
        refine ⟨pending :: done, congrArg (pending :: ·) hsplit, ?_, ?_⟩
        · rw [hsent, hoff]
          rfl
        · rw [hcount, List.length_cons]
          show f.pendingCount - 1 - done.length = _
          omega
      · rename_i hon
        have hcapture : captureEnabled = true := by simpa using hon
        by_cases haccepts : accepts f.attempts = true
        · rw [if_pos haccepts]
          obtain ⟨done, hsplit, hsent, hcount⟩ := ih { f with
            clock := f.clock - 1, processed := f.processed + 1, attempts := f.attempts + 1,
            pendingCount := f.pendingCount - 1, sent := f.sent ++ [pending] }
          refine ⟨pending :: done, congrArg (pending :: ·) hsplit, ?_, ?_⟩
          · rw [hsent, hcapture]
            exact List.append_assoc _ _ _
          · rw [hcount, List.length_cons]
            show f.pendingCount - 1 - done.length = _
            omega
        · rw [if_neg haccepts]
          exact hstop _ { f with clock := f.clock - 1, attempts := f.attempts + 1 }

/-- With room and time for one entry, the first one is handed on. -/
theorem flushItems_progress {captureEnabled : Bool} {accepts : ℕ → Bool}
    {pending : PendingResponse} {rest : List PendingResponse} {f : PendingFlush}
    (hprocessed : f.processed < pendingProcessMax) (hclock : 0 < f.clock)
    (haccepts : accepts f.attempts = true) :
    (flushItems captureEnabled accepts (pending :: rest) f).1.length ≤ rest.length := by
  unfold flushItems
  -- neither the budget nor the time is used up
  rw [if_neg (by omega)]
  simp only
  have hle : ∀ f', (flushItems captureEnabled accepts rest f').1.length ≤ rest.length := by
    intro f'
    obtain ⟨done, hsplit, -⟩ := flushItems_spec captureEnabled accepts rest f'
    have hlength := congrArg List.length hsplit
    rw [List.length_append] at hlength
    omega
  split
  · exact hle _
  · exact hle _

/-- The entries of the first targets are handed on, all of them due; the map stays in order. -/
theorem flushTargets_spec (captureEnabled : Bool) (accepts : ℕ → Bool) (now : ℤ)
    (index : List (ℤ × List PendingResponse)) (f : PendingFlush)
    (hindex : InTimeOrder PendingResponse.target index) :
    ∃ done, itemsOf index =
        done ++ itemsOf (flushTargets captureEnabled accepts now index f).1 ∧
      (∀ pending ∈ done, pending.target ≤ now) ∧
      (flushTargets captureEnabled accepts now index f).2.sent =
        f.sent ++ (if captureEnabled then done else []) ∧
      (flushTargets captureEnabled accepts now index f).2.pendingCount =
        f.pendingCount - done.length ∧
      InTimeOrder PendingResponse.target (flushTargets captureEnabled accepts now index f).1 := by
  induction index generalizing f with
  -- an empty map
  | nil => exact ⟨[], rfl, List.forall_mem_nil _, by simp [flushTargets], rfl, hindex⟩
  | cons entry rest ih =>
    obtain ⟨target, items⟩ := entry
    unfold flushTargets
    split
    · rename_i hdue
      obtain ⟨done, hsplit, hsent, hcount⟩ := flushItems_spec captureEnabled accepts items f
      generalize flushItems captureEnabled accepts items f = result at hsplit hsent hcount
      obtain ⟨remaining, f'⟩ := result
      simp only at hsplit hsent hcount
      -- entries are filed under their own target, which is due
      have hdone : ∀ pending ∈ done, pending.target ≤ now := by
        intro pending hpending
        have hmem : pending ∈ items := by
          rw [hsplit]
          exact List.mem_append_left _ hpending
        rw [hindex.filed (target, items) List.mem_cons_self pending hmem]
        exact hdue
      cases remaining with
      | nil =>
        obtain ⟨done', hsplit', hdone', hsent', hcount', hindex'⟩ := ih f' hindex.of_cons
        refine ⟨done ++ done', ?_, ?_, ?_, ?_, hindex'⟩
        · show items ++ itemsOf rest = _
          rw [hsplit, hsplit', List.append_nil, List.append_assoc]
        · intro pending hpending
          rcases List.mem_append.mp hpending with hpending | hpending
          · exact hdone pending hpending
          · exact hdone' pending hpending
        · show (flushTargets captureEnabled accepts now rest f').2.sent = _
          rw [hsent', hsent, List.append_assoc]
          cases captureEnabled with
          | false => rfl
          | true => rfl
        · show (flushTargets captureEnabled accepts now rest f').2.pendingCount = _
          rw [hcount', hcount, List.length_append]
          omega
      | cons pending remaining =>
        refine ⟨done, ?_, hdone, hsent, hcount, ?_⟩
        · show items ++ itemsOf rest = _
          rw [hsplit, List.append_assoc]
          rfl
        · -- what is put back under the target is a tail of what was there
          apply hindex.keep
          intro x hx
          rw [hsplit]
          exact List.mem_append_right _ hx
    · exact ⟨[], rfl, List.forall_mem_nil _, by simp, rfl, hindex⟩

/-- Where everything is due, a call with room and time for one entry hands on at least one. -/
theorem flushTargets_progress {captureEnabled : Bool} {accepts : ℕ → Bool} {now : ℤ}
    {index : List (ℤ × List PendingResponse)} {f : PendingFlush}
    (hindex : InTimeOrder PendingResponse.target index) (hdue : ∀ entry ∈ index, entry.1 ≤ now)
    (hne : itemsOf index ≠ []) (hprocessed : f.processed < pendingProcessMax)
    (hclock : 0 < f.clock) (haccepts : accepts f.attempts = true) :
    (itemsOf (flushTargets captureEnabled accepts now index f).1).length <
      (itemsOf index).length := by
  induction index with
  | nil => exact absurd rfl hne
  | cons entry rest ih =>
    obtain ⟨target, items⟩ := entry
    unfold flushTargets
    rw [if_pos (hdue (target, items) List.mem_cons_self)]
    cases items with
    | nil =>
      show (itemsOf (flushTargets captureEnabled accepts now rest f).1).length < _
      exact ih hindex.of_cons (fun e he => hdue e (List.mem_cons_of_mem _ he)) hne
    | cons pending items =>
      have hfirst := @flushItems_progress captureEnabled accepts pending items f hprocessed hclock
        haccepts
      generalize flushItems captureEnabled accepts (pending :: items) f = result at hfirst
      obtain ⟨remaining, f'⟩ := result
      show _ < ((pending :: items) ++ itemsOf rest).length
      rw [List.length_append, List.length_cons]
      cases remaining with
      | nil =>
        -- the target is exhausted: what the later targets leave can only be less
        obtain ⟨done, hsplit, -⟩ :=
          flushTargets_spec captureEnabled accepts now rest f' hindex.of_cons
        have hlength := congrArg List.length hsplit
        rw [List.length_append] at hlength
        simp only
        omega
      | cons next remaining =>
        -- the target is not exhausted, but its first entry is gone
        show ((next :: remaining) ++ itemsOf rest).length < _
        rw [List.length_append]
        simp only at hfirst
        omega

/-- No target comes into the map by a flush. -/
theorem fst_of_mem_flushTargets {captureEnabled : Bool} {accepts : ℕ → Bool} {now : ℤ}
    {index : List (ℤ × List PendingResponse)} {f : PendingFlush} :
    ∀ entry ∈ (flushTargets captureEnabled accepts now index f).1, ∃ e ∈ index, entry.1 = e.1 := by
  induction index generalizing f with
  | nil => exact List.forall_mem_nil _
  | cons first rest ih =>
    obtain ⟨target, items⟩ := first
    intro entry hentry
    unfold flushTargets at hentry
    split at hentry
    · generalize flushItems captureEnabled accepts items f = result at hentry
      obtain ⟨remaining, f'⟩ := result
      cases remaining with
      | nil =>
        obtain ⟨e, he, heq⟩ := ih entry hentry
        exact ⟨e, List.mem_cons_of_mem _ he, heq⟩
      | cons pending remaining =>
        rcases List.mem_cons.mp hentry with rfl | hentry
        · exact ⟨(target, items), List.mem_cons_self, rfl⟩
        · exact ⟨entry, List.mem_cons_of_mem _ hentry, rfl⟩
    · exact ⟨entry, hentry, rfl⟩

/-- Pushing entries one by one. -/
theorem foldl_pushPending (entries : List PendingResponse) (st : PendingState)
    (hindex : InTimeOrder PendingResponse.target st.pendingByTarget) :
    InTimeOrder PendingResponse.target (entries.foldl PendingState.pushPending st).pendingByTarget ∧
      (itemsOf (entries.foldl PendingState.pushPending st).pendingByTarget).Perm
        (itemsOf st.pendingByTarget ++ entries) ∧
      (entries.foldl PendingState.pushPending st).pendingCount =
        st.pendingCount + entries.length := by
  induction entries generalizing st with
  | nil => exact ⟨hindex, by rw [List.append_nil]; exact List.Perm.refl _, rfl⟩
  | cons entry entries ih =>
    obtain ⟨horder, hitems, hcount⟩ := ih (st.pushPending entry) (hindex.pushAt entry)
    refine ⟨horder, ?_, ?_⟩
    · have hpush : (itemsOf (st.pushPending entry).pendingByTarget).Perm
          (entry :: itemsOf st.pendingByTarget) := itemsOf_pushAt _ _ _
      exact hitems.trans ((hpush.append_right entries).trans List.perm_middle.symm)
    · rw [List.foldl_cons, hcount, List.length_cons]
      show st.pendingCount + 1 + entries.length = _
      omega

/-! ## Shocks, bars and ticks in any order -/

/-- The pending responses, with what has been handed to the worker and what was registered. -/
structure PendingSystem where
  state : PendingState
  sent : List PendingResponse
  registered : List PendingResponse

/-- One message to the aggregator. -/
inductive PendingEvent where
  | tokenBar (bar : HistoryBar)
  | shock (shock : ShockInput) (env : ShockContext)
  | tick (barSecond : ℤ) (clock : ℕ) (accepts : ℕ → Bool)

namespace PendingSystem

def start (opiTokenMap pmTokenMap : PairKey → Option String) : PendingSystem :=
  ⟨PendingState.start opiTokenMap pmTokenMap, [], []⟩

def step (captureEnabled : Bool) (gapAllow : ℕ) (s : PendingSystem) :
    PendingEvent → Option PendingSystem
  | .tokenBar bar => some { s with state := s.state.storeTokenBar bar }
  | .shock shock env =>
    some { s with
      state := s.state.handleShock captureEnabled gapAllow shock env
      registered :=
        if captureEnabled then s.registered ++ s.state.shockEntries gapAllow shock env
        else s.registered }
  | .tick barSecond clock accepts =>
    let (state, sent) :=
      PendingState.flushPending { s.state with currentTick := barSecond } captureEnabled clock
        accepts
    some { s with state := state, sent := s.sent ++ sent }

/-- The entries that wait. -/
def pending (s : PendingSystem) : List PendingResponse := itemsOf s.state.pendingByTarget

end PendingSystem

/-- The machine of the pending responses; the token maps may be known at the start. -/
def pendingMachine (captureEnabled : Bool) (gapAllow : ℕ) : Machine PendingSystem PendingEvent where
  init s := ∃ opiTokenMap pmTokenMap, s = PendingSystem.start opiTokenMap pmTokenMap
  step := PendingSystem.step captureEnabled gapAllow

/-- The shocks of a run that are registered. -/
def registeredShocks (captureEnabled : Bool) (es : List PendingEvent) : List ShockInput :=
  es.filterMap fun
    | .shock shock _ => if captureEnabled then some shock else none
    | _ => none

/-- The seconds of the ticks of a run. -/
def tickSeconds (es : List PendingEvent) : List ℤ :=
  es.filterMap fun
    | .tick barSecond _ _ => some barSecond
    | _ => none

/-- What identifies a response: the shock, its second and the horizon. -/
def PendingResponse.ident (pending : PendingResponse) : ℤ × ℤ × ℤ :=
  (pending.shockId, pending.triggerBarSecond, pending.horizonS)

/-- The five responses of a shock. -/
def ShockInput.responses (shock : ShockInput) : List (ℤ × ℤ × ℤ) :=
  horizons.map fun horizon => (shock.shockId, shock.triggerBarSecond, horizon)

theorem map_ident_shockEntries (st : PendingState) (gapAllow : ℕ) (shock : ShockInput)
    (env : ShockContext) :
    (st.shockEntries gapAllow shock env).map PendingResponse.ident = shock.responses := rfl

/-- Nothing is lost or added between the map and the worker. -/
structure PendingInv (captureEnabled : Bool) (hist : List PendingEvent) (s : PendingSystem) :
    Prop where
  order : InTimeOrder PendingResponse.target s.state.pendingByTarget
  count : s.state.pendingCount = s.pending.length
  conserved : (s.sent ++ s.pending).Perm s.registered
  off : captureEnabled = false → s.pending = []
  shocks : s.registered.map PendingResponse.ident =
    (registeredShocks captureEnabled hist).flatMap ShockInput.responses
  due : ∀ pending ∈ s.sent, ∃ second ∈ tickSeconds hist, pending.target ≤ second

variable {captureEnabled : Bool} {gapAllow : ℕ} {hist : List PendingEvent} {s s' : PendingSystem}

theorem pendingInv_start (captureEnabled : Bool)
    (opiTokenMap pmTokenMap : PairKey → Option String) :
    PendingInv captureEnabled [] (PendingSystem.start opiTokenMap pmTokenMap) where
  order := InTimeOrder.nil
  count := rfl
  conserved := List.Perm.refl _
  off _ := rfl
  shocks := rfl
  due := List.forall_mem_nil _

/-- More events keep what is due. -/
theorem due_append {e : PendingEvent} {sent : List PendingResponse}
    (h : ∀ pending ∈ sent, ∃ second ∈ tickSeconds hist, pending.target ≤ second) :
    ∀ pending ∈ sent, ∃ second ∈ tickSeconds (hist ++ [e]), pending.target ≤ second := by
  intro pending hpending
  obtain ⟨second, hsecond, hle⟩ := h pending hpending
  refine ⟨second, ?_, hle⟩
  unfold tickSeconds
  rw [List.filterMap_append]
  exact List.mem_append_left _ hsecond

theorem pendingInv_shock (h : PendingInv captureEnabled hist s) (shock : ShockInput)
    (env : ShockContext)
    (hs : s.step captureEnabled gapAllow (.shock shock env) = some s') :
    PendingInv captureEnabled (hist ++ [.shock shock env]) s' := by
  cases hs
  cases captureEnabled with
  | false =>
    -- with the capture off the shock registers nothing
    refine ⟨h.order, h.count, h.conserved, h.off, ?_, due_append h.due⟩
    have hsame : registeredShocks false (hist ++ [.shock shock env]) =
        registeredShocks false hist := by
      simp [registeredShocks]
    rw [hsame]
    exact h.shocks
  | true =>
    -- five entries are pushed, and the registered list grows by the same five
    obtain ⟨horder, hitems, hcount⟩ :=
      foldl_pushPending (s.state.shockEntries gapAllow shock env) s.state h.order
    refine ⟨horder, ?_, ?_, fun hoff => absurd hoff (by simp), ?_, due_append h.due⟩
    · show (List.foldl PendingState.pushPending s.state _).pendingCount = _
      rw [hcount, h.count]
      exact (List.length_append.symm).trans hitems.length_eq.symm
    · show (s.sent ++ itemsOf _).Perm (s.registered ++ _)
      refine (hitems.append_left s.sent).trans ?_
      rw [← List.append_assoc]
      exact h.conserved.append_right _
    · have hone : registeredShocks true (hist ++ [.shock shock env]) =
          registeredShocks true hist ++ [shock] := by
        simp [registeredShocks]
      show (s.registered ++ _).map PendingResponse.ident = _
      rw [hone, List.map_append, List.flatMap_append, h.shocks, map_ident_shockEntries]
      simp

/-- What a tick changes. -/
theorem step_tick {barSecond : ℤ} {clock : ℕ} {accepts : ℕ → Bool}
    (hs : s.step captureEnabled gapAllow (.tick barSecond clock accepts) = some s')
    {index : List (ℤ × List PendingResponse)} {f : PendingFlush}
    (hflush : flushTargets captureEnabled accepts barSecond s.state.pendingByTarget
      ⟨0, clock, 0, s.state.pendingCount, []⟩ = (index, f)) :
    s'.state.pendingByTarget = index ∧ s'.state.pendingCount = f.pendingCount ∧
      s'.sent = s.sent ++ f.sent ∧ s'.registered = s.registered := by
  simp only [PendingSystem.step, PendingState.flushPending, hflush, Option.some.injEq] at hs
  subst hs
  exact ⟨rfl, rfl, rfl, rfl⟩

theorem pendingInv_tick (h : PendingInv captureEnabled hist s) (barSecond : ℤ) (clock : ℕ)
    (accepts : ℕ → Bool)
    (hs : s.step captureEnabled gapAllow (.tick barSecond clock accepts) = some s') :
    PendingInv captureEnabled (hist ++ [.tick barSecond clock accepts]) s' := by
  obtain ⟨done, hsplit, hdue, hsent, hcount, horder⟩ := flushTargets_spec captureEnabled accepts
    barSecond s.state.pendingByTarget ⟨0, clock, 0, s.state.pendingCount, []⟩ h.order
  generalize hflush : flushTargets captureEnabled accepts barSecond s.state.pendingByTarget
    ⟨0, clock, 0, s.state.pendingCount, []⟩ = result at hsplit hsent hcount horder
  obtain ⟨index, f⟩ := result
  obtain ⟨hindex', hcount', hsent', hregistered'⟩ := step_tick hs hflush
  have hwhole : s.pending = done ++ itemsOf index := hsplit
  have hpending' : s'.pending = itemsOf index := congrArg itemsOf hindex'
  have hdone : f.sent = done := by
    -- with the capture off nothing waits, so nothing could be handed on either
    rw [show f.sent = [] ++ _ from hsent, List.nil_append]
    cases captureEnabled with
    | true => rfl
    | false =>
      have hnil := h.off rfl
      rw [hwhole] at hnil
      rw [(List.append_eq_nil_iff.mp hnil).1]
      rfl
  refine ⟨hindex' ▸ horder, ?_, ?_, ?_, ?_, ?_⟩
  · -- the fields of the invariant, in their order
    rw [hcount', hpending', show f.pendingCount = s.state.pendingCount - _ from hcount, h.count,
      hwhole, List.length_append]
    omega
  · rw [hsent', hpending', hregistered', hdone, List.append_assoc, ← hwhole]
    exact h.conserved
  · intro hoff
    have hnil := h.off hoff
    rw [hwhole] at hnil
    rw [hpending']
    exact (List.append_eq_nil_iff.mp hnil).2
  · have hsame : registeredShocks captureEnabled (hist ++ [.tick barSecond clock accepts]) =
        registeredShocks captureEnabled hist := by
      simp [registeredShocks]
    rw [hsame, hregistered']
    exact h.shocks
  · intro pending hpending
    rw [hsent', hdone] at hpending
    rcases List.mem_append.mp hpending with hpending | hpending
    · exact due_append h.due pending hpending
    · refine ⟨barSecond, ?_, hdue pending hpending⟩
      simp [tickSeconds]

theorem pendingInv_step {e : PendingEvent} (h : PendingInv captureEnabled hist s)
    (hs : (pendingMachine captureEnabled gapAllow).step s e = some s') :
    PendingInv captureEnabled (hist ++ [e]) s' := by
  change s.step captureEnabled gapAllow e = some s' at hs
  cases e with
  | tokenBar bar =>
    -- a token bar changes the histories only
    cases hs
    have hsame : registeredShocks captureEnabled (hist ++ [.tokenBar bar]) =
        registeredShocks captureEnabled hist := by
      simp [registeredShocks]
    have hindex : (s.state.storeTokenBar bar).pendingByTarget = s.state.pendingByTarget ∧
        (s.state.storeTokenBar bar).pendingCount = s.state.pendingCount := by
      unfold PendingState.storeTokenBar
      cases bar.venue with
      | opinion => exact ⟨rfl, rfl⟩
      | polymarket => exact ⟨rfl, rfl⟩
    obtain ⟨horder, hcount⟩ := hindex
    have hpending : PendingSystem.pending { s with state := s.state.storeTokenBar bar } =
        s.pending := congrArg itemsOf horder
    refine ⟨?_, ?_, ?_, ?_, ?_, due_append h.due⟩
    · exact horder ▸ h.order
    · rw [hpending, ← h.count]
      exact hcount
    · rw [hpending]
      exact h.conserved
    · rw [hpending]
      exact h.off
    · rw [hsame]
      exact h.shocks
  | shock shock env => exact pendingInv_shock h shock env hs
  | tick barSecond clock accepts => exact pendingInv_tick h barSecond clock accepts hs

/-! ## Whole runs -/

/-- A tick at or after a second, with room and time for at least one entry. -/
def PendingEvent.RoomyFrom (second : ℤ) : PendingEvent → Prop
  | .tick barSecond clock accepts => second ≤ barSecond ∧ 0 < clock ∧ accepts 0 = true
  | _ => False

/-- Enough ticks with room, late enough, hand on every entry. -/
theorem drained_of_roomy {second : ℤ} {ticks : List PendingEvent}
    (h : PendingInv captureEnabled hist s)
    (hlate : ∀ entry ∈ s.state.pendingByTarget, entry.1 ≤ second)
    (hroomy : ∀ e ∈ ticks, e.RoomyFrom second) (henough : s.pending.length ≤ ticks.length)
    (hr : (pendingMachine captureEnabled gapAllow).run s ticks = some s') :
    s'.pending = [] ∧ s'.registered = s.registered := by
  induction ticks generalizing s hist with
  | nil =>
    cases hr
    exact ⟨List.eq_nil_of_length_eq_zero (Nat.le_zero.mp henough), rfl⟩
  | cons e ticks ih =>
    obtain ⟨t, ht, hrest⟩ := (pendingMachine captureEnabled gapAllow).run_cons_eq_some hr
    have hinv := pendingInv_step h ht
    have hroom := hroomy e List.mem_cons_self
    cases e with
    | tokenBar bar => exact hroom.elim
    -- only ticks are roomy
    | shock shock env => exact hroom.elim
    | tick barSecond clock accepts =>
      obtain ⟨hsecond, hclock, haccepts⟩ := hroom
      generalize hflush : flushTargets captureEnabled accepts barSecond s.state.pendingByTarget
        ⟨0, clock, 0, s.state.pendingCount, []⟩ = result
      have hprogress : s.pending ≠ [] → (itemsOf result.1).length < s.pending.length := by
        intro hne
        rw [← hflush]
        exact flushTargets_progress h.order (fun entry hentry => (hlate entry hentry).trans hsecond)
          hne (show 0 < pendingProcessMax by decide) hclock haccepts
      have hkept : ∀ entry ∈ result.1, entry.1 ≤ second := by
        -- a flush adds no target, so the ticks to come are late enough as well
        intro entry hentry
        rw [← hflush] at hentry
        obtain ⟨e, he, heq⟩ := fst_of_mem_flushTargets entry hentry
        rw [heq]
        exact hlate e he
      have hsplit := (flushTargets_spec captureEnabled accepts barSecond s.state.pendingByTarget
        ⟨0, clock, 0, s.state.pendingCount, []⟩ h.order)
      rw [hflush] at hsplit
      obtain ⟨done, hsplit, -⟩ := hsplit
      obtain ⟨index, f⟩ := result
      obtain ⟨hindex, -, -, hregistered⟩ := @step_tick _ gapAllow _ _ _ _ _ ht _ _ hflush
      have hpending : t.pending = itemsOf index := congrArg itemsOf hindex
      have hshorter : t.pending.length ≤ ticks.length := by
        -- either nothing waited, or this tick has handed on at least one entry
        rw [hpending]
        rw [List.length_cons] at henough
        by_cases hne : s.pending = []
        · have hnil : done ++ itemsOf index = [] := hsplit.symm.trans hne
          rw [(List.append_eq_nil_iff.mp hnil).2]
          exact Nat.zero_le _
        · have hlt : (itemsOf index).length < s.pending.length := hprogress hne
          omega
      obtain ⟨hnone, hsame⟩ := ih hinv (hindex ▸ hkept)
        (fun e he => hroomy e (List.mem_cons_of_mem _ he)) hshorter hrest
      exact ⟨hnone, hsame.trans hregistered⟩

/-- In every run the counter is the number of waiting entries; the entries that were handed on
and those that wait are those of the registered shocks, five for each, and nothing is handed
on before a tick has reached its target.  Ticks with room hand on everything in the end. -/
theorem pending_responses_conserved {opiTokenMap pmTokenMap : PairKey → Option String}
    {es : List PendingEvent}
    (hr : (pendingMachine captureEnabled gapAllow).run
      (PendingSystem.start opiTokenMap pmTokenMap) es = some s) :
    s.state.pendingCount = s.pending.length ∧
      (s.sent ++ s.pending).Perm s.registered ∧
      s.registered.map PendingResponse.ident =
        (registeredShocks captureEnabled es).flatMap ShockInput.responses ∧
      (∀ pending ∈ s.sent, ∃ second ∈ tickSeconds es, pending.target ≤ second) ∧
      ∀ second ticks s', (∀ entry ∈ s.state.pendingByTarget, entry.1 ≤ second) →
        (∀ e ∈ ticks, PendingEvent.RoomyFrom second e) → s.state.pendingCount ≤ ticks.length →
        (pendingMachine captureEnabled gapAllow).run s ticks = some s' →
        s'.pending = [] ∧ s'.sent.Perm s.registered := by
  have hinv : PendingInv captureEnabled es s :=
    (pendingMachine captureEnabled gapAllow).hist_of_runMeets
      (fun _ _ _ _ h _ hs => pendingInv_step h hs) (pendingInv_start captureEnabled _ _)
      ((pendingMachine captureEnabled gapAllow).runMeets_trivial _ es) hr
  refine ⟨hinv.count, hinv.conserved, hinv.shocks, hinv.due, ?_⟩
  -- what has happened so far is the invariant of the run; the rest is about the ticks to come
  intro second ticks s' hlate hroomy henough hrun
  rw [hinv.count] at henough
  obtain ⟨hnone, hsame⟩ := drained_of_roomy hinv hlate hroomy henough hrun
  have hend : PendingInv captureEnabled (es ++ ticks) s' :=
    (pendingMachine captureEnabled gapAllow).hist_of_runMeets
      (fun _ _ _ _ h _ hs => pendingInv_step h hs) hinv
      ((pendingMachine captureEnabled gapAllow).runMeets_trivial _ ticks) hrun
  refine ⟨hnone, ?_⟩
  rw [← hsame]
  have hconserved := hend.conserved
  rw [hnone, List.append_nil] at hconserved
  exact hconserved

/-! ## A full channel -/

/-- A shock of a pair whose tokens are not known yet. -/
def lateShock : ShockInput := ⟨5, 7, .yes, 100, none⟩

/-- The channel takes nothing at second 130, and one entry at the next tick. -/
def fullChannel : List PendingEvent :=
  [.shock lateShock ⟨⟨0, 0, none, 0⟩, none, none⟩, .tick 130 100 (fun _ => false),
    .tick 131 100 (fun attempt => decide (attempt = 0))]

/-- The entry that was refused is handed on by the next tick, the second one that is due still
waits. -/
theorem pending_responses_conserved_full :
    ∃ s, (pendingMachine true 2).run (PendingSystem.start (fun _ => none) fun _ => none)
        fullChannel = some s ∧
      s.sent.map PendingResponse.ident = [(5, 100, 10)] ∧ s.state.pendingCount = 4 ∧
      (s.sent ++ s.pending).Perm s.registered :=
  ⟨_, rfl, by decide +kernel, by decide +kernel, (@pending_responses_conserved true 2 _ _ _
    fullChannel rfl).2.1⟩

end AlphaMonitor.Pair
