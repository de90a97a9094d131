import AlphaMonitor.Trade.Runs

/-!
# The pending candidates

An idle pair queues an entry candidate; the first bar of a later second flushes what is
pending into the ranking.  The pending set belongs to one second.  A bar of an older second
does not flush it, and a candidate that such a bar queues starts another set in its place.

## Main definitions

- `PendingSet`: what is pending, apart from the rest of the engine
- `RankedEngine`: the engine, with the candidates that entered the set and that were ranked

## Main results

- `ranking_always_iff`: when every candidate stays until it is ranked
-/

namespace AlphaMonitor.Trade

/-! ## The pending set -/

/-- `pending_second`, `pending_entries` and `pending_keys`. -/
structure PendingSet where
  second : Option ℤ
  entries : List PendingEntry
  keys : Finset PairKey

namespace PendingSet

variable (p : PendingSet)

/-- The set is of another second than the candidate. -/
def OtherSecond (entry : PendingEntry) : Prop :=
  ∃ second, p.second = some second ∧ second ≠ entry.bar.barSecond

instance (entry : PendingEntry) : Decidable (p.OtherSecond entry) :=
  decidable_of_iff (∃ second ∈ p.second, second ≠ entry.bar.barSecond) Iff.rfl

/-- The set that a candidate is put into. -/
def target (entry : PendingEntry) : PendingSet :=
  -- the candidates of the other second are dropped, not ranked
  if p.OtherSecond entry then ⟨some entry.bar.barSecond, [], ∅⟩
  else { p with second := some entry.bar.barSecond }

/-- The candidate, unless its pair and side already have one. -/
def admitted (entry : PendingEntry) : List PendingEntry :=
  if entry.key ∈ (p.target entry).keys then [] else [entry]

def queue (entry : PendingEntry) : PendingSet where
  second := some entry.bar.barSecond
  entries := (p.target entry).entries ++ p.admitted entry
  keys := insert entry.key (p.target entry).keys

/-- What a flush at this second ranks. -/
def ranked (currentBarSecond : ℤ) : List PendingEntry :=
  match p.second with
  | none => []
  -- a set of the same or a later second stays
  | some second => if second ≥ currentBarSecond then [] else p.entries

def flush (currentBarSecond : ℤ) : PendingSet :=
  match p.second with
  | none => p
  | some second => if second ≥ currentBarSecond then p else ⟨none, [], ∅⟩

/-- A second is set just in case something is pending. -/
structure Wf : Prop where
  nonempty : p.second ≠ none → p.entries ≠ []
  empty : p.second = none → p.entries = [] ∧ p.keys = ∅

variable {p}

theorem target_of_other {entry : PendingEntry} (h : p.OtherSecond entry) :
    p.target entry = ⟨some entry.bar.barSecond, [], ∅⟩ := if_pos h

theorem target_of_same {entry : PendingEntry} (h : ¬ p.OtherSecond entry) :
    p.target entry = { p with second := some entry.bar.barSecond } := if_neg h

theorem Wf.flush (h : p.Wf) (currentBarSecond : ℤ) : (p.flush currentBarSecond).Wf := by
  unfold PendingSet.flush
  split
  · exact h
  · split
    · exact h
    · exact ⟨fun hsecond => absurd rfl hsecond, fun _ => ⟨rfl, rfl⟩⟩

/-- Where the set is not of this second, the candidate is the first of its pair. -/
theorem Wf.admitted (h : p.Wf) {entry : PendingEntry}
    (hother : p.second ≠ some entry.bar.barSecond) : p.admitted entry = [entry] := by
  -- an empty set, or one that was started over
  have hkeys : (p.target entry).keys = ∅ := by
    by_cases hset : p.OtherSecond entry
    · rw [target_of_other hset]
    · rw [target_of_same hset]
      cases hsecond : p.second with
      | none => exact (h.empty hsecond).2
      | some second =>
        refine absurd ⟨second, hsecond, ?_⟩ hset
        intro heq
        exact hother (by rw [hsecond, heq])
  unfold PendingSet.admitted
  rw [hkeys, if_neg (Finset.notMem_empty _)]

theorem Wf.queue (h : p.Wf) (entry : PendingEntry) : (p.queue entry).Wf := by
  constructor
  · intro _ hempty
    obtain ⟨htarget, hadmitted⟩ := List.append_eq_nil_iff.mp hempty
    by_cases hsecond : p.second = some entry.bar.barSecond
    · -- The set goes on, and it was not empty.
      have hsame : ¬ p.OtherSecond entry := by
        intro hother
        obtain ⟨second, hsome, hne⟩ := hother
        exact hne (Option.some.inj (hsome.symm.trans hsecond))
      rw [target_of_same hsame] at htarget
      exact h.nonempty (by rw [hsecond]; exact Option.some_ne_none _) htarget
    · rw [h.admitted hsecond] at hadmitted
      cases hadmitted
  · intro hsecond
    cases hsecond

/-- A flush splits what is pending. -/
theorem ranked_append_flush (p : PendingSet) (currentBarSecond : ℤ) :
    p.ranked currentBarSecond ++ (p.flush currentBarSecond).entries = p.entries := by
  unfold ranked PendingSet.flush
  split
  · rfl
  · split
    · rfl
    · exact List.append_nil _

/-- A candidate joins what is pending exactly when the set is not of another second. -/
theorem Wf.queue_entries_iff (h : p.Wf) (entry : PendingEntry) :
    (p.queue entry).entries = p.entries ++ p.admitted entry ↔ ¬ p.OtherSecond entry := by
  constructor
  · -- with something pending, the set does not start over
    intro hkept hother
    have htarget := target_of_other hother
    obtain ⟨second, hsecond, -⟩ := hother
    have hpending : p.entries ≠ [] := h.nonempty (by rw [hsecond]; exact Option.some_ne_none _)
    have hqueued : (p.queue entry).entries = p.admitted entry := by
      change (p.target entry).entries ++ p.admitted entry = _
      rw [htarget, List.nil_append]
    exact hpending (List.self_eq_append_left.mp (hqueued.symm.trans hkept))
  · intro hsame
    unfold PendingSet.queue
    rw [target_of_same hsame]

/-- After the flush of a bar, the set is of another second than the bar's just in case the bar is
older than what is pending. -/
theorem otherSecond_flush_iff {entry : PendingEntry} :
    (p.flush entry.bar.barSecond).OtherSecond entry ↔
      ∃ second, p.second = some second ∧ entry.bar.barSecond < second := by
  unfold PendingSet.flush OtherSecond
  split
  · rename_i hsecond
    rw [hsecond]
    simp
  · rename_i second hsecond
    split
    · -- the flush leaves a set of this or a later second
      rename_i hlate
      rw [hsecond]
      constructor
      · rintro ⟨_, hsome, hne⟩
        cases hsome
        exact ⟨second, rfl, lt_of_le_of_ne hlate hne.symm⟩
      · rintro ⟨_, hsome, hlt⟩
        cases hsome
        exact ⟨second, rfl, hlt.ne'⟩
    · -- the set was older and is gone after the flush
      rename_i hlate
      rw [hsecond]
      constructor
      · rintro ⟨_, hsome, -⟩
        cases hsome
      · rintro ⟨_, hsome, hlt⟩
        cases hsome
        exact absurd hlt.le hlate

end PendingSet

/-! ## The engine's pending set -/

namespace TradeEngine

variable {setup : Setup} {env : Env}

def pending (eng : TradeEngine) : PendingSet :=
  ⟨eng.pendingSecond, eng.pendingEntries, eng.pendingKeys⟩

@[simp] theorem pending_putBack (eng : TradeEngine) (key : PairKey)
    (result : Desk × PairTradeState) : (eng.putBack key result).pending = eng.pending := rfl

@[simp] theorem pending_onKnown (eng : TradeEngine) (key : PairKey)
    (f : PairTradeState → Desk × PairTradeState) : (eng.onKnown key f).pending = eng.pending := by
  unfold onKnown
  split <;> rfl

theorem pending_queueEntry (eng : TradeEngine) (entry : PendingEntry) :
    (eng.queueEntry entry).pending = eng.pending.queue entry := by
  -- The candidate is put into the set that the first part leaves.
  have hpush : ∀ eng' : TradeEngine, eng'.pending = eng.pending.target entry →
      (if entry.key ∈ eng'.pendingKeys then eng'
        else
          { eng' with
            pendingKeys := insert entry.key eng'.pendingKeys
            pendingEntries := eng'.pendingEntries ++ [entry] }).pending =
        eng.pending.queue entry := by
    intro eng' htarget
    unfold PendingSet.queue PendingSet.admitted
    rw [← htarget]
    have hsecond : eng'.pendingSecond = some entry.bar.barSecond := by
      have heq := congrArg PendingSet.second htarget
      unfold PendingSet.target at heq
      split at heq <;> exact heq
    split
    · rename_i hmem
      change (⟨eng'.pendingSecond, eng'.pendingEntries, eng'.pendingKeys⟩ : PendingSet) =
        ⟨some entry.bar.barSecond, eng'.pendingEntries ++ (if entry.key ∈ eng'.pendingKeys then []
          else [entry]), insert entry.key eng'.pendingKeys⟩
      rw [if_pos hmem, List.append_nil, Finset.insert_eq_of_mem hmem, hsecond]
    · rename_i hmem
      change (⟨eng'.pendingSecond, eng'.pendingEntries ++ [entry],
          insert entry.key eng'.pendingKeys⟩ : PendingSet) =
        ⟨some entry.bar.barSecond, eng'.pendingEntries ++ (if entry.key ∈ eng'.pendingKeys then []
          else [entry]), insert entry.key eng'.pendingKeys⟩
      rw [if_neg hmem, hsecond]
  unfold queueEntry
  refine hpush _ ?_
  split
  · rename_i hsecond
    -- the set is of the candidate's second
    have hsame : ¬ eng.pending.OtherSecond entry := by
      rintro ⟨second, hsome, hne⟩
      exact hne (Option.some.inj (hsome.symm.trans hsecond))
    rw [PendingSet.target_of_same hsame, ← hsecond]
    rfl
  · rename_i hne
    split
    · rename_i second hsecond
      -- the set is of another second and starts over
      have hother : eng.pending.OtherSecond entry := by
        refine ⟨second, hsecond, ?_⟩
        intro heq
        exact hne (by rw [hsecond, heq])
      rw [PendingSet.target_of_other hother]
      rfl
    · rename_i hsecond
      -- no set yet
      have hsame : ¬ eng.pending.OtherSecond entry := by
        rintro ⟨second, hsome, -⟩
        cases hsecond.symm.trans hsome
      rw [PendingSet.target_of_same hsame]
      rfl

theorem pending_flushLoop (second : ℤ) (entries : List PendingEntry) (eng : TradeEngine) :
    (flushLoop setup env second entries eng).pending = eng.pending := by
  induction entries generalizing eng with
  | nil => rfl
  | cons entry rest ih =>
    -- the loop places entries and never queues one
    unfold flushLoop
    simp only
    generalize (if setup.cfg.balanceTotalUsd > 0 then _ else _ : TradeRiskState × ℚ) = pool
    split
    · rfl
    · split
      · rw [ih]
        rfl
      · rw [ih]
        rfl

theorem pending_flushPendingEntries (eng : TradeEngine) (currentBarSecond : ℤ) :
    (flushPendingEntries setup env eng currentBarSecond).pending =
      eng.pending.flush currentBarSecond := by
  unfold flushPendingEntries
  cases hsecond : eng.pendingSecond with
  | none =>
    have hflush : eng.pending.flush currentBarSecond = eng.pending := by
      simp [PendingSet.flush, pending, hsecond]
    exact hflush.symm
  | some second =>
    have hflush : eng.pending.flush currentBarSecond =
        if second ≥ currentBarSecond then eng.pending else ⟨none, [], ∅⟩ := by
      simp [PendingSet.flush, pending, hsecond]
    rw [hflush]
    dsimp only
    split
    · rfl
    · -- E
      split
      · rfl
      · rw [pending_flushLoop]
        split <;> rfl

/-- The candidate that a bar gives an idle pair, after the flush. -/
def candidate (setup : Setup) (eng : TradeEngine) (bar : Bars1sPair)
    (signal : Option EntrySignal) : Option PendingEntry :=
  let st := updateBasePm setup.cfg (eng.stateOf (bar.pairId, bar.tokenSide)) bar
  match barPrices setup.cfg st bar, signal with
  | some (pmMid, basePm), some signal =>
    if st.state = .idle then
      let pmMove := (pmMid - basePm) / basePm
      -- the momentum is the step since the pair's last bar
      let pmMom := (st.lastPmMove.map (pmMove - ·)).getD 0
      some (pendingEntryOf bar ⟨pmMove, pmMom, bar.polyOfi250ms.getD 0⟩ basePm signal)
    else none
  | _, _ => none

theorem recordBar_state (st : PairTradeState) (bar : Bars1sPair) (flow : PmFlow) (basePm : ℚ) :
    (recordBar st bar flow basePm).state = st.state := by
  unfold recordBar
  dsimp only
  split
  · unfold PairTradeState.updatePeak
    split <;> rfl
  · rfl

/-- A bar flushes the set and may queue a candidate. -/
theorem pending_handleBar (eng : TradeEngine) (bar : Bars1sPair) (signal : Option EntrySignal) :
    (handleBar setup env eng bar signal).pending =
      ((flushPendingEntries setup env eng bar.barSecond).candidate setup bar signal).elim
        (eng.pending.flush bar.barSecond) (eng.pending.flush bar.barSecond).queue := by
  rw [← @pending_flushPendingEntries setup env]
  unfold handleBar candidate
  generalize flushPendingEntries setup env eng bar.barSecond = eng'
  dsimp only
  generalize updateBasePm setup.cfg (eng'.stateOf (bar.pairId, bar.tokenSide)) bar = st
  cases barPrices setup.cfg st bar with
  | none => rfl
  | some prices =>
    obtain ⟨pmMid, basePm⟩ := prices
    dsimp only
    -- recording the bar leaves the state, so the same pairs are idle
    rw [recordBar_state]
    cases signal with
    | none =>
      split
      · rename_i heq
        cases heq
      · rfl
    | some signal =>
      dsimp only
      -- only an idle pair queues the candidate
      by_cases hidle : st.state = .idle
      · rw [hidle, if_pos rfl]
        exact pending_queueEntry _ _
      · rw [if_neg hidle]
        split
        · rename_i heq _
          exact absurd heq hidle
        · rfl

/-- A message that is not a bar leaves the set alone. -/
theorem pending_handle (eng : TradeEngine) {message : TradeMessage}
    (hbar : ∀ bar signal, message ≠ .pairBar bar signal) :
    (handle setup env eng message).pending = eng.pending := by
  cases message with
  | pairBar bar signal => exact absurd rfl (hbar bar signal)
  | shock => rfl
  | cancelCheckTick order =>
    -- a tick goes through the pairs one by one
    change (order.foldl (fun eng key => tickPair setup env eng key) eng).pending = eng.pending
    induction order generalizing eng with
    | nil => rfl
    | cons key rest ih =>
      rw [List.foldl_cons, ih]
      · exact pending_onKnown eng key _
      · intro bar signal heq
        cases heq
  | orderUpdate update => exact pending_onKnown _ _ _
  | tradeRecord record => exact pending_onKnown _ _ _
  | orderResponse response =>
    cases response with
    | placeChase => exact pending_onKnown _ _ _
    | fetchFills => exact pending_onKnown _ _ _
    | cancelOrder id orderId result =>
      change (handleCancelResponse setup env eng id orderId result).pending = eng.pending
      unfold handleCancelResponse
      split
      · rfl
      · exact pending_onKnown _ _ _

end TradeEngine

/-! ## Ranking -/

/-- The engine, with every candidate that entered the pending set and every one that a flush
ranked. -/
structure RankedEngine where
  engine : TradeEngine
  (entered ranked : List PendingEntry)

namespace RankedEngine

variable {setup : Setup}

def start (now : ℤ) : RankedEngine := ⟨TradeEngine.start now, [], []⟩

/-- Handle a message, and keep the record of the candidates. -/
def handled (setup : Setup) (t : RankedEngine) (e : Env × TradeMessage) : RankedEngine :=
  match e.2 with
  | .pairBar bar signal =>
    -- the flush comes before the bar's own candidate
    let pending := t.engine.pending.flush bar.barSecond
    let flushed := t.engine.flushPendingEntries setup e.1 bar.barSecond
    { engine := TradeEngine.handle setup e.1 t.engine e.2
      entered := t.entered ++
        (flushed.candidate setup bar signal).elim [] pending.admitted
      ranked := t.ranked ++ t.engine.pending.ranked bar.barSecond }
  | _ => { t with engine := TradeEngine.handle setup e.1 t.engine e.2 }

/-- Every candidate that entered the set was ranked or is pending. -/
def Accounted (t : RankedEngine) : Prop :=
  t.entered = t.ranked ++ t.engine.pendingEntries

/-- A bar that is older than what is pending gives its pair a candidate. -/
def Overtaken (setup : Setup) (t : RankedEngine) : Env × TradeMessage → Prop
  | (_, .pairBar bar signal) =>
    (∃ second, t.engine.pendingSecond = some second ∧ bar.barSecond < second) ∧
      (t.engine.candidate setup bar signal).isSome
  | _ => False

def machine (setup : Setup) : Lib.Machine RankedEngine (Env × TradeMessage) where
  init t := ∃ now, t = start now
  step t e := some (t.handled setup e)

theorem engine_handled (t : RankedEngine) (e : Env × TradeMessage) :
    (t.handled setup e).engine = TradeEngine.handle setup e.1 t.engine e.2 := by
  unfold handled
  split <;> rfl

/-- What is left of the pending set is well formed. -/
theorem wf_handled {t : RankedEngine} (h : t.engine.pending.Wf) (e : Env × TradeMessage) :
    (t.handled setup e).engine.pending.Wf := by
  obtain ⟨env, message⟩ := e
  rw [engine_handled]
  cases message with
  | pairBar bar signal =>
    change (TradeEngine.handleBar setup env t.engine bar signal).pending.Wf
    rw [TradeEngine.pending_handleBar]
    -- the flush keeps the set well formed, and so does the candidate
    have hflushed := h.flush bar.barSecond
    cases (TradeEngine.flushPendingEntries setup env t.engine bar.barSecond).candidate setup bar
        signal with
    | none => exact hflushed
    | some entry => exact hflushed.queue entry
  | _ =>
    rw [TradeEngine.pending_handle]
    · exact h
    · intro bar signal heq
      cases heq

theorem candidate_barSecond {eng : TradeEngine} {bar : Bars1sPair} {signal : Option EntrySignal}
    {entry : PendingEntry} (h : eng.candidate setup bar signal = some entry) :
    entry.bar.barSecond = bar.barSecond := by
  unfold TradeEngine.candidate at h
  dsimp only at h
  split at h
  · split at h
    · cases h
      rfl
    · cases h
  · cases h

/-- A bar that is older than what is pending flushes nothing. -/
theorem flushPendingEntries_of_older {eng : TradeEngine} {env : Env} {second current : ℤ}
    (hsecond : eng.pendingSecond = some second) (holder : current < second) :
    TradeEngine.flushPendingEntries setup env eng current = eng := by
  unfold TradeEngine.flushPendingEntries
  rw [hsecond]
  exact if_pos holder.le

/-- A message that is not a bar keeps every candidate. -/
theorem Accounted.handled_other {t : RankedEngine} (h : t.Accounted) {env : Env}
    {message : TradeMessage} (hbar : ∀ bar signal, message ≠ .pairBar bar signal) :
    (t.handled setup (env, message)).Accounted := by
  have hsame := @TradeEngine.pending_handle setup env t.engine message hbar
  have hentries := congrArg PendingSet.entries hsame
  unfold handled
  split
  · rename_i bar signal heq
    exact absurd heq (hbar bar signal)
  · exact h.trans (congrArg (t.ranked ++ ·) hentries.symm)

theorem not_overtaken_other {t : RankedEngine} {env : Env} {message : TradeMessage}
    (hbar : ∀ bar signal, message ≠ .pairBar bar signal) :
    ¬ t.Overtaken setup (env, message) := by
  intro h
  cases message with
  | pairBar bar signal => exact hbar bar signal rfl
  | _ => exact h

/-- A bar keeps every candidate exactly when it is not an older one with a candidate. -/
theorem accounted_handled_bar_iff {t : RankedEngine} (hwf : t.engine.pending.Wf)
    (h : t.Accounted) (env : Env) (bar : Bars1sPair) (signal : Option EntrySignal) :
    (t.handled setup (env, .pairBar bar signal)).Accounted ↔
      ¬ t.Overtaken setup (env, .pairBar bar signal) := by
  have hpending := @TradeEngine.pending_handleBar setup env t.engine bar signal
  -- What was pending is ranked now or still there.
  have hsplit : t.entered = t.ranked ++ t.engine.pending.ranked bar.barSecond ++
      (t.engine.pending.flush bar.barSecond).entries := by
    rw [List.append_assoc, PendingSet.ranked_append_flush]
    exact h
  have haccounted : (t.handled setup (env, .pairBar bar signal)).Accounted ↔
      t.entered ++ ((TradeEngine.flushPendingEntries setup env t.engine bar.barSecond).candidate
          setup bar signal).elim [] (t.engine.pending.flush bar.barSecond).admitted =
        t.ranked ++ t.engine.pending.ranked bar.barSecond ++
          (TradeEngine.handleBar setup env t.engine bar signal).pending.entries := Iff.rfl
  rw [haccounted, hpending]
  have hovertaken : t.Overtaken setup (env, .pairBar bar signal) ↔
      (∃ second, t.engine.pendingSecond = some second ∧ bar.barSecond < second) ∧
        ((TradeEngine.flushPendingEntries setup env t.engine bar.barSecond).candidate
          setup bar signal).isSome := by
    -- an older bar flushes nothing, so the flushed engine is the one before
    refine and_congr_right ?_
    rintro ⟨second, hsecond, holder⟩
    rw [flushPendingEntries_of_older hsecond holder]
  rw [hovertaken]
  cases hcandidate : (TradeEngine.flushPendingEntries setup env t.engine
      bar.barSecond).candidate setup bar signal with
  | none =>
    refine iff_of_true ?_ ?_
    · rw [Option.elim_none, Option.elim_none, List.append_nil]
      exact hsplit
    · rintro ⟨-, hsome⟩
      cases hsome
  | some entry =>
    -- the candidate is of the second of its bar
    have hbar := candidate_barSecond hcandidate
    rw [Option.elim_some, Option.elim_some, hsplit, List.append_assoc _ _ (PendingSet.admitted _ _),
      List.append_right_inj, Option.isSome_some, and_iff_left rfl, eq_comm,
      (hwf.flush bar.barSecond).queue_entries_iff, ← hbar]
    exact not_congr PendingSet.otherSecond_flush_iff

theorem accounted_handled_iff {t : RankedEngine} (hwf : t.engine.pending.Wf) (h : t.Accounted)
    (e : Env × TradeMessage) : (t.handled setup e).Accounted ↔ ¬ t.Overtaken setup e := by
  obtain ⟨env, message⟩ := e
  by_cases hbar : ∀ bar signal, message ≠ .pairBar bar signal
  · exact iff_of_true (h.handled_other hbar) (not_overtaken_other hbar)
  · push Not at hbar
    obtain ⟨bar, signal, rfl⟩ := hbar
    exact accounted_handled_bar_iff hwf h env bar signal

/-- Every candidate that enters the pending set stays there until a flush ranks it, all along
a run, exactly when no bar that is older than what is pending gives its pair a candidate. -/
theorem ranking_always_iff (setup : Setup) (now : ℤ) (messages : List (Env × TradeMessage)) :
    (∀ taken rest, messages = taken ++ rest → ∀ t,
      (machine setup).run (start now) taken = some t → t.Accounted) ↔
      (machine setup).RunMeets (fun t e => ¬ t.Overtaken setup e) (start now) messages := by
  have hrun : ∃ t, (machine setup).run (start now) messages = some t := by
    -- no message is ever refused
    generalize start now = t
    induction messages generalizing t with
    | nil => exact ⟨t, rfl⟩
    | cons e rest ih => exact ih (t.handled setup e)
  obtain ⟨last, hrun⟩ := hrun
  refine (machine setup).always_iff_runMeets (fun t => t.engine.pending.Wf) Accounted ?_ ?_ ?_ ?_
    hrun
  · intro t e t' hwf hstep
    cases hstep
    exact wf_handled hwf e
  · intro t e t' hwf h hstep
    cases hstep
    exact accounted_handled_iff hwf h e
  · exact ⟨fun hsecond => absurd rfl hsecond, fun _ => ⟨rfl, rfl⟩⟩
  · rfl

/-! ### Two pairs, the second one a second behind -/

/-- A bar of another pair. -/
def secondPairBar (second : ℤ) : Bars1sPair := { sampleBar second with pairId := 2 }

/-- Both pairs queue a candidate, the second one for the second before. -/
def overtakenRun : List (Env × TradeMessage) :=
  [(sampleEnv 0 "x", .pairBar (sampleBar 1) (some sampleSignal)),
    (sampleEnv 100 "x", .pairBar (secondPairBar 0) (some sampleSignal))]

/-- The candidate of the first pair is neither ranked nor pending. -/
theorem candidate_overtaken :
    ∃ t, (machine sampleSetup).run (start 0) overtakenRun = some t ∧
      t.entered.map PendingEntry.key = [(1, .yes), (2, .yes)] ∧ t.ranked = [] ∧
      t.engine.pendingEntries.map PendingEntry.key = [(2, .yes)] ∧ ¬ t.Accounted := by
  refine ⟨overtakenRun.foldl (handled sampleSetup) (start 0), rfl, by decide +kernel,
    by decide +kernel, by decide +kernel, ?_⟩
  intro h
  have hkeys := congrArg (List.map PendingEntry.key) h
  exact absurd hkeys (by decide +kernel)

end RankedEngine

end AlphaMonitor.Trade
