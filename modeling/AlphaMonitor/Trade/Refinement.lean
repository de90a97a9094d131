import AlphaMonitor.Trade.Handlers
import AlphaMonitor.Trade.WellFormed

/-!
# The engine refines its moves

`TradeEngine.view` forgets everything about an engine but the orders of its
pairs, the counters and the requests.  One message changes the view by a chain of
moves, and which moves are possible depends on the message (`MessageAllow`).

## Main results

- `handle_steps`: every message is a chain of moves that it allows
- `handle_inv`: every message keeps the engine well formed
-/

namespace AlphaMonitor.Trade

/-! ## Views -/

/-- What the moves see of an engine. -/
structure View where
  order : PairKey → OrderState
  lastBar : PairKey → Option Bars1sPair
  desk : DeskView

namespace View

def slot (v : View) (key : PairKey) : Slot := ⟨v.order key, v.lastBar key, v.desk⟩

def put (v : View) (key : PairKey) (s : Slot) : View where
  order := Function.update v.order key s.order
  lastBar := Function.update v.lastBar key s.lastBar
  desk := s.desk

@[simp] theorem slot_order (v : View) (key : PairKey) : (v.slot key).order = v.order key := rfl

@[simp] theorem slot_lastBar (v : View) (key : PairKey) :
    (v.slot key).lastBar = v.lastBar key := rfl

@[simp] theorem slot_desk (v : View) (key : PairKey) : (v.slot key).desk = v.desk := rfl

@[simp] theorem put_desk (v : View) (key : PairKey) (s : Slot) : (v.put key s).desk = s.desk := rfl

@[simp] theorem put_order_self (v : View) (key : PairKey) (s : Slot) :
    (v.put key s).order key = s.order := by
  simp [put]

theorem put_order_of_ne (v : View) {key key' : PairKey} (s : Slot) (h : key' ≠ key) :
    (v.put key s).order key' = v.order key' := by
  simp [put, h]

theorem put_lastBar_of_ne (v : View) {key key' : PairKey} (s : Slot) (h : key' ≠ key) :
    (v.put key s).lastBar key' = v.lastBar key' := by
  simp [put, h]

@[simp] theorem slot_put_self (v : View) (key : PairKey) (s : Slot) : (v.put key s).slot key = s := by
  simp [slot, put]

@[simp] theorem put_put (v : View) (key : PairKey) (s t : Slot) :
    (v.put key s).put key t = v.put key t := by
  simp [put]

@[simp] theorem put_slot_self (v : View) (key : PairKey) : v.put key (v.slot key) = v := by
  simp [slot, put]

/-- A labelled move of one pair. -/
def Move (setup : Setup) (v : View) (a : PairKey × Act) (w : View) : Prop :=
  ∃ t, Trade.Move setup a.1 (v.slot a.1) a.2 t ∧ w = v.put a.1 t

end View

/-- A chain of moves of any pairs whose labels are allowed. -/
abbrev EngineSteps (setup : Setup) (allow : View → PairKey × Act → Prop) : View → View → Prop :=
  Lib.Chain (View.Move setup) allow

variable {setup : Setup} {env : Env}

/-- A chain of one pair is a chain of the engine. -/
theorem Steps.lift {v : View} {key : PairKey} {s t : Slot} {allow : Slot → Act → Prop}
    {allow' : View → PairKey × Act → Prop} (hslot : v.slot key = s)
    (hallow : ∀ w a, allow (w.slot key) a → allow' w (key, a))
    (h : Steps setup key allow s t) : EngineSteps setup allow' v (v.put key t) := by
  -- the slot of the pair is the only part of the view that moves
  have hstep : ∀ s a t, allow s a → Move setup key s a t →
      allow' (v.put key s) (key, a) ∧ View.Move setup (v.put key s) (key, a) (v.put key t) := by
    intro s a t ha hmove
    refine ⟨hallow _ _ (by simpa using ha), t, by simpa using hmove, by simp⟩
  have hmap := Lib.Chain.map (v.put key) (Prod.mk key) hstep h
  rwa [← hslot, View.put_slot_self] at hmap

/-! ## The view of an engine -/

namespace TradeEngine

variable (eng : TradeEngine)

def view : View where
  order key := (eng.stateOf key).toOrderState
  lastBar key := (eng.stateOf key).lastBar
  desk := eng.desk.view

theorem slot_view (key : PairKey) :
    eng.view.slot key = slotOf (eng.desk, eng.stateOf key) := rfl

theorem stateOf_putBack (key key' : PairKey) (r : Desk × PairTradeState) :
    (eng.putBack key r).stateOf key' = if key' = key then r.2 else eng.stateOf key' := by
  unfold stateOf putBack
  by_cases h : key' = key
  · -- the map finds the new state, and the old ones elsewhere
    subst h
    simp [AList.lookup_insert]
  · simp [AList.lookup_insert_ne h, h]

theorem view_putBack (key : PairKey) (r : Desk × PairTradeState) :
    (eng.putBack key r).view = eng.view.put key (slotOf r) := by
  unfold view View.put
  congr 1
  · funext key'
    rw [stateOf_putBack]
    by_cases h : key' = key
    · subst h; simp
    · simp [h]
  · funext key'
    rw [stateOf_putBack]
    by_cases h : key' = key
    · subst h; simp
    · simp [h]

theorem stateOf_of_lookup {key : PairKey} {st : PairTradeState}
    (h : eng.states.lookup key = some st) : eng.stateOf key = st := by
  simp [stateOf, h]

/-- A function on one known pair is a chain of the engine. -/
theorem onKnown_steps {key : PairKey} {f : PairTradeState → Desk × PairTradeState}
    (allow : Slot → Act → Prop) {allow' : View → PairKey × Act → Prop}
    (hallow : ∀ w a, allow (w.slot key) a → allow' w (key, a))
    (h : eng.states.lookup key = some (eng.stateOf key) →
      Steps setup key allow (slotOf (eng.desk, eng.stateOf key)) (slotOf (f (eng.stateOf key)))) :
    EngineSteps setup allow' eng.view (eng.onKnown key f).view := by
  unfold onKnown
  cases hst : eng.states.lookup key with
  -- a function on an unknown pair does nothing
  | none => exact Lib.Chain.refl _
  | some st =>
    have hof := eng.stateOf_of_lookup hst
    rw [view_putBack]
    rw [hof] at h
    apply Steps.lift ?_ hallow (h hst)
    -- the state that the map finds is the one of the view
    rw [slot_view, hof]

/-- Well-formed engines. -/
structure Inv (setup : Setup) (eng : TradeEngine) : Prop where
  wf : ∀ key, (eng.view.order key).Wf setup.isLive (eng.view.lastBar key).isSome
  bars : ∀ key bar, eng.view.lastBar key = some bar → key = (bar.pairId, bar.tokenSide)
  pending : ∀ entry ∈ eng.pendingEntries, entry.key = (entry.bar.pairId, entry.bar.tokenSide) ∧
    (eng.view.lastBar entry.key).isSome = true

end TradeEngine

/-- The part of the invariant that is about the view. -/
structure View.Inv (setup : Setup) (v : View) : Prop where
  wf : ∀ key, (v.order key).Wf setup.isLive (v.lastBar key).isSome
  bars : ∀ key bar, v.lastBar key = some bar → key = (bar.pairId, bar.tokenSide)

theorem Upkeep.lastBar {key : PairKey} {s t : Slot} (h : Upkeep key s t) :
    t.lastBar = s.lastBar ∨ ∃ bar, t.lastBar = some bar ∧ key = (bar.pairId, bar.tokenSide) := by
  cases h with
  -- the bar that replaces it is one of the pair
  | sawBar bar hkey => exact Or.inr ⟨bar, rfl, hkey⟩
  | _ => exact Or.inl rfl

/-- The last bar is only ever replaced by a bar of the pair. -/
theorem Move.lastBar {key : PairKey} {s t : Slot} {a : Act} (h : Move setup key s a t) :
    t.lastBar = s.lastBar ∨ ∃ bar, t.lastBar = some bar ∧ key = (bar.pairId, bar.tokenSide) := by
  cases h with
  | upkeep hup => exact hup.lastBar
  | _ => exact Or.inl rfl

theorem View.Move.inv {v w : View} {a : PairKey × Act} (h : View.Move setup v a w)
    (hv : v.Inv setup) : w.Inv setup := by
  obtain ⟨key, act⟩ := a
  obtain ⟨t, hmove, rfl⟩ := h
  have hwf : t.order.Wf setup.isLive t.lastBar.isSome := hmove.wf (hv.wf key)
  constructor
  · intro key'
    -- the other pairs are untouched
    by_cases hk : key' = key
    · subst hk
      simpa [View.put] using hwf
    · rw [View.put_order_of_ne _ _ hk, View.put_lastBar_of_ne _ _ hk]
      exact hv.wf key'
  · intro key' bar hbar
    by_cases hk : key' = key
    · subst hk
      simp only [View.put, Function.update_self] at hbar
      -- the new bar may be the old one
      rcases hmove.lastBar with hsame | ⟨bar', hbar', hkey⟩
      · rw [hsame] at hbar
        exact hv.bars key' bar hbar
      · rw [hbar'] at hbar
        cases hbar
        exact hkey
    · rw [View.put_lastBar_of_ne _ _ hk] at hbar
      exact hv.bars key' bar hbar

theorem EngineSteps.inv {allow : View → PairKey × Act → Prop} {v w : View}
    (h : EngineSteps setup allow v w) (hv : v.Inv setup) : w.Inv setup :=
  Lib.Chain.inv (fun v => v.Inv setup) (fun _ _ _ hv _ hmove => hmove.inv hv) h hv

/-- A pair that has seen a bar has seen one after every chain. -/
theorem EngineSteps.hasBar {allow : View → PairKey × Act → Prop} {v w : View}
    (h : EngineSteps setup allow v w) (key : PairKey) (hv : (v.lastBar key).isSome = true) :
    (w.lastBar key).isSome = true := by
  apply Lib.Chain.inv (fun v => (v.lastBar key).isSome = true) ?_ h hv
  -- a move of another pair does not take the bar away
  intro v a w hv _ hmove
  obtain ⟨key', act⟩ := a
  obtain ⟨t, hmove, rfl⟩ := hmove
  by_cases hk : key = key'
  · subst hk
    simp only [View.put, Function.update_self]
    rcases hmove.lastBar with hsame | ⟨bar, hbar, _⟩
    · rw [hsame]
      exact hv
    · rw [hbar]
      rfl
  · rw [View.put_lastBar_of_ne _ _ hk]
    exact hv

/-- What every allowed move of one pair keeps of its orders, an engine keeps. -/
theorem EngineSteps.keyInv {allow : View → PairKey × Act → Prop} {v w : View} {key : PairKey}
    {P : OrderState → Prop} (h : EngineSteps setup allow v w) (hv : v.Inv setup)
    (hstep : ∀ v a t, v.Inv setup → allow v (key, a) → P (v.order key) →
      Trade.Move setup key (v.slot key) a t → P t.order)
    (hP : P (v.order key)) : P (w.order key) := by
  refine (Lib.Chain.inv (fun v => v.Inv setup ∧ P (v.order key)) ?_ h ⟨hv, hP⟩).2
  rintro v ⟨key', a⟩ w ⟨hv, hP⟩ hallow hmove
  refine ⟨hmove.inv hv, ?_⟩
  obtain ⟨t, ht, rfl⟩ := hmove
  by_cases hkey : key = key'
  · subst hkey
    rw [View.put_order_self]
    exact hstep v a t hv hallow hP ht
  · rw [View.put_order_of_ne v t hkey]
    -- moves of other pairs leave these orders alone
    exact hP

/-! ## Bars and periodic checks -/

/-- Chains of checks, for any pairs. -/
abbrev CheckEngineSteps (setup : Setup) : View → View → Prop :=
  EngineSteps setup fun _ a => a.2.Checking

/-- Chains of attempts to enter with one of the entries. -/
abbrev EnterEngineSteps (setup : Setup) (entries : List PendingEntry) : View → View → Prop :=
  EngineSteps setup fun _ a => ∃ entry ∈ entries, a.1 = entry.key ∧ a.2.Enters entry

theorem CheckSteps.lift {v : View} {key : PairKey} {s t : Slot} (hslot : v.slot key = s)
    (h : CheckSteps setup key s t) : CheckEngineSteps setup v (v.put key t) :=
  Steps.lift hslot (fun _ _ ha => ha) h

theorem WorkingSteps.checking {key : PairKey} {s t : Slot} (h : WorkingSteps setup key s t) :
    CheckSteps setup key s t :=
  Lib.Chain.mono (fun _ _ ha => Act.Working.checking ha) h

theorem EnterEngineSteps.mono {entries entries' : List PendingEntry} {v w : View}
    (hsub : ∀ entry ∈ entries, entry ∈ entries') (h : EnterEngineSteps setup entries v w) :
    EnterEngineSteps setup entries' v w := by
  apply Lib.Chain.mono ?_ h
  rintro _ _ ⟨entry, hentry, hkey, hlabel⟩
  exact ⟨entry, hsub entry hentry, hkey, hlabel⟩

namespace TradeEngine

/-- A desk with the same view gives an engine with the same view. -/
theorem view_withDesk (eng : TradeEngine) {desk : Desk} (h : desk.view = eng.desk.view) :
    view { eng with desk := desk } = eng.view := by
  unfold view
  rw [h]
  rfl

theorem view_withRisk (desk : Desk) (risk : TradeRiskState)
    (h : Books.counters { desk.books with risk := risk } = desk.books.counters) :
    Desk.view { desk with books := { desk.books with risk := risk } } = desk.view := by
  simp only [Desk.view, h]

/-- The entries whose pair is idle. -/
def idleEntries (eng : TradeEngine) (entries : List PendingEntry) : List PendingEntry :=
  entries.filter fun entry => decide ((eng.stateOf entry.key).state = .idle)

theorem mem_idleEntries {eng : TradeEngine} {entries : List PendingEntry} {entry : PendingEntry} :
    entry ∈ eng.idleEntries entries ↔
      entry ∈ entries ∧ (eng.stateOf entry.key).state = .idle := by
  simp [idleEntries]

/-- Only entries of pairs that are idle at the start are acted on: trying one makes no
other pair idle. -/
theorem flushLoop_steps (second : ℤ) (entries : List PendingEntry) (eng : TradeEngine)
    (hentries : ∀ entry ∈ entries, entry.key = (entry.bar.pairId, entry.bar.tokenSide) ∧
      (eng.view.lastBar entry.key).isSome = true) :
    EnterEngineSteps setup (eng.idleEntries entries) eng.view
      (flushLoop setup env second entries eng).view := by
  induction entries generalizing eng with
  | nil => exact Lib.Chain.refl _
  | cons entry rest ih =>
    unfold flushLoop
    simp only
    -- the pool is read first, which the view does not see
    obtain ⟨risk, available, hrisk, hpool⟩ : ∃ risk available,
        (if setup.cfg.balanceTotalUsd > 0 then
          eng.desk.books.risk.entryPoolAvailable setup.cfg second
        else (eng.desk.books.risk, 0)) = (risk, available) ∧
        Books.counters { eng.desk.books with risk := risk } = eng.desk.books.counters := by
      by_cases hb : setup.cfg.balanceTotalUsd > 0
      · rw [if_pos hb]
        exact ⟨_, _, rfl, counters_entryPoolAvailable setup.cfg eng.desk.books second⟩
      · rw [if_neg hb]
        exact ⟨_, _, rfl, rfl⟩
    rw [hrisk]
    simp only
    have hdesk := view_withRisk eng.desk risk hpool
    have hview := eng.view_withDesk hdesk
    set eng₁ : TradeEngine := { eng with
      desk := { eng.desk with books := { eng.desk.books with risk := risk } } } with heng₁
    obtain ⟨hkey, hbar⟩ := hentries entry List.mem_cons_self
    -- whatever the entry does, the rest of the list is worked in the engine it leaves
    have hrest : ∀ eng₂ : TradeEngine,
        EnterEngineSteps setup (eng.idleEntries [entry]) eng₁.view eng₂.view →
        (∀ key, (eng₂.stateOf key).state = .idle → (eng.stateOf key).state = .idle) →
        EnterEngineSteps setup (eng.idleEntries (entry :: rest)) eng.view
          (flushLoop setup env second rest eng₂).view := by
      intro eng₂ hsteps hidle
      rw [← hview]
      have hfirst : EnterEngineSteps setup (eng.idleEntries (entry :: rest)) eng₁.view
          eng₂.view := by
        apply EnterEngineSteps.mono ?_ hsteps
        intro e he
        obtain ⟨hmem, hstate⟩ := mem_idleEntries.mp he
        rw [List.mem_singleton] at hmem
        exact mem_idleEntries.mpr ⟨by simp [hmem], hstate⟩
      apply hfirst.trans
      refine @EnterEngineSteps.mono _ (eng₂.idleEntries rest) _ _ _ ?_ ?_
      · intro e he
        obtain ⟨hmem, hstate⟩ := mem_idleEntries.mp he
        exact mem_idleEntries.mpr ⟨List.mem_cons_of_mem _ hmem, hidle e.key hstate⟩
      apply ih
      intro e he
      obtain ⟨hk, hb⟩ := hentries e (List.mem_cons_of_mem _ he)
      refine ⟨hk, hsteps.hasBar e.key ?_⟩
      rw [hview]
      exact hb
    split
    · -- the pool is empty: the source leaves the loop and drops the rest of the list
      rw [← hview]
      exact Lib.Chain.refl _
    · split
      · -- the pair is idle: `maybe_enter` acts on it with its share of the pool
        rename_i hidle
        have hself : entry ∈ eng.idleEntries [entry] :=
          mem_idleEntries.mpr ⟨List.mem_singleton_self entry, hidle⟩
        apply hrest
        · rw [view_putBack]
          have hbar₁ : (eng₁.stateOf entry.key).lastBar.isSome = true := by
            have hsame : (eng₁.view.lastBar entry.key).isSome = true := by rw [hview]; exact hbar
            exact hsame
          exact Steps.lift rfl (fun _ _ ha => ⟨entry, hself, rfl, ha⟩)
            (maybeEnter_steps eng₁.desk (eng₁.stateOf entry.key) entry _ hidle hbar₁ hkey)
        · intro key hkey'
          rw [stateOf_putBack] at hkey'
          -- only the entry's own pair has changed, and it was idle before
          split at hkey'
          · rename_i heq
            rw [heq]
            exact hidle
          · exact hkey'
      · -- the pair already has an order: the entry is passed over
        apply hrest
        · rw [view_putBack, ← slot_view eng₁ entry.key, View.put_slot_self]
          exact Lib.Chain.refl _
        · intro key hkey'
          rw [stateOf_putBack] at hkey'
          split at hkey'
          · rename_i heq
            rw [heq]
            exact hkey'
          · exact hkey'

theorem flushLoop_pendingEntries (second : ℤ) (entries : List PendingEntry) (eng : TradeEngine) :
    (flushLoop setup env second entries eng).pendingEntries = eng.pendingEntries := by
  induction entries generalizing eng with
  | nil => rfl
  | cons entry rest ih =>
    unfold flushLoop
    simp only
    generalize (if setup.cfg.balanceTotalUsd > 0 then _ else _ : TradeRiskState × ℚ) = pool
    split
    · rfl
    · split
      · rw [ih]; rfl
      · rw [ih]; rfl

theorem mem_rankEntries {alphaType : AlphaType} {topK : ℕ} {entries : List PendingEntry}
    {entry : PendingEntry} (h : entry ∈ rankEntries alphaType topK entries) : entry ∈ entries := by
  unfold rankEntries at h
  simp only at h
  have hsorted : ∀ e ∈ (entries.filter fun e => e.alphaType = alphaType).insertionSort
      (fun a b => b.confScore ≤ a.confScore), e ∈ entries := by
    intro e he
    rw [List.mem_insertionSort] at he
    exact List.mem_of_mem_filter he
  split at h
  · exact hsorted entry (List.mem_of_mem_take h)
  · exact hsorted entry h

theorem mem_rankedEntries {cfg : TradeConfig} {entries : List PendingEntry} {entry : PendingEntry}
    (h : entry ∈ rankEntries .shockA cfg.rankTopKA entries ++
      rankEntries .gapB cfg.rankTopKB entries) : entry ∈ entries := by
  rcases List.mem_append.mp h with h | h
  · exact mem_rankEntries h
  · exact mem_rankEntries h

/-- The entries that a bar of this second flushes and whose pair is idle. -/
def dueEntries (setup : Setup) (eng : TradeEngine) (currentBarSecond : ℤ) : List PendingEntry :=
  match eng.pendingSecond with
  | none => []
  | some second =>
    if second ≥ currentBarSecond then []
    else eng.idleEntries (rankEntries .shockA setup.cfg.rankTopKA eng.pendingEntries ++
      rankEntries .gapB setup.cfg.rankTopKB eng.pendingEntries)

theorem flushPendingEntries_steps (eng : TradeEngine) (currentBarSecond : ℤ)
    (hinv : eng.Inv setup) :
    EnterEngineSteps setup (dueEntries setup eng currentBarSecond) eng.view
        (flushPendingEntries setup env eng currentBarSecond).view ∧
      ∀ entry ∈ (flushPendingEntries setup env eng currentBarSecond).pendingEntries,
        entry ∈ eng.pendingEntries := by
  have hranked := fun entry => @mem_rankedEntries setup.cfg eng.pendingEntries entry
  unfold flushPendingEntries dueEntries
  cases hsecond : eng.pendingSecond with
  | none => exact ⟨Lib.Chain.refl _, fun _ h => h⟩
  | some second =>
    simp only
    by_cases hlate : second ≥ currentBarSecond
    · -- the pending second is not over yet
      simp only [if_pos hlate]
      exact ⟨Lib.Chain.refl _, fun _ h => h⟩
    · simp only [if_neg hlate]
      split
      · -- no entry survived the ranking
        exact ⟨Lib.Chain.refl _, by simp⟩
      · constructor
        · split
          · -- the flushed second gets a fresh pool, which the view does not see
            have hreset := view_withRisk eng.desk _
              (counters_resetEntryPool setup.cfg eng.desk.books second)
            have hview := view_withDesk
              { eng with pendingSecond := none, pendingEntries := [], pendingKeys := ∅ } hreset
            have hloop := @flushLoop_steps setup env second _
              { eng with
                desk := { eng.desk with books := { eng.desk.books with
                  risk := eng.desk.books.risk.resetEntryPool setup.cfg second } }
                pendingSecond := none, pendingEntries := [], pendingKeys := ∅ }
              (fun entry he => by
                rw [hview]
                exact hinv.pending entry (hranked entry he))
            rw [hview] at hloop
            exact hloop
          · exact flushLoop_steps second _
              { eng with pendingSecond := none, pendingEntries := [], pendingKeys := ∅ }
              (fun entry he => hinv.pending entry (hranked entry he))
        · -- the flush has taken every pending entry
          intro entry h
          rw [flushLoop_pendingEntries] at h
          split at h
          · cases h
          · cases h

end TradeEngine

theorem checkCooldown_steps {key : PairKey} (desk : Desk) (st : PairTradeState) (barSecond : ℤ) :
    CheckSteps setup key (slotOf (desk, st)) (slotOf (desk, st.checkCooldown barSecond)) := by
  rcases st.checkCooldown_cases barSecond with hsame | ⟨hstate, hidle⟩
  · have hslot : slotOf (desk, st.checkCooldown barSecond) = slotOf (desk, st) := by
      simp [slotOf, hsame]
    rw [hslot]
    exact Lib.Chain.refl _
  · have hslot : slotOf (desk, st.checkCooldown barSecond) =
        { slotOf (desk, st) with order := OrderState.idle } := by
      simp [slotOf, hidle]
    rw [hslot]
    exact (Upkeep.expire (s := slotOf (desk, st)) hstate).steps.checking

namespace TradeEngine

theorem barCheck_steps {key : PairKey} (signals : List ShockSignal) (desk : Desk)
    (st : PairTradeState) (bar : Bars1sPair) (flow : PmFlow) (basePm : ℚ)
    (hwf : st.toOrderState.Wf setup.isLive st.lastBar.isSome)
    (hbar : st.lastBar.isSome = true) :
    CheckSteps setup key (slotOf (desk, st))
      (slotOf (barCheck setup env signals desk st bar flow basePm key)) := by
  have hpeak : slotOf (desk, st.updatePeak flow.pmMove st.direction) = slotOf (desk, st) := by
    simp [slotOf]
  have hentry : st.toOrderState.Entering → CheckSteps setup key (slotOf (desk, st))
      (slotOf (checkEntry setup env signals desk (st.updatePeak flow.pmMove st.direction) bar flow
        key)) := by
    intro hent
    rw [← hpeak]
    apply checkEntry_steps
    · simpa using hent
    · intro hdry
      simpa using hwf.dry hdry
    · simpa using hbar
  have hexit : st.toOrderState.Open → CheckSteps setup key (slotOf (desk, st))
      (slotOf (checkExit setup env signals desk (st.updatePeak flow.pmMove st.direction) bar flow
        basePm key)) := by
    intro hopen
    rw [← hpeak]
    exact (checkExit_steps signals desk _ bar flow basePm (by simpa using hopen)).checking
  unfold barCheck
  -- one case per arm of the match on the state
  cases hstate : st.state with
  | idle => exact Lib.Chain.refl _
  | entryReady => exact hentry (Or.inl hstate)
  | entryPlacing => exact hentry (Or.inr (Or.inl hstate))
  | entryWorking => exact hentry (Or.inr (Or.inr hstate))
  | positionOpen => exact hexit (Or.inl hstate)
  | exitWorking => exact hexit (Or.inr hstate)
  | cooldown => exact checkCooldown_steps desk st bar.barSecond

theorem view_queueEntry (eng : TradeEngine) (entry : PendingEntry) :
    (eng.queueEntry entry).view = eng.view := by
  simp only [queueEntry]
  split
  · split <;> rfl
  · split
    · split <;> rfl
    · split <;> rfl

theorem mem_queueEntry {eng : TradeEngine} {entry e : PendingEntry}
    (h : e ∈ (eng.queueEntry entry).pendingEntries) : e ∈ eng.pendingEntries ∨ e = entry := by
  have happend : ∀ {es : List PendingEntry}, e ∈ es ++ [entry] → e ∈ es ∨ e = entry := by
    intro es he
    simpa using he
  simp only [queueEntry] at h
  split at h
  · split at h
    · -- the pair is already pending for this second
      exact Or.inl h
    · exact happend h
  · split at h
    · split at h
      · -- a later second starts a new list with this entry alone
        cases h
      · exact Or.inr (by simpa using h)
    · split at h
      · exact Or.inl h
      · exact happend h

theorem updateBasePm_slot (cfg : TradeConfig) (desk : Desk) (st : PairTradeState)
    (bar : Bars1sPair) : slotOf (desk, updateBasePm cfg st bar) = slotOf (desk, st) := by
  unfold updateBasePm
  split <;> rfl

theorem recordBar_slot (desk : Desk) (st : PairTradeState) (bar : Bars1sPair) (flow : PmFlow)
    (basePm : ℚ) :
    slotOf (desk, recordBar st bar flow basePm) =
      { slotOf (desk, st) with lastBar := some bar } := by
  simp only [recordBar]
  split <;> simp [slotOf]

theorem lastBar_put_self (v : View) (key : PairKey) (s : Slot) :
    (v.put key s).lastBar key = s.lastBar := by
  simp [View.put]

/-- `handle_bar`: the entries that are due are flushed, then the bar's pair is checked. -/
theorem handleBar_steps (eng : TradeEngine) (bar : Bars1sPair) (signal : Option EntrySignal)
    (hinv : eng.Inv setup) :
    CheckEngineSteps setup (flushPendingEntries setup env eng bar.barSecond).view
        (handleBar setup env eng bar signal).view ∧
      ∀ entry ∈ (handleBar setup env eng bar signal).pendingEntries,
        entry ∈ eng.pendingEntries ∨
          (entry.key = (entry.bar.pairId, entry.bar.tokenSide) ∧
            ((handleBar setup env eng bar signal).view.lastBar entry.key).isSome = true) := by
  obtain ⟨hflush, hpending⟩ := @flushPendingEntries_steps setup env eng bar.barSecond hinv
  have hview₁ : (flushPendingEntries setup env eng bar.barSecond).view.Inv setup :=
    hflush.inv ⟨hinv.wf, hinv.bars⟩
  unfold handleBar
  generalize flushPendingEntries setup env eng bar.barSecond = eng₁ at hflush hpending hview₁
  set key : PairKey := (bar.pairId, bar.tokenSide) with hkey
  have hbase := updateBasePm_slot setup.cfg eng₁.desk (eng₁.stateOf key) bar
  simp only
  generalize updateBasePm setup.cfg (eng₁.stateOf key) bar = st at hbase
  split
  · -- no usable prices: only the cooldown is looked at
    constructor
    · rw [view_putBack]
      exact (checkCooldown_steps eng₁.desk st bar.barSecond).lift (by rw [slot_view, hbase])
    · intro entry he
      exact Or.inl (hpending entry he)
  · rename_i pmMid basePm _
    generalize hflow : PmFlow.mk ((pmMid - basePm) / basePm)
      ((st.lastPmMove.map fun x => (pmMid - basePm) / basePm - x).getD 0)
      (bar.polyOfi250ms.getD 0) = flow
    have hrecord := recordBar_slot eng₁.desk st bar flow basePm
    generalize hst₁ : recordBar st bar flow basePm = st₁ at hrecord
    have hsaw : CheckSteps setup key (eng₁.view.slot key) (slotOf (eng₁.desk, st₁)) := by
      rw [hrecord, slot_view, ← hbase]
      exact (Upkeep.sawBar (s := slotOf (eng₁.desk, st)) bar rfl).steps.checking
    have hwf₁ := Steps.wf hsaw (hview₁.wf key)
    have hbar₁ : st₁.lastBar.isSome = true := by
      have hlast : (slotOf (eng₁.desk, st₁)).lastBar = some bar := by rw [hrecord]
      simp only [slotOf_lastBar] at hlast
      rw [hlast]
      rfl
    have hcheck := @barCheck_steps setup env key
      (eng₁.shockSignals key) eng₁.desk st₁ bar flow basePm hwf₁ hbar₁
    generalize barCheck setup env (eng₁.shockSignals key) eng₁.desk st₁ bar flow basePm key = done
      at hcheck
    obtain ⟨desk, st₂⟩ := done
    simp only
    have hopi : slotOf (desk, st₂.updateOpiSnapshot bar) = slotOf (desk, st₂) := by
      simp [slotOf]
    have hput : CheckEngineSteps setup eng₁.view
        (eng₁.putBack key (desk, st₂.updateOpiSnapshot bar)).view := by
      rw [view_putBack, hopi]
      exact CheckSteps.lift rfl (hsaw.trans hcheck)
    split
    · rw [view_queueEntry]
      refine ⟨hput, ?_⟩
      intro entry he
      rcases mem_queueEntry he with he | rfl
      · exact Or.inl (hpending entry he)
      · refine Or.inr ⟨rfl, ?_⟩
        have hseen : (eng₁.view.put key (slotOf (eng₁.desk, st₁))).lastBar key =
            st₁.lastBar := lastBar_put_self _ _ _
        have hlift := CheckSteps.lift (v := eng₁.view.put key (slotOf (eng₁.desk, st₁)))
          (View.slot_put_self _ _ _) hcheck
        have hmono := hlift.hasBar key (by rw [hseen]; exact hbar₁)
        rw [View.put_put, ← hopi, ← view_putBack] at hmono
        exact hmono
    · exact ⟨hput, fun entry he => Or.inl (hpending entry he)⟩

/-- One pair of `cancel_check_tick`. -/
theorem tickPair_steps (eng : TradeEngine) (key : PairKey) (hv : eng.view.Inv setup) :
    CheckEngineSteps setup eng.view (tickPair setup env eng key).view := by
  unfold tickPair
  apply onKnown_steps eng (fun _ a => a.Checking) (fun _ _ ha => ha)
  intro _
  have hwf := hv.wf key
  split
  · -- no bar seen yet: the tick passes the pair over
    exact Lib.Chain.refl _
  · rename_i bar hbar
    split
    · rename_i hstate
      -- `EntryWorking`: the same checks as after a bar
      apply checkEntry_steps
      · exact Or.inr (Or.inr hstate)
      · intro hdry
        exact hwf.dry hdry
      · rw [hbar]
        rfl
    · rename_i hstate
      -- `ExitWorking`, with the flow of the last bar
      simp only
      split
      · exact (checkExit_steps _ _ _ _ _ _ (Or.inr hstate)).checking
      · exact Lib.Chain.refl _
    · -- no order is working
      exact Lib.Chain.refl _

theorem onKnown_pendingEntries (eng : TradeEngine) (key : PairKey)
    (f : PairTradeState → Desk × PairTradeState) :
    (eng.onKnown key f).pendingEntries = eng.pendingEntries := by
  unfold onKnown
  split <;> rfl

/-- `cancel_check_tick`. -/
theorem cancelCheckTick_steps (eng : TradeEngine) (order : List PairKey)
    (hv : eng.view.Inv setup) :
    CheckEngineSteps setup eng.view (cancelCheckTick setup env eng order).view ∧
      (cancelCheckTick setup env eng order).pendingEntries = eng.pendingEntries := by
  unfold cancelCheckTick
  induction order generalizing eng with
  | nil => exact ⟨Lib.Chain.refl _, rfl⟩
  | cons key rest ih =>
    have htick := @tickPair_steps setup env eng key hv
    obtain ⟨hrest, hpending⟩ := ih (tickPair setup env eng key) (htick.inv hv)
    refine ⟨htick.trans hrest, ?_⟩
    rw [List.foldl_cons, hpending]
    exact onKnown_pendingEntries _ _ _

end TradeEngine

/-! ## Fills and cancellations -/

/-- What a message with these fills may do to a pair in the state `st`. -/
def FillAllow (st : PairTradeState) (entry exit : Prop) (fills : List TradeFill) (s : Slot)
    (a : Act) : Prop :=
  a = .upkeep ∨ (entry ∧ EntryFillAllow st fills s a) ∨ (exit ∧ ExitFillAllow fills s a)

/-- What an update that cancels this order may do to a pair in the state `st`. -/
def CancelAllow (st : PairTradeState) (orderId : String) (_ : Slot) (a : Act) : Prop :=
  a = .upkeep ∨ (st.entryOrderId = some orderId ∧ a = .cancelEntry (.update orderId)) ∨
    (st.exitOrderId = some orderId ∧ a = .cancelExit (.update orderId))

/-- What a message may do.  Fills are taken by the order they name, cancellations
are those that the message reports or, for a response, those that it confirms. -/
def MessageAllow (setup : Setup) (env : Env) (eng : TradeEngine) :
    TradeMessage → PairKey → Slot → Act → Prop
  | .pairBar _ _, _, _, a => a.Routine
  | .shock _ _, _, _, a => a.Routine
  | .cancelCheckTick _, _, _, a => a.Checking
  | .orderUpdate update, key, s, a =>
    key = (update.pairId, update.tokenSide) ∧
      if update.isCancel = true then CancelAllow (eng.stateOf key) update.orderId s a
      else if update.isFillUpdate = true ∨ update.filled.getD 0 > 0 then
        FillAllow (eng.stateOf key) ((eng.stateOf key).entryOrderId = some update.orderId)
          ((eng.stateOf key).exitOrderId = some update.orderId) [update.fill env.now] s a
      else a = .upkeep
  | .tradeRecord record, key, s, a =>
    key = (record.pairId, record.tokenSide) ∧
      FillAllow (eng.stateOf key) ((eng.stateOf key).entryOrderId = some record.orderId)
        ((eng.stateOf key).exitOrderId = some record.orderId) [record.fill env.now] s a
  | .orderResponse (.placeChase id pairKey result), key, _, a =>
    key = pairKey ∧ (a = .upkeep ∨ a = .placed id result ∨ a = .refused id)
  | .orderResponse (.cancelOrder id orderId result), key, _, a =>
    a = .upkeep ∨
      ((result.ok = true ∨ (TradeEngine.verifyCancel setup env eng key orderId result).2 = true) ∧
        (a = .cancelEntry (.ack id) ∨ a = .cancelExit (.ack id)))
  | .orderResponse (.fetchFills id pairKey kind result), key, s, a =>
    key = pairKey ∧
      FillAllow (eng.stateOf key) ((eng.stateOf key).fillPollReqId = some id ∧ kind = .entry)
        ((eng.stateOf key).fillPollReqId = some id ∧ kind = .exit) result.fills s a

section Pair

variable {key : PairKey}

theorem applyWsFills_steps (signals : List ShockSignal) (desk : Desk) (st : PairTradeState)
    (matchesEntry matchesExit : Bool) (fills : List TradeFill)
    (hbars : ∀ bar, st.lastBar = some bar → key = (bar.pairId, bar.tokenSide)) :
    Steps setup key (FillAllow st (matchesEntry = true) (matchesExit = true) fills)
      (slotOf (desk, st))
      (slotOf (applyWsFills setup env signals desk st key matchesEntry matchesExit fills)) := by
  unfold applyWsFills
  split
  · -- no bar seen yet: the fills are ignored
    exact Lib.Chain.refl _
  · rename_i bar hbar
    split
    · -- no fills
      exact Lib.Chain.refl _
    · simp only
      -- the poll fields that are reset are no part of the slot
      set desk₁ : Desk := { desk with
        req := { desk.req with fillPollBackoffMs := 0, fillPollBackoffUntilMs := none } }
      set st₁ : PairTradeState :=
        { st with fillPollReqId := none, lastFillPollMs := some env.now }
      have hbar₁ : st₁.lastBar.isSome = true := by
        show st.lastBar.isSome = true
        rw [hbar]
        rfl
      have hentry : Steps setup key (FillAllow st (matchesEntry = true) (matchesExit = true) fills)
          (slotOf (desk, st))
          (slotOf (if matchesEntry = true then
            applyEntryFillsAndCheck setup env signals desk₁ st₁ bar st.lastFlow fills key
          else (desk₁, st₁))) := by
        split
        · rename_i hmatch
          have hsteps := @applyEntryFillsAndCheck_steps setup env key
            signals desk₁ st₁ bar st.lastFlow fills hbar₁
          apply Lib.Chain.mono ?_ hsteps
          intro s a ha
          exact Or.inr (Or.inl ⟨hmatch, ha⟩)
        · exact Lib.Chain.refl _
      have hseen : ∀ t : Slot, Steps setup key
          (FillAllow st (matchesEntry = true) (matchesExit = true) fills) (slotOf (desk, st)) t →
          t.lastBar.isSome = true := by
        intro t ht
        apply Lib.Chain.inv (fun t => t.lastBar.isSome = true) ?_ ht hbar₁
        intro s a t hs _ hmove
        rcases hmove.lastBar with hsame | ⟨bar', hbar', _⟩
        · rw [hsame]
          exact hs
        · rw [hbar']
          rfl
      -- the exit side runs in the state the entry side leaves, which has still seen a bar
      have hbar₂ := hseen _ hentry
      apply hentry.trans
      generalize (if matchesEntry = true then
        applyEntryFillsAndCheck setup env signals desk₁ st₁ bar st.lastFlow fills key
        else (desk₁, st₁)) = mid at hbar₂
      obtain ⟨desk₂, st₂⟩ := mid
      simp only
      split
      · rename_i hmatch
        have hsteps := @applyExitFills_steps setup key desk₂ st₂ bar fills hbar₂
          (hbars bar hbar)
        apply Lib.Chain.mono ?_ hsteps
        intro s a ha
        exact Or.inr (Or.inr ⟨hmatch, ha⟩)
      · exact Lib.Chain.refl _

end Pair

namespace TradeEngine

theorem applyOrderUpdate_cancel {key : PairKey} (eng : TradeEngine)
    (update : OpinionUserOrderUpdate) (desk : Desk) (st : PairTradeState)
    (hcancel : update.isCancel = true)
    (hmatch : st.entryOrderId = some update.orderId ∨ st.exitOrderId = some update.orderId) :
    Steps setup key (CancelAllow st update.orderId) (slotOf (desk, st))
      (slotOf (applyOrderUpdate setup env eng update key desk st
        (decide (st.entryOrderId = some update.orderId))
        (decide (st.exitOrderId = some update.orderId)))) := by
  unfold applyOrderUpdate
  rw [if_pos hcancel]
  -- the entry is asked first, so an id that both carry cancels the entry
  by_cases hentry : st.entryOrderId = some update.orderId
  · have hallow : CancelAllow st update.orderId (slotOf (desk, st))
        (.cancelEntry (.update update.orderId)) := Or.inr (Or.inl ⟨hentry, rfl⟩)
    rw [if_pos (decide_eq_true hentry)]
    exact Lib.Chain.single hallow (@entryCancelled_move setup key
      { desk with req := desk.req.clearCancelRetry update.orderId } st
      { st with toOrderState := st.toOrderState.dropEntryCancel } (.update update.orderId)
      hentry (by simp) rfl rfl rfl (fun _ => rfl))
  · have hexit : st.exitOrderId = some update.orderId := hmatch.resolve_left hentry
    have hallow : CancelAllow st update.orderId (slotOf (desk, st))
        (.cancelExit (.update update.orderId)) := Or.inr (Or.inr ⟨hexit, rfl⟩)
    rw [if_neg (by simpa using hentry)]
    exact Steps.one hallow
      (Move.cancelExit (s := slotOf (desk, st)) (.update update.orderId) hexit) rfl

theorem applyOrderUpdate_fill {key : PairKey} (eng : TradeEngine)
    (update : OpinionUserOrderUpdate) (desk : Desk) (st : PairTradeState)
    (hcancel : ¬ update.isCancel = true)
    (hbars : ∀ bar, st.lastBar = some bar → key = (bar.pairId, bar.tokenSide)) :
    Steps setup key
      (fun s a =>
        if update.isFillUpdate = true ∨ update.filled.getD 0 > 0 then
          FillAllow st (st.entryOrderId = some update.orderId)
            (st.exitOrderId = some update.orderId) [update.fill env.now] s a
        else a = .upkeep) (slotOf (desk, st))
      (slotOf (applyOrderUpdate setup env eng update key desk st
        (decide (st.entryOrderId = some update.orderId))
        (decide (st.exitOrderId = some update.orderId)))) := by
  unfold applyOrderUpdate
  rw [if_neg hcancel]
  split
  · rename_i hfill
    have hsteps := @applyWsFills_steps setup env key
      (eng.shockSignals key) desk st (decide (st.entryOrderId = some update.orderId))
      (decide (st.exitOrderId = some update.orderId)) [update.fill env.now] hbars
    simpa only [decide_eq_true_eq, if_pos hfill] using hsteps
  · -- neither a cancel nor a fill: at most a poll is queued
    rename_i hfill
    split
    · cases hpoll : desk.req.maybeEnqueueFillPoll setup env st key
        (if decide (st.entryOrderId = some update.orderId) = true then FillKind.entry
          else FillKind.exit) with
      | mk req st₁ =>
        simp only
        have hsteps := (maybeEnqueueFillPoll_steps desk st _ hpoll).1
        simpa only [if_neg hfill] using hsteps
    · exact Lib.Chain.refl _

/-- `handle_opinion_order_update`. -/
theorem handleOpinionOrderUpdate_steps (eng : TradeEngine) (update : OpinionUserOrderUpdate)
    (hinv : eng.view.Inv setup) :
    EngineSteps setup (fun v a => MessageAllow setup env eng (.orderUpdate update) a.1 (v.slot a.1)
      a.2) eng.view (handleOpinionOrderUpdate setup env eng update).view := by
  unfold handleOpinionOrderUpdate
  simp only
  set key : PairKey := (update.pairId, update.tokenSide)
  apply onKnown_steps (noteUserMessage env eng)
    (fun s a => MessageAllow setup env eng (.orderUpdate update) key s a)
    (fun _ _ ha => ha)
  intro _
  have hst : (noteUserMessage env eng).stateOf key = eng.stateOf key := rfl
  rw [hst]
  split
  · rename_i hmatch
    simp only [Bool.or_eq_true, decide_eq_true_eq] at hmatch
    by_cases hcancel : update.isCancel = true
    · have hsteps := @applyOrderUpdate_cancel setup env key
        (noteUserMessage env eng) update (noteUserMessage env eng).desk (eng.stateOf key) hcancel
        hmatch
      apply Lib.Chain.mono ?_ hsteps
      intro s a ha
      refine ⟨rfl, ?_⟩
      rwa [if_pos hcancel]
    · have hsteps := @applyOrderUpdate_fill setup env key
        (noteUserMessage env eng) update (noteUserMessage env eng).desk (eng.stateOf key) hcancel
        (fun bar hbar => hinv.bars key bar hbar)
      apply Lib.Chain.mono ?_ hsteps
      intro s a ha
      refine ⟨rfl, ?_⟩
      rwa [if_neg hcancel]
  · -- the update names neither order
    exact Lib.Chain.refl _

/-- `handle_opinion_trade_record`. -/
theorem handleOpinionTradeRecord_steps (eng : TradeEngine) (record : OpinionUserTradeRecord)
    (hinv : eng.view.Inv setup) :
    EngineSteps setup (fun v a => MessageAllow setup env eng (.tradeRecord record) a.1 (v.slot a.1)
      a.2) eng.view (handleOpinionTradeRecord setup env eng record).view := by
  unfold handleOpinionTradeRecord
  simp only
  set key : PairKey := (record.pairId, record.tokenSide)
  apply onKnown_steps (noteUserMessage env eng)
    (fun s a => MessageAllow setup env eng (.tradeRecord record) key s a)
    (fun _ _ ha => ha)
  intro _
  have hst : (noteUserMessage env eng).stateOf key = eng.stateOf key := rfl
  rw [hst]
  split
  · have hsteps := @applyWsFills_steps setup env key
      ((noteUserMessage env eng).shockSignals key) (noteUserMessage env eng).desk
      (eng.stateOf key) (decide ((eng.stateOf key).entryOrderId = some record.orderId))
      (decide ((eng.stateOf key).exitOrderId = some record.orderId)) [record.fill env.now]
      (fun bar hbar => hinv.bars key bar hbar)
    simp only [decide_eq_true_eq] at hsteps
    apply Lib.Chain.mono ?_ hsteps
    intro s a ha
    exact ⟨rfl, ha⟩
  · -- the record names neither order
    exact Lib.Chain.refl _

end TradeEngine

/-! ## Responses -/

namespace TradeEngine

variable (eng : TradeEngine)

theorem applyPlaceResult_steps {key : PairKey} (st : PairTradeState) (entry : PendingEntry)
    (reqId : ℕ) (result : PlaceResult) (hreq : st.entryPlaceReqId = some reqId)
    (hentry : st.pendingEntry = some entry) :
    Steps setup key (fun _ a => a = .upkeep ∨ a = .placed reqId result ∨ a = .refused reqId)
      (slotOf (eng.desk, st))
      (slotOf (applyPlaceResult setup env eng
        { st with entryPlaceReqId := none, pendingEntry := none } entry key result)) := by
  unfold applyPlaceResult
  simp only
  split
  · -- the order was placed: its exposure is counted
    rename_i hok
    rw [Option.isSome_map] at hok
    refine Steps.one (a := .placed reqId result) (Or.inr (Or.inl rfl))
      (Move.placed (s := slotOf (eng.desk, st)) reqId result entry _ _ env.now hreq hentry hok rfl
        rfl) ?_
    simp only [slotOf, Desk.view, counters_addExposure]
  · -- refused: what the entry had drawn from the pool is given back
    refine Steps.one (a := .refused reqId) (Or.inr (Or.inr rfl))
      (Move.refused (s := slotOf (eng.desk, st)) reqId hreq) ?_
    simp only [slotOf, Desk.view, counters_releaseEntryPool]
    rfl

theorem handleEntryPlaceResult_steps (pairKey : PairKey) (reqId : ℕ) (result : PlaceResult) :
    EngineSteps setup (fun v a => MessageAllow setup env eng
        (.orderResponse (.placeChase reqId pairKey result)) a.1 (v.slot a.1) a.2)
      eng.view (handleEntryPlaceResult setup env eng pairKey reqId result).view := by
  unfold handleEntryPlaceResult
  apply onKnown_steps eng (fun s a => MessageAllow setup env eng
    (.orderResponse (.placeChase reqId pairKey result)) pairKey s a) (fun _ _ ha => ha)
  intro _
  split
  · -- the pair waits for another response
    exact Lib.Chain.refl _
  · rename_i hreq
    simp only [ne_eq, not_not] at hreq
    simp only
    split
    · -- the entry is gone while its response was on the way
      rename_i hnone
      refine Steps.one (a := .upkeep) ⟨rfl, Or.inl rfl⟩
        (Move.upkeep (Upkeep.stray (s := slotOf (eng.desk, eng.stateOf pairKey)) reqId hreq
          hnone)) ?_
      simp only [slotOf, hnone]
    · rename_i entry hentry
      apply Lib.Chain.mono ?_ (applyPlaceResult_steps eng (eng.stateOf pairKey) entry reqId result
        hreq hentry)
      intro s a ha
      exact ⟨rfl, ha⟩

theorem handleFillResponse_steps (pairKey : PairKey) (reqId : ℕ) (kind : FillKind)
    (result : FillPollResult) (hinv : eng.view.Inv setup) :
    EngineSteps setup (fun v a => MessageAllow setup env eng
        (.orderResponse (.fetchFills reqId pairKey kind result)) a.1 (v.slot a.1) a.2)
      eng.view (handleFillResponse setup env eng pairKey reqId kind result).view := by
  unfold handleFillResponse
  apply onKnown_steps eng (fun s a => MessageAllow setup env eng
    (.orderResponse (.fetchFills reqId pairKey kind result)) pairKey s a) (fun _ _ ha => ha)
  intro _
  split
  · -- the response of an earlier poll
    exact Lib.Chain.refl _
  · rename_i hreq
    simp only [ne_eq, not_not] at hreq
    simp only
    have hback := Requests.updateFillPollBackoff_queue setup env eng.desk.req result.rateLimited
      result.error.isNone
    set desk : Desk := { eng.desk with
      req := eng.desk.req.updateFillPollBackoff setup env result.rateLimited result.error.isNone }
    set st : PairTradeState := { eng.stateOf pairKey with fillPollReqId := none }
    -- the poll id and the backoff are no part of the slot
    have hslot : slotOf (desk, st) = slotOf (eng.desk, eng.stateOf pairKey) := by
      simp only [desk, st, slotOf, Desk.view, hback.1, hback.2]
    rw [← hslot]
    split
    · -- no bar seen yet
      exact Lib.Chain.refl _
    · rename_i bar hbar
      have hseen : st.lastBar.isSome = true := by rw [hbar]; rfl
      split
      · -- no fills
        exact Lib.Chain.refl _
      · split
        · have hsteps := @applyEntryFillsAndCheck_steps setup env
            pairKey (eng.shockSignals pairKey) desk st bar st.lastFlow result.fills hseen
          apply Lib.Chain.mono ?_ hsteps
          intro s a ha
          exact ⟨rfl, Or.inr (Or.inl ⟨⟨hreq, rfl⟩, ha⟩)⟩
        · have hsteps := @applyExitFills_steps setup pairKey desk st bar
            result.fills hseen (hinv.bars pairKey bar hbar)
          apply Lib.Chain.mono ?_ hsteps
          intro s a ha
          exact ⟨rfl, Or.inr (Or.inr ⟨⟨hreq, rfl⟩, ha⟩)⟩

theorem verifyCancel_queue (pairKey : PairKey) (orderId : String) (result : CancelResult) :
    (verifyCancel setup env eng pairKey orderId result).1.orderExec = eng.desk.req.orderExec ∧
      (verifyCancel setup env eng pairKey orderId result).1.nextOrderReqId =
        eng.desk.req.nextOrderReqId := by
  unfold verifyCancel
  split
  · exact Requests.isOrderOpenForCancel_queue setup env eng.desk.req pairKey orderId
  · exact ⟨rfl, rfl⟩

theorem noteCancel_queue (req : Requests) (pairKey : PairKey) (orderId : String)
    (result : CancelResult) (cancelOk : Bool) :
    (noteCancel setup env req pairKey orderId result cancelOk).orderExec = req.orderExec ∧
      (noteCancel setup env req pairKey orderId result cancelOk).nextOrderReqId =
        req.nextOrderReqId := by
  have hback := Requests.updateCancelBackoff_queue setup env req result
  unfold noteCancel
  simp only
  split
  · split
    · exact hback
    · exact hback
  · exact hback

theorem cancelOwner_spec {reqId : ℕ} {key : PairKey} (h : eng.cancelOwner reqId = some key) :
    (eng.stateOf key).entryCancelReqId = some reqId ∨
      (eng.stateOf key).exitCancelReqId = some reqId := by
  unfold cancelOwner at h
  simp only [Option.map_eq_some_iff] at h
  obtain ⟨e, hfind, hkey⟩ := h
  have hmem := List.mem_of_find?_eq_some hfind
  have htest := List.find?_some hfind
  simp only [Bool.or_eq_true, decide_eq_true_eq] at htest
  have hlookup : eng.states.lookup e.1 = some e.2 := AList.mem_lookup_iff.mpr hmem
  rw [← hkey, eng.stateOf_of_lookup hlookup]
  exact htest

theorem handleCancelResponse_steps (reqId : ℕ) (orderId : String) (result : CancelResult) :
    EngineSteps setup (fun v a => MessageAllow setup env eng
        (.orderResponse (.cancelOrder reqId orderId result)) a.1 (v.slot a.1) a.2)
      eng.view (handleCancelResponse setup env eng reqId orderId result).view := by
  unfold handleCancelResponse
  cases howner : eng.cancelOwner reqId with
  -- no pair waits for this response
  | none => exact Lib.Chain.refl _
  | some pairKey =>
    simp only
    have hverify := @verifyCancel_queue setup env eng pairKey orderId result
    cases hv : verifyCancel setup env eng pairKey orderId result with
    | mk req verified =>
      rw [hv] at hverify
      simp only at hverify ⊢
      have hnote := @noteCancel_queue setup env req pairKey orderId result
        (result.ok || verified)
      apply onKnown_steps eng (fun s a => MessageAllow setup env eng
        (.orderResponse (.cancelOrder reqId orderId result)) pairKey s a) (fun _ _ ha => ha)
      intro _
      have hallow : (result.ok || verified) = true → ∀ cause : Act,
          (cause = .cancelEntry (.ack reqId) ∨ cause = .cancelExit (.ack reqId)) →
          ∀ s, MessageAllow setup env eng (.orderResponse (.cancelOrder reqId orderId result))
            pairKey s cause := by
        intro hok cause hcause s
        refine Or.inr ⟨?_, hcause⟩
        rw [hv]
        simpa only [Bool.or_eq_true] using hok
      -- the bookkeeping of cancels is no part of the slot
      set desk : Desk := { eng.desk with
        req := noteCancel setup env req pairKey orderId result (result.ok || verified) }
      have hdesk : desk.view = eng.desk.view := by
        simp only [desk, Desk.view, hnote.1, hnote.2, hverify.1, hverify.2]
      have hslot : ∀ st, slotOf (desk, st) = slotOf (eng.desk, st) := by
        intro st
        simp only [slotOf, hdesk]
      rw [← hslot]
      split
      · -- the owner waits for it as the cancel of its entry
        rename_i hreq
        split
        · rename_i hok
          exact Lib.Chain.single (hallow hok _ (Or.inl rfl) _)
            (entryCancelled_move desk (eng.stateOf pairKey)
              { eng.stateOf pairKey with entryCancelReqId := none } (.ack reqId)
              hreq (by simp) rfl rfl rfl (fun _ => rfl))
        · exact Steps.one (a := .upkeep) (Or.inl rfl)
            (Move.upkeep (Upkeep.entryCancelFailed (s := slotOf (desk, eng.stateOf pairKey)))) rfl
      · -- otherwise as the cancel of its exit
        rename_i hreq
        have hexit := (cancelOwner_spec eng howner).resolve_left hreq
        split
        · rename_i hok
          exact Steps.one (hallow hok _ (Or.inr rfl) _)
            (Move.cancelExit (s := slotOf (desk, eng.stateOf pairKey)) (.ack reqId) hexit) rfl
        · exact Steps.one (a := .upkeep) (Or.inl rfl)
            (Move.upkeep (Upkeep.exitCancelFailed (s := slotOf (desk, eng.stateOf pairKey)))) rfl

/-! ## One message -/

/-- One message changes the view by moves that the message allows. -/
theorem handle_steps (message : TradeMessage) (hinv : eng.Inv setup) :
    EngineSteps setup (fun v a => MessageAllow setup env eng message a.1 (v.slot a.1) a.2)
      eng.view (handle setup env eng message).view := by
  have hview : eng.view.Inv setup := ⟨hinv.wf, hinv.bars⟩
  cases message with
  | pairBar bar signal =>
    -- the flush and the check are two chains, one after the other
    have hflush := (@flushPendingEntries_steps setup env eng bar.barSecond hinv).1
    have hcheck := (@handleBar_steps setup env eng bar signal hinv).1
    apply Lib.Chain.trans (Lib.Chain.mono ?_ hflush) (Lib.Chain.mono ?_ hcheck)
    · rintro _ a ⟨entry, _, _, ha⟩
      exact ha.routine
    · intro _ a ha
      exact Act.Checking.routine ha
  | shock pairKey signal => exact Lib.Chain.refl _
  | cancelCheckTick order => exact (cancelCheckTick_steps eng order hview).1
  | orderUpdate update => exact handleOpinionOrderUpdate_steps eng update hview
  | tradeRecord record => exact handleOpinionTradeRecord_steps eng record hview
  | orderResponse response =>
    cases response with
    | placeChase id pairKey result => exact handleEntryPlaceResult_steps eng pairKey id result
    | cancelOrder id orderId result => exact handleCancelResponse_steps eng id orderId result
    | fetchFills id pairKey kind result =>
      exact handleFillResponse_steps eng pairKey id kind result hview

/-- Only a bar queues entries. -/
theorem handle_pendingEntries (message : TradeMessage) (hinv : eng.Inv setup) :
    ∀ entry ∈ (handle setup env eng message).pendingEntries,
      entry ∈ eng.pendingEntries ∨
        (entry.key = (entry.bar.pairId, entry.bar.tokenSide) ∧
          ((handle setup env eng message).view.lastBar entry.key).isSome = true) := by
  have hview : eng.view.Inv setup := ⟨hinv.wf, hinv.bars⟩
  have hsame : ∀ eng' : TradeEngine, eng'.pendingEntries = eng.pendingEntries →
      ∀ entry ∈ eng'.pendingEntries, entry ∈ eng.pendingEntries := by
    intro eng' h entry he
    rwa [h] at he
  cases message with
  | pairBar bar signal => exact (handleBar_steps eng bar signal hinv).2
  | shock pairKey signal => exact fun entry he => Or.inl he
  | cancelCheckTick order =>
    exact fun entry he => Or.inl (hsame _ (cancelCheckTick_steps eng order hview).2 entry he)
  | orderUpdate update =>
    intro entry he
    refine Or.inl (hsame (handleOpinionOrderUpdate setup env eng update) ?_ entry he)
    exact onKnown_pendingEntries (noteUserMessage env eng) _ _
  | tradeRecord record =>
    intro entry he
    refine Or.inl (hsame (handleOpinionTradeRecord setup env eng record) ?_ entry he)
    exact onKnown_pendingEntries (noteUserMessage env eng) _ _
  | orderResponse response =>
    intro entry he
    refine Or.inl (hsame (handleOrderResponse setup env eng response) ?_ entry he)
    cases response with
    | placeChase id pairKey result => exact onKnown_pendingEntries _ _ _
    | cancelOrder id orderId result =>
      simp only [handleOrderResponse, handleCancelResponse]
      split
      · rfl
      · exact onKnown_pendingEntries _ _ _
    | fetchFills id pairKey kind result => exact onKnown_pendingEntries _ _ _

/-- Every message keeps the engine well formed. -/
theorem handle_inv (message : TradeMessage) (hinv : eng.Inv setup) :
    (handle setup env eng message).Inv setup := by
  have hsteps := @handle_steps setup env eng message hinv
  have hview := hsteps.inv ⟨hinv.wf, hinv.bars⟩
  refine ⟨hview.wf, hview.bars, ?_⟩
  intro entry he
  -- an entry that was pending before keeps its bar, since bars are never forgotten
  rcases handle_pendingEntries eng message hinv entry he with hold | hnew
  · obtain ⟨hkey, hbar⟩ := hinv.pending entry hold
    exact ⟨hkey, hsteps.hasBar entry.key hbar⟩
  · exact hnew

theorem start_inv (now : ℤ) : (TradeEngine.start now).Inv setup := by
  refine ⟨?_, ?_, ?_⟩
  · intro key
    exact wf_idle _ _
  · intro key bar hbar
    cases hbar
  · intro entry he
    cases he

end TradeEngine

end AlphaMonitor.Trade
