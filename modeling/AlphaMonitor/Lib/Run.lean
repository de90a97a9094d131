import Mathlib.Data.List.Basic
import Mathlib.Logic.Function.Basic

/-!
# Runs of partial machines

A machine takes one event at a time and may refuse it.  A run is a list of
events that are all taken.  The rules below carry an invariant, or a property
that holds only while every step meets a guard, from one step to whole runs.

Nothing here mentions the monitor; the trading system, the shards and the pair
aggregator all instantiate these rules.
-/

namespace AlphaMonitor.Lib

variable {σ ε : Type*}

/-- A machine: the states it may start in, and its partial step function. -/
structure Machine (σ ε : Type*) where
  /-- States a run may start in. -/
  init : σ → Prop
  /-- One event; `none` when the event is not possible in the state. -/
  step : σ → ε → Option σ

namespace Machine

variable (M : Machine σ ε)

/-! ## Runs -/

/-- Take the events from left to right, or fail at the first refused one. -/
def run : σ → List ε → Option σ
  | s, [] => some s
  | s, e :: es => (M.step s e).bind (run · es)

/-- States that some run from an initial state ends in. -/
def Reachable (s : σ) : Prop :=
  ∃ s₀ es, M.init s₀ ∧ M.run s₀ es = some s

/-- Every step of the run meets the guard `G` in the state it is taken in. -/
def RunMeets (G : σ → ε → Prop) : σ → List ε → Prop
  | _, [] => True
  | s, e :: es => G s e ∧ ∀ s' ∈ M.step s e, RunMeets G s' es

instance decidableRunMeets {G : σ → ε → Prop} [∀ s e, Decidable (G s e)] :
    ∀ s es, Decidable (M.RunMeets G s es)
  | _, [] => inferInstanceAs (Decidable True)
  | s, e :: es =>
    have : ∀ s', Decidable (M.RunMeets G s' es) := fun s' => decidableRunMeets s' es
    inferInstanceAs (Decidable (G s e ∧ ∀ s' ∈ M.step s e, M.RunMeets G s' es))

@[simp] theorem run_nil (s : σ) : M.run s [] = some s := rfl

@[simp] theorem run_cons (s : σ) (e : ε) (es : List ε) :
    M.run s (e :: es) = (M.step s e).bind (M.run · es) := rfl

theorem run_append (s : σ) (xs ys : List ε) :
    M.run s (xs ++ ys) = (M.run s xs).bind (M.run · ys) := by
  induction xs generalizing s with
  | nil => rfl
  | cons e es ih =>
    simp only [List.cons_append, run_cons, Option.bind_assoc]
    congr 1
    funext s'
    exact ih s'

theorem run_cons_eq_some {s s' : σ} {e : ε} {es : List ε}
    (h : M.run s (e :: es) = some s') :
    ∃ t, M.step s e = some t ∧ M.run t es = some s' := by
  simpa only [run_cons, Option.bind_eq_some_iff] using h

theorem Reachable.step {s s' : σ} {e : ε}
    (h : M.Reachable s) (hs : M.step s e = some s') : M.Reachable s' := by
  obtain ⟨s₀, es, h₀, hr⟩ := h
  refine ⟨s₀, es ++ [e], h₀, ?_⟩
  rw [run_append, hr]
  simp [hs]

theorem runMeets_trivial (s : σ) (es : List ε) :
    M.RunMeets (fun _ _ => True) s es := by
  induction es generalizing s with
  | nil => trivial
  | cons e es ih => exact ⟨trivial, fun s' _ => ih s'⟩

theorem runMeets_of_forall {G : σ → ε → Prop} {es : List ε} (h : ∀ e ∈ es, ∀ s, G s e) (s : σ) :
    M.RunMeets G s es := by
  induction es generalizing s with
  | nil => trivial
  | cons e es ih =>
    exact ⟨h e List.mem_cons_self s,
      fun s' _ => ih (fun e' he' => h e' (List.mem_cons_of_mem e he')) s'⟩

theorem RunMeets.and {G H : σ → ε → Prop} {s : σ} {es : List ε} (hg : M.RunMeets G s es)
    (hh : M.RunMeets H s es) : M.RunMeets (fun s e => G s e ∧ H s e) s es := by
  induction es generalizing s with
  | nil => trivial
  | cons e es ih =>
    exact ⟨⟨hg.1, hh.1⟩, fun s' hstep => ih (hg.2 s' hstep) (hh.2 s' hstep)⟩

/-- A run meets a guard when its first part does, and the rest does from there. -/
theorem RunMeets.append {G : σ → ε → Prop} {s : σ} {xs ys : List ε} (hx : M.RunMeets G s xs)
    (hy : ∀ t, M.run s xs = some t → M.RunMeets G t ys) : M.RunMeets G s (xs ++ ys) := by
  induction xs generalizing s with
  | nil => exact hy s rfl
  | cons e xs ih =>
    refine ⟨hx.1, fun u hu => ih (hx.2 u hu) fun t ht => hy t ?_⟩
    rw [run_cons, hu]
    exact ht

/-- The guard is met where it is asked for, after any part of the run. -/
theorem RunMeets.at_step {G : σ → ε → Prop} {s t : σ} {xs ys : List ε} {e : ε}
    (h : M.RunMeets G s (xs ++ e :: ys)) (hr : M.run s xs = some t) : G t e := by
  induction xs generalizing s with
  | nil =>
    cases hr
    exact h.1
  | cons x xs ih =>
    obtain ⟨u, hu, hrest⟩ := M.run_cons_eq_some hr
    exact ih (h.2 u hu) hrest

/-- A run that does not meet a guard has a first step that does not. -/
theorem exists_of_not_runMeets {G : σ → ε → Prop} {s s' : σ} {es : List ε}
    (h : ¬M.RunMeets G s es) (hr : M.run s es = some s') :
    ∃ taken e rest t, es = taken ++ e :: rest ∧ M.run s taken = some t ∧ ¬G t e := by
  induction es generalizing s with
  | nil => exact (h trivial).elim
  | cons e es ih =>
    by_cases hg : G s e
    · obtain ⟨u, hu, hrest⟩ := M.run_cons_eq_some hr
      have hnot : ¬M.RunMeets G u es := by
        intro hmeets
        refine h ⟨hg, fun u' hu' => ?_⟩
        obtain rfl : u = u' := Option.some.inj (hu.symm.trans hu')
        exact hmeets
      obtain ⟨taken, e', rest, t, rfl, ht, hfails⟩ := ih hnot hrest
      refine ⟨e :: taken, e', rest, t, rfl, ?_, hfails⟩
      rw [run_cons, hu]
      exact ht
    · exact ⟨[], e, es, s, rfl, rfl, hg⟩

/-! ## Invariants -/

/-- An invariant that may mention the events taken so far, and that every step
keeps while the guard is met, holds at the end of every run that meets it. -/
theorem hist_of_runMeets {Inv : List ε → σ → Prop} {G : σ → ε → Prop}
    (hstep : ∀ hist s e s', Inv hist s → G s e → M.step s e = some s' → Inv (hist ++ [e]) s')
    {hist es : List ε} {s s' : σ} (hi : Inv hist s) (hg : M.RunMeets G s es)
    (hr : M.run s es = some s') : Inv (hist ++ es) s' := by
  induction es generalizing s hist with
  | nil =>
    cases hr
    simpa using hi
  | cons e es ih =>
    obtain ⟨t, ht, hrest⟩ := M.run_cons_eq_some hr
    have htail := ih (hstep hist s e t hi hg.1 ht) (hg.2 t ht) hrest
    simpa using htail

/-- An invariant that every step keeps while the guard is met holds at the end
of every run that meets the guard. -/
theorem inv_of_runMeets (Inv : σ → Prop) {G : σ → ε → Prop}
    (hstep : ∀ s e s', Inv s → G s e → M.step s e = some s' → Inv s')
    {s s' : σ} {es : List ε} (hi : Inv s) (hg : M.RunMeets G s es)
    (hr : M.run s es = some s') : Inv s' :=
  have hconst : ∀ (_hist : List ε) (s : σ) (e : ε) (s' : σ),
      Inv s → G s e → M.step s e = some s' → Inv s' := fun _ => hstep
  @hist_of_runMeets _ _ M (fun _ s => Inv s) G hconst [] es s s' hi hg hr

/-- Where every step keeps a property just in case it meets the guard, a run keeps it just in case
all its steps do. -/
theorem iff_runMeets (Inv P : σ → Prop) {G : σ → ε → Prop}
    (hinv : ∀ s e s', Inv s → M.step s e = some s' → Inv s')
    (hstep : ∀ s e s', Inv s → M.step s e = some s' → (P s' ↔ P s ∧ G s e))
    {s s' : σ} {es : List ε} (hi : Inv s) (hr : M.run s es = some s') :
    P s' ↔ P s ∧ M.RunMeets G s es := by
  induction es generalizing s with
  | nil =>
    cases hr
    exact (and_iff_left trivial).symm
  | cons e es ih =>
    obtain ⟨t, ht, hrest⟩ := M.run_cons_eq_some hr
    rw [ih (hinv s e t hi ht) hrest, hstep s e t hi ht, and_assoc]
    refine and_congr_right fun _ => and_congr_right fun _ => ?_
    constructor
    · intro hmeets t' ht'
      have htt' : t = t' := Option.some.inj (ht.symm.trans ht')
      exact htt' ▸ hmeets
    · exact fun hmeets => hmeets t ht

/-- Where a step keeps a property just in case it meets the guard, the property holds all along
a run just in case all its steps meet the guard. -/
theorem always_iff_runMeets (Inv P : σ → Prop) {G : σ → ε → Prop}
    (hinv : ∀ s e s', Inv s → M.step s e = some s' → Inv s')
    (hstep : ∀ s e s', Inv s → P s → M.step s e = some s' → (P s' ↔ G s e))
    {s s' : σ} {es : List ε} (hi : Inv s) (hP : P s) (hr : M.run s es = some s') :
    (∀ taken rest, es = taken ++ rest → ∀ t, M.run s taken = some t → P t) ↔
      M.RunMeets G s es := by
  induction es generalizing s with
  | nil =>
    constructor
    · intro _
      trivial
    · intro _ taken rest hsplit t ht
      obtain ⟨rfl, -⟩ := List.append_eq_nil_iff.mp hsplit.symm
      cases ht
      exact hP
  | cons e es ih =>
    obtain ⟨u, hu, hrest⟩ := M.run_cons_eq_some hr
    have hiu := hinv s e u hi hu
    constructor
    · intro halways
      have hPu : P u := halways [e] es rfl u (by simp [hu])
      refine ⟨(hstep s e u hi hP hu).mp hPu, fun u' hu' => ?_⟩
      obtain rfl : u = u' := Option.some.inj (hu.symm.trans hu')
      refine (ih hiu hPu hrest).mp fun taken rest hsplit t ht => ?_
      exact halways (e :: taken) rest (by rw [hsplit]; rfl) t (by simp [hu, ht])
    · rintro ⟨hg, hmeets⟩ taken rest hsplit t ht
      have hPu : P u := (hstep s e u hi hP hu).mpr hg
      cases taken with
      | nil =>
        cases ht
        exact hP
      | cons e' taken =>
        obtain ⟨rfl, htail⟩ := List.cons.inj hsplit
        obtain ⟨u', hu', ht⟩ := M.run_cons_eq_some ht
        obtain rfl : u = u' := Option.some.inj (hu.symm.trans hu')
        exact (ih hiu hPu hrest).mpr (hmeets u hu) taken rest htail t ht

/-- A property of the steps and a guard that agree under an invariant, which the steps with the
property keep: a run has the property at all its steps just in case they all meet the guard. -/
theorem runMeets_congr (Inv : σ → Prop) {L G : σ → ε → Prop}
    (hinv : ∀ s e s', Inv s → L s e → M.step s e = some s' → Inv s')
    (hiff : ∀ s e s', Inv s → M.step s e = some s' → (L s e ↔ G s e))
    {s s' : σ} {es : List ε} (hi : Inv s) (hr : M.run s es = some s') :
    M.RunMeets L s es ↔ M.RunMeets G s es := by
  induction es generalizing s with
  | nil => exact Iff.rfl
  | cons e es ih =>
    obtain ⟨t, ht, hrest⟩ := M.run_cons_eq_some hr
    constructor
    · rintro ⟨hL, hlater⟩
      refine ⟨(hiff s e t hi ht).mp hL, fun t' ht' => ?_⟩
      obtain rfl : t = t' := Option.some.inj (ht.symm.trans ht')
      exact (ih (hinv s e t hi hL ht) hrest).mp (hlater t ht)
    · rintro ⟨hG, hlater⟩
      have hL := (hiff s e t hi ht).mpr hG
      refine ⟨hL, fun t' ht' => ?_⟩
      obtain rfl : t = t' := Option.some.inj (ht.symm.trans ht')
      exact (ih (hinv s e t hi hL ht) hrest).mpr (hlater t ht)

/-- A guard on the events alone. -/
theorem runMeets_iff_forall {Q : ε → Prop} {s s' : σ} {es : List ε} (hr : M.run s es = some s') :
    M.RunMeets (fun _ e => Q e) s es ↔ ∀ e ∈ es, Q e := by
  induction es generalizing s with
  | nil => simp [RunMeets]
  | cons e es ih =>
    obtain ⟨u, hu, hrest⟩ := M.run_cons_eq_some hr
    rw [List.forall_mem_cons, ← ih hrest]
    refine and_congr_right fun _ => ⟨fun h => h u hu, fun h u' hu' => ?_⟩
    obtain rfl : u = u' := Option.some.inj (hu.symm.trans hu')
    exact h

/-- An invariant kept by every step holds in every reachable state. -/
theorem inv_of_reachable {Inv : σ → Prop}
    (hinit : ∀ s, M.init s → Inv s)
    (hstep : ∀ s e s', Inv s → M.step s e = some s' → Inv s')
    {s : σ} (h : M.Reachable s) : Inv s := by
  obtain ⟨s₀, es, h₀, hr⟩ := h
  exact M.inv_of_runMeets Inv (fun s e s' hi _ => hstep s e s' hi) (hinit s₀ h₀)
    (M.runMeets_trivial s₀ es) hr

end Machine

end AlphaMonitor.Lib
