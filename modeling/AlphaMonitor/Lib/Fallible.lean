import Mathlib.Data.List.Basic

/-!
# Computations that may fail

A computation changes a state and gives a value or an error.  The state is not restored after an
error, so what holds then is stated beside what holds after success.

## Main definitions

- `Fallible`: the computations
- `Triple`: from states with the precondition, a computation ends in the states of the one or the
  other postcondition

## Main results

- `Triple.bind`, `Triple.foldlM`: the rules for one computation after another and for loops
-/

namespace AlphaMonitor.Lib

/-- A computation on a state that may fail. -/
abbrev Fallible (σ ε α : Type) := ExceptT ε (StateM σ) α

namespace Fallible

variable {σ ε α β : Type}

/-- The result and the state after it. -/
def exec (x : Fallible σ ε α) (s : σ) : Except ε α × σ := (ExceptT.run x).run s

theorem exec_eq {x : Fallible σ ε α} {s : σ} {r : Except ε α} (h : (exec x s).1 = r) :
    exec x s = (r, (exec x s).2) := Prod.ext h rfl

theorem exec_get (s : σ) : exec (get : Fallible σ ε σ) s = (.ok s, s) := rfl

theorem exec_bind (x : Fallible σ ε α) (next : α → Fallible σ ε β) (s : σ) :
    exec (x >>= next) s =
      match exec x s with
      | (.ok a, t) => exec (next a) t
      | (.error e, t) => (.error e, t) := by
  change (ExceptT.run (x >>= next)).run s = _
  rw [ExceptT.run_bind, StateT.run_bind]
  unfold exec
  rcases (ExceptT.run x).run s with ⟨_ | _, _⟩ <;> rfl

theorem exec_bind_ok {x : Fallible σ ε α} {next : α → Fallible σ ε β} {s t : σ} {a : α}
    (h : exec x s = (.ok a, t)) : exec (x >>= next) s = exec (next a) t := by
  rw [exec_bind, h]

/-- From a state with `P`, the computation ends in one with `Q` of its value, or in one with `E`
of its error. -/
def Triple (P : σ → Prop) (x : Fallible σ ε α) (Q : α → σ → Prop) (E : ε → σ → Prop) : Prop :=
  ∀ s, P s →
    (∀ a t, exec x s = (.ok a, t) → Q a t) ∧ ∀ e t, exec x s = (.error e, t) → E e t

variable {P : σ → Prop} {x : Fallible σ ε α} {Q : α → σ → Prop} {E : ε → σ → Prop}

theorem Triple.ok (h : Triple P x Q E) {s t : σ} {a : α} (hs : P s) (hx : exec x s = (.ok a, t)) :
    Q a t := (h s hs).1 a t hx

theorem Triple.error (h : Triple P x Q E) {s t : σ} {e : ε} (hs : P s)
    (hx : exec x s = (.error e, t)) : E e t := (h s hs).2 e t hx

theorem Triple.weaken {P' : σ → Prop} {Q' : α → σ → Prop} {E' : ε → σ → Prop}
    (h : Triple P x Q E) (hP : ∀ s, P' s → P s) (hQ : ∀ a s, Q a s → Q' a s)
    (hE : ∀ e s, E e s → E' e s) : Triple P' x Q' E' := fun s hs =>
  ⟨fun a t hx => hQ a t (h.ok (hP s hs) hx), fun e t hx => hE e t (h.error (hP s hs) hx)⟩

theorem Triple.pure {a : α} (h : ∀ s, P s → Q a s) : Triple P (Pure.pure a) Q E := fun s hs =>
  ⟨fun _ _ hx => by cases hx; exact h s hs, fun _ _ hx => nomatch hx⟩

theorem Triple.throw {e : ε} (h : ∀ s, P s → E e s) :
    Triple P (MonadExcept.throw e : Fallible σ ε α) Q E := fun s hs =>
  ⟨fun _ _ hx => (nomatch (Prod.mk.inj hx).1), fun _ _ hx => by
    obtain ⟨herr, rfl⟩ := Prod.mk.inj hx
    cases herr
    exact h s hs⟩

/-- What the precondition says whatever the state is. -/
theorem Triple.assume {c : Prop} (hc : ∀ s, P s → c) (h : c → Triple P x Q E) : Triple P x Q E :=
  fun s hs => h (hc s hs) s hs

/-- One computation after another. -/
theorem Triple.bind {R : β → σ → Prop} {next : α → Fallible σ ε β} (hx : Triple P x Q E)
    (hnext : ∀ a, Triple (Q a) (next a) R E) : Triple P (x >>= next) R E := by
  intro s hs
  rw [exec_bind]
  rcases hrun : exec x s with ⟨e | a, t⟩
  · refine ⟨fun _ _ h => (nomatch (Prod.mk.inj h).1), fun e' t' h => ?_⟩
    obtain ⟨herr, rfl⟩ := Prod.mk.inj h
    cases herr
    exact hx.error hs hrun
  · exact hnext a t (hx.ok hs hrun)

theorem Triple.ite {c : Prop} [Decidable c] {y : Fallible σ ε α}
    (hx : c → Triple P x Q E) (hy : ¬c → Triple P y Q E) :
    Triple P (if c then x else y) Q E := by
  split
  · exact hx ‹c›
  · exact hy ‹¬c›

/-- A loop over a list with a value that is carried on: the invariant is about the items done. -/
theorem Triple.foldlM {body : β → α → Fallible σ ε β} {Inv : List α → β → σ → Prop}
    {items : List α} {b : β}
    (hbody : ∀ done item rest b, items = done ++ item :: rest →
      Triple (Inv done b) (body b item) (Inv (done ++ [item])) E) :
    Triple (Inv [] b) (items.foldlM body b) (Inv items) E := by
  suffices hgen : ∀ done rest b, items = done ++ rest →
      Triple (Inv done b) (rest.foldlM body b) (Inv items) E from hgen [] items b rfl
  intro done rest
  induction rest generalizing done with
  | nil =>
    intro b hitems
    rw [List.append_nil] at hitems
    rw [hitems]
    exact Triple.pure fun _ hs => hs
  | cons item rest ih =>
    intro b hitems
    rw [List.foldlM_cons]
    refine (hbody done item rest b hitems).bind fun b' => ih (done ++ [item]) b' ?_
    rw [hitems, List.append_assoc, List.singleton_append]

end Fallible

end AlphaMonitor.Lib
