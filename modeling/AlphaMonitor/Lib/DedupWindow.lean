import Mathlib.Algebra.Order.Group.Defs
import Mathlib.Algebra.Order.Group.Basic
import Mathlib.Data.List.Basic
import Mathlib.Data.List.Pairwise
import Mathlib.Logic.Function.Basic

/-!
# Deduplication windows

Keys are accepted at most once in a window of time.  The time at which a key was accepted is
kept twice: in a map, which is asked, and in a queue, from whose front old keys are evicted.
A key is marked before it is known whether it can be delivered, and the mark is taken back
if it cannot.

Nothing here mentions the monitor.

## Main results

- `DedupWindow.Kept.attempt`: the map and the queue describe the same keys
- `DedupWindow.attempt_failed`: a failure leaves what the eviction leaves
- `DedupWindow.accepted_apart`: the times at which one key is accepted
-/

set_option linter.unusedSectionVars false

namespace AlphaMonitor.Lib

/-- The accepted keys, with their times in order in the queue. -/
@[ext]
structure DedupWindow (T K : Type*) where
  queue : List (T × K)
  recent : K → Option T

namespace DedupWindow

variable {T K : Type*} [AddCommGroup T] [LinearOrder T] [IsOrderedAddMonoid T] [DecidableEq K]

/-- Evict from the front as long as the front is old. -/
def evict (window now : T) : List (T × K) → (K → Option T) → DedupWindow T K
  | [], recent => ⟨[], recent⟩
  | (time, key) :: rest, recent =>
    if window ≤ now - time then
      evict window now rest
        (if recent key = some time then Function.update recent key none else recent)
    else ⟨(time, key) :: rest, recent⟩

def expire (window now : T) (d : DedupWindow T K) : DedupWindow T K :=
  evict window now d.queue d.recent

def mark (now : T) (key : K) (d : DedupWindow T K) : DedupWindow T K where
  queue := d.queue ++ [(now, key)]
  recent := Function.update d.recent key (some now)

/-- Take the last mark back. -/
def unmark (key : K) (d : DedupWindow T K) : DedupWindow T K where
  queue := d.queue.dropLast
  recent := Function.update d.recent key none

/-- A key, offered at some time; whether it can be delivered is known too late. -/
structure Attempt (T K : Type*) where
  time : T
  key : K
  delivers : Bool

/-- The key was accepted within the window. -/
def Suppressed (window now : T) (d : DedupWindow T K) (key : K) : Prop :=
  ∃ last, d.recent key = some last ∧ now - last < window

instance (window now : T) (d : DedupWindow T K) (key : K) :
    Decidable (d.Suppressed window now key) :=
  match h : d.recent key with
  | none => isFalse (by simp [Suppressed, h])
  | some last => decidable_of_iff (now - last < window) (by simp [Suppressed, h])

/-- One attempt: evict, look, mark, deliver, and take the mark back. -/
def attempt (window : T) (d : DedupWindow T K) (a : Attempt T K) : DedupWindow T K × Bool :=
  let d := d.expire window a.time
  if d.Suppressed window a.time a.key then (d, false)
  else if a.delivers then (d.mark a.time a.key, true)
  else ((d.mark a.time a.key).unmark a.key, false)

def run (window : T) (d : DedupWindow T K) (attempts : List (Attempt T K)) : DedupWindow T K :=
  attempts.foldl (fun d a => (d.attempt window a).1) d

/-- The attempts that are accepted. -/
def accepted (window : T) : DedupWindow T K → List (Attempt T K) → List (Attempt T K)
  | _, [] => []
  | d, a :: rest =>
    let later := accepted window (d.attempt window a).1 rest
    if (d.attempt window a).2 then a :: later else later

/-- Later attempts come at later times. -/
def InOrder (attempts : List (Attempt T K)) : Prop :=
  attempts.Pairwise fun a a' => a.time ≤ a'.time

/-- The map and the queue agree, and the queue is in order. -/
structure Kept (d : DedupWindow T K) : Prop where
  sorted : d.queue.Pairwise fun e e' => e.1 ≤ e'.1
  nodup : (d.queue.map Prod.snd).Nodup
  mem_iff : ∀ time key, (time, key) ∈ d.queue ↔ d.recent key = some time

/-- Nothing was accepted after this time. -/
def Until (now : T) (d : DedupWindow T K) : Prop :=
  ∀ e ∈ d.queue, e.1 ≤ now

variable {window now : T} {d : DedupWindow T K} {key : K}

/-! ## Eviction -/

theorem kept_empty : (⟨[], fun _ => none⟩ : DedupWindow T K).Kept where
  sorted := List.Pairwise.nil
  nodup := List.nodup_nil
  mem_iff := by simp

theorem Kept.tail {time : T} {rest : List (T × K)} {recent : K → Option T}
    (h : (⟨(time, key) :: rest, recent⟩ : DedupWindow T K).Kept) :
    (⟨rest, Function.update recent key none⟩ : DedupWindow T K).Kept where
  sorted := (List.pairwise_cons.mp h.sorted).2
  nodup := (List.nodup_cons.mp h.nodup).2
  mem_iff := by
    intro time' key'
    have hmem := h.mem_iff time' key'
    rcases eq_or_ne key' key with rfl | hne
    · -- The key stands in the queue once, and that was in front.
      have hnot : (time', key') ∉ rest := fun hin =>
        (List.nodup_cons.mp h.nodup).1 (List.mem_map.mpr ⟨_, hin, rfl⟩)
      simp [hnot]
    · simpa [hne] using hmem

/-- The lazy eviction drops just the old keys. -/
theorem Kept.evict_eq {queue : List (T × K)} {recent : K → Option T}
    (h : (⟨queue, recent⟩ : DedupWindow T K).Kept) :
    evict window now queue recent =
      ⟨queue.filter fun e => now - e.1 < window,
        fun key => (recent key).filter fun time => now - time < window⟩ := by
  induction queue generalizing recent with
  | nil =>
    have hnone : ∀ key, recent key = none := by
      intro key
      apply Option.eq_none_iff_forall_ne_some.mpr
      intro time hrecent
      exact absurd ((h.mem_iff time key).mpr hrecent) List.not_mem_nil
    simp [evict, funext hnone]
  | cons e rest ih =>
    obtain ⟨time, key⟩ := e
    have hfront : recent key = some time := (h.mem_iff time key).mp List.mem_cons_self
    unfold evict
    split
    · -- An old front is dropped, and its key from the map with it.
      rename_i hold
      rw [ih h.tail]
      apply DedupWindow.ext
      · exact (List.filter_cons_of_neg (by simpa using hold)).symm
      · funext key'
        rcases eq_or_ne key' key with rfl | hne
        · simp only [hfront, Function.update_self]
          exact (Option.filter_some_neg (by simpa using hold)).symm
        · simp [hne]
    · rename_i hyoung
      -- The queue is in order, so that nothing behind a young front is old.
      have hall : ∀ e ∈ (time, key) :: rest, now - e.1 < window := by
        intro e he
        apply lt_of_le_of_lt (sub_le_sub_left ?_ now) (not_le.mp hyoung)
        rcases List.mem_cons.mp he with rfl | he
        · exact le_refl _
        · exact (List.pairwise_cons.mp h.sorted).1 e he
      apply DedupWindow.ext
      · exact (List.filter_eq_self.mpr fun e he => decide_eq_true (hall e he)).symm
      · funext key'
        cases hrecent : recent key' with
        | none => simp [hrecent]
        | some time' =>
          have hyoung' := hall (time', key') ((h.mem_iff time' key').mpr hrecent)
          simp only [hrecent]
          exact (Option.filter_some_pos (by simpa using hyoung')).symm

theorem Kept.expire_eq (h : d.Kept) :
    d.expire window now =
      ⟨d.queue.filter fun e => now - e.1 < window,
        fun key => (d.recent key).filter fun time => now - time < window⟩ :=
  Kept.evict_eq h

theorem Kept.expire (h : d.Kept) : (d.expire window now).Kept := by
  rw [h.expire_eq]
  constructor
  · exact h.sorted.filter _
  · exact h.nodup.sublist (List.filter_sublist.map _)
  · intro time key
    simp only [List.mem_filter, h.mem_iff, Option.filter_eq_some_iff]

/-- What is left after the eviction is young. -/
theorem Kept.expire_young (h : d.Kept) : ∀ e ∈ (d.expire window now).queue, now - e.1 < window := by
  rw [h.expire_eq]
  intro e he
  exact of_decide_eq_true (List.mem_filter.mp he).2

theorem Kept.expire_until (h : d.Kept) {time : T} (huntil : d.Until time) :
    (d.expire window now).Until time := by
  rw [h.expire_eq]
  intro e he
  exact huntil e (List.mem_filter.mp he).1

/-- Only the keys of the map are suppressed after an eviction. -/
theorem Kept.suppressed_iff (h : d.Kept) :
    (d.expire window now).Suppressed window now key ↔
      ((d.expire window now).recent key).isSome := by
  constructor
  · rintro ⟨last, hlast, -⟩
    rw [hlast]
    rfl
  · intro hsome
    obtain ⟨last, hlast⟩ := Option.isSome_iff_exists.mp hsome
    exact ⟨last, hlast, h.expire_young (last, key) ((h.expire.mem_iff last key).mpr hlast)⟩

theorem Kept.fresh_iff (h : d.Kept) :
    ¬(d.expire window now).Suppressed window now key ↔
      (d.expire window now).recent key = none := by
  rw [h.suppressed_iff, Bool.not_eq_true, Option.isSome_eq_false_iff, Option.isNone_iff_eq_none]

/-- Two evictions are one eviction at the later time. -/
theorem Kept.expire_expire (h : d.Kept) {now' : T} (hle : now ≤ now') :
    (d.expire window now).expire window now' = d.expire window now' := by
  have hboth : ∀ time, (decide (now - time < window) && decide (now' - time < window)) =
      decide (now' - time < window) := by
    intro time
    rw [Bool.and_eq_right_iff_imp]
    intro hyoung
    apply decide_eq_true
    exact lt_of_le_of_lt (sub_le_sub_right hle time) (of_decide_eq_true hyoung)
  rw [h.expire.expire_eq, h.expire_eq, h.expire_eq]
  apply DedupWindow.ext
  · simp [List.filter_filter, Bool.and_comm, hboth]
  · funext key
    simp [Option.filter_filter, hboth]

/-- What is suppressed at a later time is suppressed before it. -/
theorem Kept.suppressed_earlier (h : d.Kept) {now' : T} (hle : now ≤ now')
    (hlater : (d.expire window now').Suppressed window now' key) :
    (d.expire window now).Suppressed window now key := by
  obtain ⟨last, hlast, hyoung⟩ := hlater
  rw [h.expire_eq, Option.filter_eq_some_iff] at hlast
  have hyoung' : now - last < window := lt_of_le_of_lt (sub_le_sub_right hle last) hyoung
  refine ⟨last, ?_, hyoung'⟩
  rw [h.expire_eq, Option.filter_eq_some_iff]
  exact ⟨hlast.1, decide_eq_true hyoung'⟩

/-! ## Attempts -/

theorem Kept.mark (h : d.Kept) (hnew : d.recent key = none) (huntil : d.Until now) :
    (d.mark now key).Kept where
  sorted := by
    apply List.pairwise_append.mpr ⟨h.sorted, List.pairwise_singleton _ _, ?_⟩
    intro e he e' he'
    rw [List.mem_singleton.mp he']
    exact huntil e he
  nodup := by
    have hfresh : key ∉ d.queue.map Prod.snd := by
      intro hin
      obtain ⟨e, he, rfl⟩ := List.mem_map.mp hin
      rw [(h.mem_iff e.1 e.2).mp he] at hnew
      cases hnew
    simp only [DedupWindow.mark, List.map_append, List.map_cons, List.map_nil]
    apply List.nodup_append.mpr ⟨h.nodup, List.pairwise_singleton _ _, ?_⟩
    intro other hother key' hkey'
    rw [List.mem_singleton.mp hkey']
    exact ne_of_mem_of_not_mem hother hfresh
  mem_iff := by
    intro time key'
    simp only [DedupWindow.mark, List.mem_append, List.mem_singleton, h.mem_iff]
    rcases eq_or_ne key' key with rfl | hne
    · simp [hnew, eq_comm]
    · simp [hne]

theorem forall_mem_mark {P : T × K → Prop} (h : ∀ e ∈ d.queue, P e) (hlast : P (now, key)) :
    ∀ e ∈ (d.mark now key).queue, P e := by
  apply List.forall_mem_append.mpr ⟨h, ?_⟩
  simpa using hlast

/-- A mark that is taken back leaves nothing. -/
theorem unmark_mark (hnew : d.recent key = none) : (d.mark now key).unmark key = d := by
  apply DedupWindow.ext
  · exact List.dropLast_concat
  · funext key'
    rcases eq_or_ne key' key with rfl | hne
    · simp [unmark, hnew]
    · simp [unmark, DedupWindow.mark, hne]

section

variable {a : Attempt T K}

theorem attempt_of_suppressed (h : (d.expire window a.time).Suppressed window a.time a.key) :
    d.attempt window a = (d.expire window a.time, false) := if_pos h

theorem attempt_of_fresh (h : ¬(d.expire window a.time).Suppressed window a.time a.key) :
    d.attempt window a =
      if a.delivers then ((d.expire window a.time).mark a.time a.key, true)
      else (((d.expire window a.time).mark a.time a.key).unmark a.key, false) := if_neg h

/-- An attempt that is not accepted leaves what the eviction leaves. -/
theorem Kept.attempt_failed (h : d.Kept) (hfailed : (d.attempt window a).2 = false) :
    (d.attempt window a).1 = d.expire window a.time := by
  by_cases hsuppressed : (d.expire window a.time).Suppressed window a.time a.key
  · rw [attempt_of_suppressed hsuppressed]
  · rw [attempt_of_fresh hsuppressed] at hfailed ⊢
    cases hdelivers : a.delivers with
    | true => simp [hdelivers] at hfailed
    | false =>
      -- What is not suppressed after an eviction is not in the map at all.
      exact unmark_mark (h.fresh_iff.mp hsuppressed)

/-- An attempt that is accepted was not suppressed, and leaves its mark. -/
theorem attempt_accepted (haccepted : (d.attempt window a).2 = true) :
    ¬(d.expire window a.time).Suppressed window a.time a.key ∧
      (d.attempt window a).1 = (d.expire window a.time).mark a.time a.key := by
  by_cases hsuppressed : (d.expire window a.time).Suppressed window a.time a.key
  · rw [attempt_of_suppressed hsuppressed] at haccepted
    cases haccepted
  · refine ⟨hsuppressed, ?_⟩
    rw [attempt_of_fresh hsuppressed] at haccepted ⊢
    cases hdelivers : a.delivers with
    | true => rfl
    | false => simp [hdelivers] at haccepted

theorem Kept.attempt (h : d.Kept) (huntil : d.Until a.time) :
    (d.attempt window a).1.Kept ∧ (d.attempt window a).1.Until a.time := by
  have huntil' : (d.expire window a.time).Until a.time := h.expire_until huntil
  cases hresult : (d.attempt window a).2 with
  | false =>
    rw [h.attempt_failed hresult]
    exact ⟨h.expire, huntil'⟩
  | true =>
    obtain ⟨hfresh, hmark⟩ := attempt_accepted hresult
    rw [hmark]
    refine ⟨h.expire.mark (h.fresh_iff.mp hfresh) huntil', ?_⟩
    exact forall_mem_mark huntil' (le_refl a.time)

/-- After an attempt only young keys are left. -/
theorem Kept.attempt_young (h : d.Kept) (hwindow : 0 < window) :
    ∀ e ∈ (d.attempt window a).1.queue, a.time - e.1 < window := by
  cases hresult : (d.attempt window a).2 with
  | false =>
    rw [h.attempt_failed hresult]
    exact h.expire_young
  | true =>
    -- The new mark is as young as can be.
    rw [(attempt_accepted hresult).2]
    apply forall_mem_mark h.expire_young
    rw [sub_self]
    exact hwindow

/-- An attempt only sees what the eviction leaves. -/
theorem Kept.attempt_expire (h : d.Kept) (hle : now ≤ a.time) :
    (d.expire window now).attempt window a = d.attempt window a := by
  unfold DedupWindow.attempt
  rw [h.expire_expire hle]

end

/-! ## Runs -/

theorem Until.mono {now' : T} (h : d.Until now) (hle : now ≤ now') : d.Until now' :=
  fun e he => (h e he).trans hle

theorem Kept.run {attempts : List (Attempt T K)} (horder : InOrder attempts) (h : d.Kept)
    (huntil : ∀ a ∈ attempts, d.Until a.time) : (d.run window attempts).Kept := by
  -- The attempts come in order, so nothing in the queue is younger than the next one.
  induction attempts generalizing d with
  | nil => exact h
  | cons a rest ih =>
    obtain ⟨hfirst, horder⟩ := List.pairwise_cons.mp horder
    obtain ⟨hkept, htime⟩ : (d.attempt window a).1.Kept ∧ (d.attempt window a).1.Until a.time :=
      h.attempt (huntil a List.mem_cons_self)
    exact ih horder hkept fun a' ha' => htime.mono (hfirst a' ha')

theorem Kept.run_until {attempts : List (Attempt T K)} (horder : InOrder attempts) (h : d.Kept)
    (huntil : ∀ a ∈ attempts, d.Until a.time) {time : T} (hd : d.Until time)
    (htime : ∀ a ∈ attempts, a.time ≤ time) : (d.run window attempts).Until time := by
  induction attempts generalizing d with
  | nil => exact hd
  | cons a rest ih =>
    obtain ⟨hfirst, horder⟩ := List.pairwise_cons.mp horder
    obtain ⟨hkept, hnow⟩ : (d.attempt window a).1.Kept ∧ (d.attempt window a).1.Until a.time :=
      h.attempt (huntil a List.mem_cons_self)
    exact ih horder hkept (fun a' ha' => hnow.mono (hfirst a' ha'))
      (hnow.mono (htime a List.mem_cons_self)) fun a' ha' => htime a' (List.mem_cons_of_mem _ ha')

theorem accepted_sublist (attempts : List (Attempt T K)) :
    (accepted window d attempts).Sublist attempts := by
  induction attempts generalizing d with
  | nil => exact List.Sublist.refl _
  | cons a rest ih =>
    unfold accepted
    simp only
    split
    · exact ih.cons_cons a
    · exact ih.cons a

/-- A key of the map is not accepted before its window is over. -/
theorem accepted_after {attempts : List (Attempt T K)} (horder : InOrder attempts) (h : d.Kept)
    (huntil : ∀ a ∈ attempts, d.Until a.time) {last : T} (hlast : d.recent key = some last) :
    ∀ a ∈ accepted window d attempts, a.key = key → window ≤ a.time - last := by
  induction attempts generalizing d with
  | nil => exact fun _ ha => absurd ha List.not_mem_nil
  | cons a rest ih =>
    obtain ⟨hfirst, horder'⟩ := List.pairwise_cons.mp horder
    obtain ⟨hkept, htime⟩ : (d.attempt window a).1.Kept ∧ (d.attempt window a).1.Until a.time :=
      h.attempt (huntil a List.mem_cons_self)
    by_cases hover : window ≤ a.time - last
    · -- The window is over, now and for all that comes later.
      intro a' ha' _
      refine hover.trans (sub_le_sub_right ?_ last)
      rcases List.mem_cons.mp ((accepted_sublist _).subset ha') with rfl | hin
      · exact le_refl _
      · exact hfirst a' hin
    · -- The key is still in the map, and the attempt leaves it there.
      have hstill : (d.expire window a.time).recent key = some last := by
        rw [h.expire_eq]
        simp [hlast, not_le.mp hover]
      have hsuppressed : a.key = key → (d.expire window a.time).Suppressed window a.time a.key := by
        rintro rfl
        exact ⟨last, hstill, not_le.mp hover⟩
      have hother : (d.attempt window a).2 = true → a.key ≠ key := fun haccepted hkey =>
        (attempt_accepted haccepted).1 (hsuppressed hkey)
      have hlater : (d.attempt window a).1.recent key = some last := by
        cases hresult : (d.attempt window a).2 with
        | false => rw [h.attempt_failed hresult, hstill]
        | true =>
          rw [(attempt_accepted hresult).2]
          simp [DedupWindow.mark, (hother hresult).symm, hstill]
      have hrest := ih horder' hkept (fun a' ha' => htime.mono (hfirst a' ha')) hlater
      intro a' ha' hkey
      unfold accepted at ha'
      simp only at ha'
      split at ha'
      · rename_i haccepted
        rcases List.mem_cons.mp ha' with rfl | ha'
        · exact absurd hkey (hother haccepted)
        · exact hrest a' ha' hkey
      · exact hrest a' ha' hkey

/-- Two acceptances of one key lie a window apart. -/
theorem accepted_apart {attempts : List (Attempt T K)} (horder : InOrder attempts) (h : d.Kept)
    (huntil : ∀ a ∈ attempts, d.Until a.time) :
    (accepted window d attempts).Pairwise fun a a' =>
      a'.key = a.key → window ≤ a'.time - a.time := by
  induction attempts generalizing d with
  | nil => exact List.Pairwise.nil
  | cons a rest ih =>
    obtain ⟨hfirst, horder'⟩ := List.pairwise_cons.mp horder
    obtain ⟨hkept, htime⟩ : (d.attempt window a).1.Kept ∧ (d.attempt window a).1.Until a.time :=
      h.attempt (huntil a List.mem_cons_self)
    have hrest : ∀ a' ∈ rest, (d.attempt window a).1.Until a'.time := fun a' ha' =>
      htime.mono (hfirst a' ha')
    unfold accepted
    simp only
    split
    · -- The mark keeps the key apart from everything that is accepted later.
      rename_i haccepted
      apply List.pairwise_cons.mpr ⟨?_, ih horder' hkept hrest⟩
      have hmark : (d.attempt window a).1.recent a.key = some a.time := by
        rw [(attempt_accepted haccepted).2]
        simp [DedupWindow.mark]
      exact accepted_after horder' hkept hrest hmark
    · exact ih horder' hkept hrest

end DedupWindow

end AlphaMonitor.Lib
