import Mathlib.Data.List.Basic
import Mathlib.Algebra.Order.Ring.Nat
import Mathlib.Tactic.Ring

/-!
# Records in a row

Records are written one after another without anything between them, and are read back from the
front.  A reader finds the end of each by itself: a field is of a fixed length, or its length is
read before it.

## Main definitions

- `Reader`, `Reader.andThen`, `Reader.via`: readers, and how they are put together
- `Reader.Inverts`: a reader accepts what a writer writes, and nothing else
- `Reader.many`: record after record, up to the end
- `bigEndian`: numbers of a fixed length

## Main results

- `Inverts.many_eq_some_iff`: the texts that are read are those that were written
-/

namespace AlphaMonitor.Lib

variable {α β γ : Type*}

/-- What is taken off the front, and what is left. -/
abbrev Reader (β α : Type*) := List β → Option (α × List β)

namespace Reader

/-- One item. -/
def item : Reader β β
  | [] => none
  | b :: rest => some (b, rest)

/-- So many items. -/
def exactly (n : ℕ) : Reader β (List β) := fun text =>
  if n ≤ text.length then some (text.take n, text.drop n) else none

/-- A value, and one that depends on it. -/
def andThen (first : Reader β α) (second : α → Reader β γ) : Reader β (α × γ) := fun text =>
  (first text).bind fun p => (second p.1 p.2).map fun q => ((p.1, q.1), q.2)

/-- A value in another form. -/
def via (read : Reader β α) (convert : α → Option γ) : Reader β γ := fun text =>
  (read text).bind fun p => (convert p.1).map fun c => (c, p.2)

/-- At most so many values, which make up the text. -/
def upTo (read : Reader β α) : ℕ → List β → Option (List α)
  | _, [] => some []
  | 0, _ :: _ => none
  | n + 1, b :: text => (read (b :: text)).bind fun p => (upTo read n p.2).map (p.1 :: ·)

/-- The values that make up the text. -/
def many (read : Reader β α) (text : List β) : Option (List α) := read.upTo text.length text

/-- The reader accepts what is written of such values, and nothing else. -/
structure Inverts (read : Reader β α) (P : α → Prop) (write : α → List β) : Prop where
  reads : ∀ {a}, P a → ∀ rest, read (write a ++ rest) = some (a, rest)
  written : ∀ {text a rest}, read text = some (a, rest) → P a ∧ text = write a ++ rest

/-! ## Fields -/

theorem item_inverts : (item : Reader β β).Inverts (fun _ => True) fun b => [b] where
  reads := fun _ _ => rfl
  written := by
    intro text a rest h
    cases text with
    | nil => cases h
    | cons b text =>
      obtain ⟨rfl, rfl⟩ := Prod.mk.inj (Option.some.inj h)
      exact ⟨trivial, rfl⟩

theorem exactly_inverts (n : ℕ) :
    (exactly n : Reader β (List β)).Inverts (fun items => items.length = n) id where
  reads := by
    intro items hlength rest
    have hle : n ≤ (id items ++ rest).length := by
      rw [id, List.length_append]
      omega
    rw [exactly, if_pos hle, ← hlength, id, List.take_left, List.drop_left]
  written := by
    intro text items rest h
    unfold exactly at h
    split at h
    · rename_i hle
      obtain ⟨rfl, rfl⟩ := Prod.mk.inj (Option.some.inj h)
      exact ⟨List.length_take_of_le hle, (List.take_append_drop n text).symm⟩
    · cases h

section

variable {read first : Reader β α} {P : α → Prop} {write : α → List β}

theorem Inverts.andThen {second : α → Reader β γ} {Q : α → γ → Prop} {next : α → γ → List β}
    (hfirst : first.Inverts P write) (hsecond : ∀ a, P a → (second a).Inverts (Q a) (next a)) :
    (first.andThen second).Inverts (fun p => P p.1 ∧ Q p.1 p.2) fun p =>
      write p.1 ++ next p.1 p.2 where
  reads := by
    rintro ⟨a, c⟩ ⟨ha, hc⟩ rest
    rw [Reader.andThen, List.append_assoc, hfirst.reads ha, Option.bind_some,
      (hsecond a ha).reads hc]
    rfl
  written := by
    rintro text ⟨a, c⟩ rest h
    obtain ⟨⟨a', text'⟩, hread, h⟩ := Option.bind_eq_some_iff.mp h
    obtain ⟨⟨c', rest'⟩, hnext, h⟩ := Option.map_eq_some_iff.mp h
    obtain ⟨hac, rfl⟩ := Prod.mk.inj h
    obtain ⟨rfl, rfl⟩ := Prod.mk.inj hac
    obtain ⟨ha, rfl⟩ := hfirst.written hread
    obtain ⟨hc, htext⟩ := (hsecond a' ha).written hnext
    refine ⟨⟨ha, hc⟩, ?_⟩
    rw [List.append_assoc]
    exact congrArg _ htext

theorem Inverts.via {convert : α → Option γ} {back : γ → α} {Q : γ → Prop}
    (hread : read.Inverts P write) (hconvert : ∀ c, Q c → P (back c) ∧ convert (back c) = some c)
    (hback : ∀ a c, P a → convert a = some c → Q c ∧ back c = a) :
    (read.via convert).Inverts Q fun c => write (back c) where
  reads := by
    intro c hc rest
    obtain ⟨ha, hsome⟩ := hconvert c hc
    rw [Reader.via, hread.reads ha, Option.bind_some, hsome]
    rfl
  written := by
    intro text c rest h
    obtain ⟨⟨a, rest'⟩, hfound, h⟩ := Option.bind_eq_some_iff.mp h
    obtain ⟨c', hsome, h⟩ := Option.map_eq_some_iff.mp h
    obtain ⟨rfl, rfl⟩ := Prod.mk.inj h
    obtain ⟨ha, htext⟩ := hread.written hfound
    obtain ⟨hc, hac⟩ := hback a c' ha hsome
    exact ⟨hc, by rw [hac]; exact htext⟩

/-! ## Record after record -/

theorem Inverts.upTo_flatMap (hread : read.Inverts P write) (hne : ∀ a, P a → write a ≠ [])
    {values : List α} (hP : ∀ a ∈ values, P a) {n : ℕ}
    (hn : (values.flatMap write).length ≤ n) :
    read.upTo n (values.flatMap write) = some values := by
  induction values generalizing n with
  | nil =>
    cases n <;> rfl
  | cons a values ih =>
    obtain ⟨ha, hP⟩ := List.forall_mem_cons.mp hP
    rw [List.flatMap_cons] at hn ⊢
    obtain ⟨b, bs, hb⟩ := List.exists_cons_of_ne_nil (hne a ha)
    rw [List.length_append, hb, List.length_cons] at hn
    obtain ⟨n, rfl⟩ : ∃ m, n = m + 1 := ⟨n - 1, by omega⟩
    have hfront := hread.reads ha (values.flatMap write)
    rw [hb, List.cons_append] at hfront ⊢
    rw [Reader.upTo, hfront, Option.bind_some, ih hP (by omega)]
    rfl

theorem Inverts.of_upTo (hread : read.Inverts P write) {n : ℕ} {text : List β}
    {values : List α} (h : read.upTo n text = some values) :
    (∀ a ∈ values, P a) ∧ text = values.flatMap write := by
  induction n generalizing text values with
  | zero =>
    cases text with
    | nil =>
      cases Option.some.inj h
      exact ⟨fun a ha => absurd ha List.not_mem_nil, rfl⟩
    | cons b text => cases h
  | succ n ih =>
    cases text with
    | nil =>
      cases Option.some.inj h
      exact ⟨fun a ha => absurd ha List.not_mem_nil, rfl⟩
    | cons b text =>
      obtain ⟨⟨a, rest⟩, hfront, h⟩ := Option.bind_eq_some_iff.mp h
      obtain ⟨others, hothers, rfl⟩ := Option.map_eq_some_iff.mp h
      obtain ⟨ha, htext⟩ := hread.written hfront
      obtain ⟨hP, hrest⟩ := ih hothers
      refine ⟨List.forall_mem_cons.mpr ⟨ha, hP⟩, ?_⟩
      rw [htext, List.flatMap_cons, ← hrest]

/-- The texts that are read are those that were written. -/
theorem Inverts.many_eq_some_iff (hread : read.Inverts P write) (hne : ∀ a, P a → write a ≠ [])
    {text : List β} {values : List α} :
    read.many text = some values ↔ (∀ a ∈ values, P a) ∧ text = values.flatMap write := by
  constructor
  · exact hread.of_upTo
  · rintro ⟨hP, rfl⟩
    exact hread.upTo_flatMap hne hP le_rfl

end

end Reader

/-! ## Numbers -/

/-- The last digits of a number to the base 256, from the highest on. -/
def bigEndian : ℕ → ℕ → List UInt8
  | 0, _ => []
  | k + 1, n => UInt8.ofNat (n / 256 ^ k) :: bigEndian k (n % 256 ^ k)

def ofBigEndian : List UInt8 → ℕ
  | [] => 0
  | b :: bytes => b.toNat * 256 ^ bytes.length + ofBigEndian bytes

theorem length_bigEndian (k n : ℕ) : (bigEndian k n).length = k := by
  induction k generalizing n with
  | zero => rfl
  | succ k ih => rw [bigEndian, List.length_cons, ih]

theorem ofBigEndian_lt (bytes : List UInt8) : ofBigEndian bytes < 256 ^ bytes.length := by
  induction bytes with
  | nil => exact Nat.one_pos
  | cons b bytes ih =>
    have hb : b.toNat ≤ 255 := Nat.le_of_lt_succ b.toNat_lt
    calc ofBigEndian (b :: bytes) < b.toNat * 256 ^ bytes.length + 256 ^ bytes.length :=
          Nat.add_lt_add_left ih _
      _ ≤ 255 * 256 ^ bytes.length + 256 ^ bytes.length :=
          Nat.add_le_add_right (Nat.mul_le_mul_right _ hb) _
      _ = 256 ^ (b :: bytes).length := by rw [List.length_cons]; ring

theorem ofBigEndian_bigEndian {k n : ℕ} (h : n < 256 ^ k) : ofBigEndian (bigEndian k n) = n := by
  induction k generalizing n with
  | zero => exact (Nat.lt_one_iff.mp h).symm
  | succ k ih =>
    have hhigh : n / 256 ^ k < 256 :=
      Nat.div_lt_of_lt_mul (by rw [← Nat.pow_succ]; exact h)
    rw [bigEndian, ofBigEndian, length_bigEndian, ih (Nat.mod_lt _ (Nat.pow_pos (by omega))),
      UInt8.toNat_ofNat_of_lt' hhigh]
    exact Nat.div_add_mod' n (256 ^ k)

theorem bigEndian_ofBigEndian (bytes : List UInt8) :
    bigEndian bytes.length (ofBigEndian bytes) = bytes := by
  induction bytes with
  | nil => rfl
  | cons b bytes ih =>
    have hlt := ofBigEndian_lt bytes
    rw [List.length_cons, bigEndian, ofBigEndian, Nat.mul_comm, Nat.mul_add_div (by omega),
      Nat.div_eq_of_lt hlt, Nat.add_zero, Nat.mul_add_mod, Nat.mod_eq_of_lt hlt, ih,
      UInt8.ofNat_toNat]

/-- A number in so many bytes. -/
def Reader.number (k : ℕ) : Reader UInt8 ℕ :=
  (Reader.exactly k).via fun bytes => some (ofBigEndian bytes)

theorem Reader.number_inverts (k : ℕ) :
    (Reader.number k).Inverts (fun n => n < 256 ^ k) (bigEndian k) := by
  refine (Reader.exactly_inverts k).via (fun n hn => ⟨length_bigEndian k n, ?_⟩)
    fun bytes n hlength hsome => ?_
  · rw [ofBigEndian_bigEndian hn]
  · cases Option.some.inj hsome
    subst hlength
    exact ⟨ofBigEndian_lt bytes, bigEndian_ofBigEndian bytes⟩

end AlphaMonitor.Lib
