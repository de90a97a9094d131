import Mathlib.Algebra.GroupWithZero.Nat
import Mathlib.Data.List.Basic

/-!
# Texts and their bytes

The bytes of a text in UTF-8 may be cut between two characters only.  Bytes that are no text are
decoded with a replacement character for each part that could not be completed.

Nothing here mentions the monitor.

## Main definitions

- `byteLen`, `sliceTo`: the bytes of a text, and its first ones
- `fromUtf8Lossy`: decoding, one byte at a time

## Main results

- `sliceTo_eq_some_iff`: where a text can be cut
- `fromUtf8Lossy_encode`: a text is decoded to itself
-/

namespace AlphaMonitor.Lib

/-! ## Cutting -/

/-- The length of a text in bytes. -/
def byteLen (text : List Char) : ℕ := (text.map Char.utf8Size).sum

/-- The first bytes of a text, if they end between two characters. -/
def sliceTo : List Char → ℕ → Option (List Char)
  | _, 0 => some []
  | [], _ + 1 => none
  | c :: rest, limit + 1 =>
    if c.utf8Size ≤ limit + 1 then (sliceTo rest (limit + 1 - c.utf8Size)).map (c :: ·) else none

@[simp] theorem byteLen_cons (c : Char) (text : List Char) :
    byteLen (c :: text) = c.utf8Size + byteLen text := by
  unfold byteLen
  rw [List.map_cons, List.sum_cons]

theorem byteLen_eq_zero {text : List Char} (h : byteLen text = 0) : text = [] := by
  cases text with
  | nil => rfl
  | cons c rest =>
    have hpos := c.utf8Size_pos
    rw [byteLen_cons] at h
    omega

/-- A text can be cut where its first characters have that many bytes. -/
theorem sliceTo_eq_some_iff {text head : List Char} {limit : ℕ} :
    sliceTo text limit = some head ↔ head <+: text ∧ byteLen head = limit := by
  induction text generalizing head limit with
  | nil =>
    rw [List.prefix_nil]
    cases limit with
    | zero =>
      constructor
      · intro h
        cases h
        exact ⟨rfl, rfl⟩
      · rintro ⟨rfl, -⟩
        rfl
    | succ limit =>
      refine iff_of_false (fun h => by cases h) ?_
      rintro ⟨rfl, hlen⟩
      cases hlen
  | cons c rest ih =>
    cases limit with
    | zero =>
      constructor
      · intro h
        cases h
        exact ⟨List.nil_prefix, rfl⟩
      · rintro ⟨-, hlen⟩
        rw [byteLen_eq_zero hlen]
        rfl
    | succ limit =>
      unfold sliceTo
      by_cases hfits : c.utf8Size ≤ limit + 1
      · rw [if_pos hfits, Option.map_eq_some_iff]
        constructor
        · rintro ⟨tail, htail, rfl⟩
          obtain ⟨hhead, hlen⟩ := ih.mp htail
          refine ⟨(List.prefix_cons_inj c).mpr hhead, ?_⟩
          rw [byteLen_cons, hlen]
          omega
        · rintro ⟨hhead, hlen⟩
          cases head with
          | nil => cases hlen
          | cons d tail =>
            obtain ⟨rfl, htail⟩ := List.cons_prefix_cons.mp hhead
            rw [byteLen_cons] at hlen
            exact ⟨tail, ih.mpr ⟨htail, by omega⟩, rfl⟩
      · rw [if_neg hfits]
        refine iff_of_false (fun h => by cases h) ?_
        rintro ⟨hhead, hlen⟩
        cases head with
        | nil => cases hlen
        | cons d tail =>
          obtain ⟨rfl, -⟩ := List.cons_prefix_cons.mp hhead
          rw [byteLen_cons] at hlen
          omega

/-! ## Decoding -/

def replacementChar : Char := '\uFFFD'

/-- A character that is not complete: how many bytes are missing, its bits so far, and the bounds
of the next byte. -/
structure Pending where
  (missing bits low high : ℕ)
  deriving DecidableEq, Repr

/-- The first byte of a character: what it completes, or what it leaves pending. -/
def firstByte (byte : ℕ) : List Char × Option Pending :=
  if byte < 0x80 then ([Char.ofNat byte], none)
  else if 0xC2 ≤ byte ∧ byte ≤ 0xDF then ([], some ⟨1, byte - 0xC0, 0x80, 0xBF⟩)
  -- no character is written with more bytes than it needs, and surrogates are none
  else if byte = 0xE0 then ([], some ⟨2, 0, 0xA0, 0xBF⟩)
  else if byte = 0xED then ([], some ⟨2, 0xD, 0x80, 0x9F⟩)
  else if 0xE1 ≤ byte ∧ byte ≤ 0xEF then ([], some ⟨2, byte - 0xE0, 0x80, 0xBF⟩)
  else if byte = 0xF0 then ([], some ⟨3, 0, 0x90, 0xBF⟩)
  else if 0xF1 ≤ byte ∧ byte ≤ 0xF3 then ([], some ⟨3, byte - 0xF0, 0x80, 0xBF⟩)
  else if byte = 0xF4 then ([], some ⟨3, 4, 0x80, 0x8F⟩)
  else ([replacementChar], none)

/-- One more byte.  Where it does not fit, it is read anew. -/
def pushByte (pending : Option Pending) (byte : ℕ) : List Char × Option Pending :=
  match pending with
  | none => firstByte byte
  | some p =>
    if p.low ≤ byte ∧ byte ≤ p.high then
      let bits := p.bits * 64 + byte % 64
      if p.missing ≤ 1 then ([Char.ofNat bits], none)
      else ([], some ⟨p.missing - 1, bits, 0x80, 0xBF⟩)
    else (replacementChar :: (firstByte byte).1, (firstByte byte).2)

def decodeFrom : Option Pending → List UInt8 → List Char
  | none, [] => []
  | some _, [] => [replacementChar]
  | pending, byte :: rest =>
    (pushByte pending byte.toNat).1 ++ decodeFrom (pushByte pending byte.toNat).2 rest

/-- `String::from_utf8_lossy`. -/
def fromUtf8Lossy (bytes : List UInt8) : List Char := decodeFrom none bytes

/-! ## Texts are decoded to themselves -/

theorem firstByte_two {n : ℕ} (hlow : 0xC2 ≤ n) (hhigh : n ≤ 0xDF) :
    firstByte n = ([], some ⟨1, n - 0xC0, 0x80, 0xBF⟩) := by
  unfold firstByte
  rw [if_neg (by omega), if_pos ⟨hlow, hhigh⟩]

theorem firstByte_three {n : ℕ} (hlow : 0xE0 ≤ n) (hhigh : n ≤ 0xEF) :
    firstByte n = ([], some ⟨2, n - 0xE0, if n = 0xE0 then 0xA0 else 0x80,
      if n = 0xED then 0x9F else 0xBF⟩) := by
  unfold firstByte
  rw [if_neg (by omega), if_neg (by omega)]
  by_cases hfirst : n = 0xE0
  · subst hfirst
    rfl
  · by_cases hsurrogate : n = 0xED
    · subst hsurrogate
      rfl
    · rw [if_neg hfirst, if_neg hsurrogate, if_pos (by omega), if_neg hfirst, if_neg hsurrogate]

theorem firstByte_four {n : ℕ} (hlow : 0xF0 ≤ n) (hhigh : n ≤ 0xF4) :
    firstByte n = ([], some ⟨3, n - 0xF0, if n = 0xF0 then 0x90 else 0x80,
      if n = 0xF4 then 0x8F else 0xBF⟩) := by
  obtain rfl | rfl | rfl | rfl | rfl :
      n = 0xF0 ∨ n = 0xF1 ∨ n = 0xF2 ∨ n = 0xF3 ∨ n = 0xF4 := by omega
  all_goals rfl

theorem decodeFrom_push (p : Pending) (byte : UInt8) (rest : List UInt8) :
    decodeFrom (some p) (byte :: rest) =
      (pushByte (some p) byte.toNat).1 ++ decodeFrom (pushByte (some p) byte.toNat).2 rest := rfl

theorem decodeFrom_first {n : ℕ} (hbyte : n < 256) (rest : List UInt8) :
    decodeFrom none (UInt8.ofNat n :: rest) =
      (firstByte n).1 ++ decodeFrom (firstByte n).2 rest := by
  have hvalue : (UInt8.ofNat n).toNat = n := UInt8.toNat_ofNat_of_lt' hbyte
  show (firstByte (UInt8.ofNat n).toNat).1 ++ decodeFrom (firstByte (UInt8.ofNat n).toNat).2 rest = _
  rw [hvalue]

section
variable {bits low high n : ℕ} (hbyte : n < 256) (hlow : low ≤ n) (hhigh : n ≤ high)
include hbyte hlow hhigh

theorem decodeFrom_last (rest : List UInt8) :
    decodeFrom (some ⟨1, bits, low, high⟩) (UInt8.ofNat n :: rest) =
      Char.ofNat (bits * 64 + n % 64) :: decodeFrom none rest := by
  have hvalue : (UInt8.ofNat n).toNat = n := UInt8.toNat_ofNat_of_lt' hbyte
  have hpush : pushByte (some ⟨1, bits, low, high⟩) n =
      ([Char.ofNat (bits * 64 + n % 64)], none) := if_pos ⟨hlow, hhigh⟩
  rw [decodeFrom_push, hvalue, hpush]
  rfl

theorem decodeFrom_next (missing : ℕ) (rest : List UInt8) :
    decodeFrom (some ⟨missing + 2, bits, low, high⟩) (UInt8.ofNat n :: rest) =
      decodeFrom (some ⟨missing + 1, bits * 64 + n % 64, 0x80, 0xBF⟩) rest := by
  have hvalue : (UInt8.ofNat n).toNat = n := UInt8.toNat_ofNat_of_lt' hbyte
  have hpush : pushByte (some ⟨missing + 2, bits, low, high⟩) n =
      ([], some ⟨missing + 1, bits * 64 + n % 64, 0x80, 0xBF⟩) := by
    unfold pushByte
    dsimp only
    rw [if_pos ⟨hlow, hhigh⟩, if_neg (by omega)]
    rfl
  rw [decodeFrom_push, hvalue, hpush]
  rfl

end

/-- A character is decoded from the bytes that it is written with. -/
theorem decodeFrom_encodeChar (c : Char) (rest : List UInt8) :
    decodeFrom none (String.utf8EncodeChar c ++ rest) = c :: decodeFrom none rest := by
  have hvalid : c.val.toNat < 0xD800 ∨ 0xDFFF < c.val.toNat ∧ c.val.toNat < 0x110000 := c.valid
  have hchar : Char.ofNat c.val.toNat = c := Char.ofNat_toNat c
  unfold String.utf8EncodeChar
  dsimp only
  generalize c.val.toNat = v at hvalid hchar ⊢
  by_cases hone : v ≤ 0x7F
  · rw [if_pos hone, List.cons_append, decodeFrom_first (by omega)]
    have hfirst : firstByte v = ([Char.ofNat v], none) := if_pos (by omega)
    rw [hfirst, hchar]
    rfl
  · rw [if_neg hone]
    by_cases htwo : v ≤ 0x7FF
    · rw [if_pos htwo, List.cons_append, List.cons_append, decodeFrom_first (by omega),
        firstByte_two (by omega) (by omega)]
      refine (decodeFrom_last (by omega) (by omega) (by omega) _).trans ?_
      have hbits : (v / 64 % 0x20 + 0xC0 - 0xC0) * 64 + (v % 0x40 + 0x80) % 64 = v := by omega
      rw [hbits, hchar]
      rfl
    · rw [if_neg htwo]
      by_cases hthree : v ≤ 0xFFFF
      · -- The first two bytes exclude what is shorter, and the surrogates.
        rw [if_pos hthree]
        simp only [List.cons_append, List.nil_append]
        rw [decodeFrom_first (by omega), firstByte_three (by omega) (by omega), List.nil_append]
        refine (decodeFrom_next (by omega) (by split <;> omega) (by split <;> omega) 0 _).trans ?_
        refine (decodeFrom_last (by omega) (by omega) (by omega) _).trans ?_
        have hbits : ((v / 4096 % 0x10 + 0xE0 - 0xE0) * 64 + (v / 64 % 0x40 + 0x80) % 64) * 64 +
            (v % 0x40 + 0x80) % 64 = v := by omega
        rw [hbits, hchar]
      · -- The first two bytes exclude what is shorter, and what is no character.
        rw [if_neg hthree]
        simp only [List.cons_append, List.nil_append]
        rw [decodeFrom_first (by omega), firstByte_four (by omega) (by omega), List.nil_append]
        refine (decodeFrom_next (by omega) (by split <;> omega) (by split <;> omega) 1 _).trans ?_
        refine (decodeFrom_next (by omega) (by omega) (by omega) 0 _).trans ?_
        refine (decodeFrom_last (by omega) (by omega) (by omega) _).trans ?_
        have hbits : (((v / 262144 % 0x08 + 0xF0 - 0xF0) * 64 + (v / 4096 % 0x40 + 0x80) % 64) * 64 +
            (v / 64 % 0x40 + 0x80) % 64) * 64 + (v % 0x40 + 0x80) % 64 = v := by omega
        rw [hbits, hchar]

/-- A text is decoded from the bytes that it is written with. -/
theorem fromUtf8Lossy_encode (text : List Char) :
    fromUtf8Lossy (text.flatMap String.utf8EncodeChar) = text := by
  unfold fromUtf8Lossy
  induction text with
  | nil => rfl
  | cons c rest ih => rw [List.flatMap_cons, decodeFrom_encodeChar, ih]

end AlphaMonitor.Lib
