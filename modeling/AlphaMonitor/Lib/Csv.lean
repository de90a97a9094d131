import Mathlib.Data.List.Basic

/-!
# Separated records

Records are lines of fields.  A field that contains a mark is put in quotes, and a quote in
it is doubled.  The reader goes through the text once and refuses what no writer writes.

The alphabet is arbitrary; the marks are three of its letters.  A reader may take further letters
for the end of a record, which a writer that knows only the newline does not put in quotes.

## Main results

- `readRecords_writeRecords`: what was written is read, and reading goes on behind it
-/

namespace AlphaMonitor.Lib

/-- What separates fields, what encloses them and what ends a record. -/
structure CsvMarks (α : Type*) where
  (comma quote newline : α)
  comma_ne_quote : comma ≠ quote
  comma_ne_newline : comma ≠ newline
  newline_ne_quote : newline ≠ quote

namespace Csv

variable {α : Type*} [DecidableEq α] (marks : CsvMarks α)

/-! ## Writing -/

/-- A letter of a field in quotes. -/
def double (c : α) : List α := if c = marks.quote then [c, c] else [c]

/-- The field has no mark in it. -/
def Plain (field : List α) : Prop :=
  marks.comma ∉ field ∧ marks.quote ∉ field ∧ marks.newline ∉ field

instance (field : List α) : Decidable (Plain marks field) :=
  inferInstanceAs (Decidable (_ ∧ _ ∧ _))

def escape (field : List α) : List α :=
  if Plain marks field then field
  else marks.quote :: (field.flatMap (double marks) ++ [marks.quote])

def writeRecord (record : List (List α)) : List α :=
  [marks.comma].intercalate (record.map (escape marks))

/-- Every record ends with a newline. -/
def writeRecords (records : List (List (List α))) : List α :=
  records.flatMap fun record => writeRecord marks record ++ [marks.newline]

/-! ## Reading -/

-- further letters that end a record for the reader
variable (ends : α → Bool)

/-- Where the reader is in a field. -/
inductive Place where
  | start
  | plain
  | quoted
  /-- Behind a quote in a quoted field, which ends the field or is doubled. -/
  | closing
  deriving DecidableEq, Repr

/-- The letter ends a record. -/
def EndsRecord (c : α) : Prop := c = marks.newline ∨ ends c = true

instance (c : α) : Decidable (EndsRecord marks ends c) := inferInstanceAs (Decidable (_ ∨ _))

/-- Read on from a place, with the letters of the field and the fields of the record read so
far. -/
def readFrom (place : Place) (field : List α) (record : List (List α)) :
    List α → Option (List (List (List α)))
  | [] =>
    match place with
    | .quoted => none
    | .start => if record = [] then some [] else some [record ++ [field]]
    | .plain | .closing => some [record ++ [field]]
  | c :: rest =>
    match place with
    | .quoted =>
      if c = marks.quote then readFrom .closing field record rest
      else readFrom .quoted (field ++ [c]) record rest
    | .start =>
      if c = marks.comma then readFrom .start [] (record ++ [field]) rest
      else if c = marks.quote then readFrom .quoted field record rest
      else if EndsRecord marks ends c then
        (readFrom .start [] [] rest).map fun records => (record ++ [field]) :: records
      else readFrom .plain (field ++ [c]) record rest
    | .plain =>
      if c = marks.comma then readFrom .start [] (record ++ [field]) rest
      -- a quote in the middle of a field
      else if c = marks.quote then none
      else if EndsRecord marks ends c then
        (readFrom .start [] [] rest).map fun records => (record ++ [field]) :: records
      else readFrom .plain (field ++ [c]) record rest
    | .closing =>
      if c = marks.comma then readFrom .start [] (record ++ [field]) rest
      else if c = marks.quote then readFrom .quoted (field ++ [c]) record rest
      else if EndsRecord marks ends c then
        (readFrom .start [] [] rest).map fun records => (record ++ [field]) :: records
      -- a letter behind a quoted field
      else none

def readRecords (text : List α) : Option (List (List (List α))) :=
  readFrom marks ends .start [] [] text

/-- A field that is written without quotes has nothing in it that ends a record. -/
def Safe (field : List α) : Prop := Plain marks field → ∀ c ∈ field, ends c = false

variable {marks ends}

/-! ## Round trip -/

theorem readFrom_plain {field more : List α} {record : List (List α)} {rest : List α}
    (hplain : Plain marks more) (hsafe : ∀ c ∈ more, ends c = false) :
    readFrom marks ends .plain field record (more ++ rest) =
      readFrom marks ends .plain (field ++ more) record rest := by
  induction more generalizing field with
  | nil => rw [List.nil_append, List.append_nil]
  | cons c more ih =>
    obtain ⟨hcomma, hquote, hnewline⟩ := hplain
    rw [List.mem_cons, not_or] at hcomma hquote hnewline
    have hgoes : ¬EndsRecord marks ends c := by
      rintro (hnew | hends)
      · exact hnewline.1 hnew.symm
      · rw [hsafe c List.mem_cons_self] at hends
        cases hends
    rw [List.cons_append, readFrom, if_neg (Ne.symm hcomma.1), if_neg (Ne.symm hquote.1),
      if_neg hgoes, ih ⟨hcomma.2, hquote.2, hnewline.2⟩ fun c hc => hsafe c (List.mem_cons_of_mem _ hc),
      List.append_assoc, List.singleton_append]

theorem readFrom_quoted (field more : List α) (record : List (List α)) (rest : List α) :
    readFrom marks ends .quoted field record (more.flatMap (double marks) ++ marks.quote :: rest) =
      readFrom marks ends .closing (field ++ more) record rest := by
  induction more generalizing field with
  | nil =>
    rw [List.flatMap_nil, List.nil_append, List.append_nil, readFrom, if_pos rfl]
  | cons c more ih =>
    rw [List.flatMap_cons, List.append_assoc, double]
    by_cases hquote : c = marks.quote
    · -- a doubled quote
      rw [if_pos hquote, List.cons_append, List.cons_append, List.nil_append, readFrom,
        if_pos hquote, readFrom, if_neg (fun h => marks.comma_ne_quote (h.symm.trans hquote)),
        if_pos hquote, ih, List.append_assoc, List.singleton_append]
    · rw [if_neg hquote, List.singleton_append, readFrom, if_neg hquote, ih, List.append_assoc,
        List.singleton_append]

/-- A field is read as it was before it was escaped. -/
theorem readFrom_escape {field : List α} (hsafe : Safe marks ends field) (record : List (List α))
    (rest : List α) :
    ∃ place, place ≠ .quoted ∧
      readFrom marks ends .start [] record (escape marks field ++ rest) =
        readFrom marks ends place field record rest := by
  unfold escape
  by_cases hplain : Plain marks field
  · rw [if_pos hplain]
    cases field with
    | nil => exact ⟨.start, Place.noConfusion, rfl⟩
    | cons c more =>
      refine ⟨.plain, Place.noConfusion, ?_⟩
      -- the first letter is read like the others
      have hfirst : readFrom marks ends .start [] record (c :: more ++ rest) =
          readFrom marks ends .plain [] record (c :: more ++ rest) := by
        have hquote : ¬c = marks.quote := fun h => hplain.2.1 (h ▸ List.mem_cons_self)
        rw [List.cons_append, readFrom, readFrom, if_neg hquote, if_neg hquote]
      rw [hfirst, readFrom_plain hplain (hsafe hplain), List.nil_append]
  · refine ⟨.closing, Place.noConfusion, ?_⟩
    rw [if_neg hplain, List.cons_append, List.append_assoc, List.singleton_append, readFrom,
      if_neg (Ne.symm marks.comma_ne_quote), if_pos rfl, readFrom_quoted, List.nil_append]

theorem readFrom_comma {place : Place} (hplace : place ≠ .quoted) (field : List α)
    (record : List (List α)) (rest : List α) :
    readFrom marks ends place field record (marks.comma :: rest) =
      readFrom marks ends .start [] (record ++ [field]) rest := by
  cases place with
  | quoted => exact absurd rfl hplace
  | start | plain | closing =>
    rw [readFrom, if_pos rfl]

omit [DecidableEq α] in
theorem endsRecord_newline : EndsRecord marks ends marks.newline := Or.inl rfl

theorem readFrom_newline {place : Place} (hplace : place ≠ .quoted) (field : List α)
    (record : List (List α)) (rest : List α) :
    readFrom marks ends place field record (marks.newline :: rest) =
      (readRecords marks ends rest).map fun records => (record ++ [field]) :: records := by
  cases place with
  | quoted => exact absurd rfl hplace
  | start | plain | closing =>
    rw [readFrom, if_neg (Ne.symm marks.comma_ne_newline), if_neg marks.newline_ne_quote,
      if_pos endsRecord_newline]
    rfl

theorem readFrom_writeRecord {record : List (List α)} (hne : record ≠ [])
    (hsafe : ∀ field ∈ record, Safe marks ends field) (before : List (List α)) (rest : List α) :
    readFrom marks ends .start [] before (writeRecord marks record ++ marks.newline :: rest) =
      (readRecords marks ends rest).map fun records => (before ++ record) :: records := by
  induction record generalizing before with
  | nil => exact absurd rfl hne
  | cons field more ih =>
    have hfield := hsafe field List.mem_cons_self
    cases more with
    | nil =>
      have hone : writeRecord marks [field] = escape marks field := by
        simp [writeRecord, List.intercalate]
      obtain ⟨place, hplace, hread⟩ := readFrom_escape hfield before (marks.newline :: rest)
      rw [hone, hread, readFrom_newline hplace]
    | cons next more =>
      have hmore : writeRecord marks (field :: next :: more) =
          escape marks field ++ marks.comma :: writeRecord marks (next :: more) := by
        simp [writeRecord, List.intercalate]
      obtain ⟨place, hplace, hread⟩ := readFrom_escape hfield before
        (marks.comma :: (writeRecord marks (next :: more) ++ marks.newline :: rest))
      rw [hmore, List.append_assoc, List.cons_append, hread, readFrom_comma hplace,
        ih (List.cons_ne_nil _ _) fun f hf => hsafe f (List.mem_cons_of_mem _ hf),
        List.append_assoc, List.singleton_append]

/-- What was written is read, and reading goes on behind it. -/
theorem readRecords_writeRecords {records : List (List (List α))} (hne : ∀ r ∈ records, r ≠ [])
    (hsafe : ∀ r ∈ records, ∀ field ∈ r, Safe marks ends field) (rest : List α) :
    readRecords marks ends (writeRecords marks records ++ rest) =
      (readRecords marks ends rest).map fun more => records ++ more := by
  induction records with
  | nil =>
    rw [writeRecords, List.flatMap_nil, List.nil_append]
    exact Option.map_id'.symm
  | cons record records ih =>
    have hcons : writeRecords marks (record :: records) =
        writeRecord marks record ++ marks.newline :: writeRecords marks records := by
      rw [writeRecords, List.flatMap_cons, List.append_assoc, List.singleton_append]
      rfl
    rw [hcons, List.append_assoc, List.cons_append, readRecords,
      readFrom_writeRecord (hne record List.mem_cons_self) (hsafe record List.mem_cons_self),
      ih (fun r hr => hne r (List.mem_cons_of_mem _ hr))
        fun r hr => hsafe r (List.mem_cons_of_mem _ hr), Option.map_map]
    rfl

/-- All that was written is read. -/
theorem readRecords_all {records : List (List (List α))} (hne : ∀ r ∈ records, r ≠ [])
    (hsafe : ∀ r ∈ records, ∀ field ∈ r, Safe marks ends field) :
    readRecords marks ends (writeRecords marks records) = some records := by
  have h : readRecords marks ends (writeRecords marks records ++ []) = _ :=
    readRecords_writeRecords hne hsafe []
  rw [List.append_nil] at h
  rw [h, readRecords, readFrom]
  simp

end Csv

end AlphaMonitor.Lib
