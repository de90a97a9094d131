import AlphaMonitor.Lib.Csv
import AlphaMonitor.Lib.Run
import Mathlib.Algebra.Order.Ring.Rat

/-!
# The alpha log

The trade engine hands its log entries to a worker that appends them to a file, a line for
each entry.  A worker that finds the file empty when it starts writes the header before its
first line.  Processes come and go, and the file stays.

How a float is written is a parameter.

## Main definitions

- `AlphaLogEntry`, `csvHeader`, `csvRow`: the lines
- `logMachine`: the file, the worker, and who truncates the file

## Main results

- `alpha_log_reads_back`: the file is a table with one header and all entries
- `truncated_log_has_no_header`: after a truncation under a running worker it has none
-/

namespace AlphaMonitor.Trade

open AlphaMonitor.Lib

/-- The marks of the log. -/
def logMarks : CsvMarks Char where
  comma := ','
  quote := Char.ofNat 34
  newline := Char.ofNat 10
  comma_ne_quote := by decide
  comma_ne_newline := by decide
  newline_ne_quote := by decide

def carriageReturn : Char := Char.ofNat 13

/-- What ends a record for the reader besides a newline: some take a carriage return for an end, as
well. -/
def logEnds (returnEnds : Bool) (c : Char) : Bool := returnEnds && decide (c = carriageReturn)

/-! ## Entries -/

structure AlphaLogEntry where
  (tsMs barSecond : ℤ)
  (phase state : List Char)
  pairId : ℤ
  tokenSide : List Char
  direction : ℤ
  (alphaType alphaSource alphaSourceCfg : Option (List Char))
  (alphaValue alphaMin pmMove pmMom ofi250ms edgeRaw edgeNorm basePm pmMid opiMid : Option ℚ)
  (pmBestBid pmBestAsk opiBestBid opiBestAsk : Option ℚ)
  (pmStalenessMs opiStalenessMs : Option ℤ)
  (followScoreRaw followScoreAdj bookAlphaRaw bookAlphaAdj : Option ℚ)
  (trueNetSpreadBuyOpinion trueNetSpreadSellOpinion : Option ℚ)
  arbModeFlag : Option ℤ
  (entryPrice entryQty entryNotional exitPriceTarget exitPrice : Option ℚ)
  (entryOrderId exitOrderId : Option (List Char))
  (entryTsMs entryBarSecond holdingMs : Option ℤ)
  (opiLastPrice opiBidL1 opiAskL1 opiBidL3 opiAskL3 : Option ℚ)
  opiBarSecond : Option ℤ

/-- `f64::to_string`, which writes digits, a sign, a point or a name. -/
structure FloatText where
  text : ℚ → List Char
  plain : ∀ v, Csv.Plain logMarks (text v)
  noReturn : ∀ v, carriageReturn ∉ text v

/-- `i64::to_string`. -/
def intText (n : ℤ) : List Char := (toString n).toList

/-- A field before it is written. -/
inductive Cell where
  | int (n : ℤ)
  | text (t : List Char)
  | optText (t : Option (List Char))
  | optFloat (v : Option ℚ)
  | optInt (n : Option ℤ)

/-- `csv_header`. -/
def csvHeader : List (List Char) :=
  ["ts_ms", "bar_second", "phase", "state", "pair_id", "token_side", "direction", "alpha_type",
    "alpha_source", "alpha_source_cfg", "alpha_value", "alpha_min", "pm_move", "pm_mom",
    "ofi_250ms", "edge_raw", "edge_norm", "base_pm", "pm_mid", "opi_mid", "pm_best_bid",
    "pm_best_ask", "opi_best_bid", "opi_best_ask", "pm_staleness_ms", "opi_staleness_ms",
    "follow_score_raw", "follow_score_adj", "book_alpha_raw", "book_alpha_adj",
    "true_net_spread_buy_opinion", "true_net_spread_sell_opinion", "arb_mode_flag",
    "entry_price", "entry_qty", "entry_notional", "exit_price_target", "exit_price",
    "entry_order_id", "exit_order_id", "entry_ts_ms", "entry_bar_second", "holding_ms",
    "opi_last_price", "opi_bid_l1", "opi_ask_l1", "opi_bid_l3", "opi_ask_l3",
    "opi_bar_second"].map String.toList

/-- The fields of `csv_row`. -/
def AlphaLogEntry.cells (entry : AlphaLogEntry) : List Cell :=
  [.int entry.tsMs, .int entry.barSecond, .text entry.phase, .text entry.state,
    .int entry.pairId, .text entry.tokenSide, .int entry.direction, .optText entry.alphaType,
    .optText entry.alphaSource, .optText entry.alphaSourceCfg, .optFloat entry.alphaValue,
    .optFloat entry.alphaMin, .optFloat entry.pmMove, .optFloat entry.pmMom,
    .optFloat entry.ofi250ms, .optFloat entry.edgeRaw, .optFloat entry.edgeNorm,
    .optFloat entry.basePm, .optFloat entry.pmMid, .optFloat entry.opiMid,
    .optFloat entry.pmBestBid, .optFloat entry.pmBestAsk, .optFloat entry.opiBestBid,
    .optFloat entry.opiBestAsk, .optInt entry.pmStalenessMs, .optInt entry.opiStalenessMs,
    .optFloat entry.followScoreRaw, .optFloat entry.followScoreAdj,
    .optFloat entry.bookAlphaRaw, .optFloat entry.bookAlphaAdj,
    .optFloat entry.trueNetSpreadBuyOpinion, .optFloat entry.trueNetSpreadSellOpinion,
    .optInt entry.arbModeFlag, .optFloat entry.entryPrice, .optFloat entry.entryQty,
    .optFloat entry.entryNotional, .optFloat entry.exitPriceTarget, .optFloat entry.exitPrice,
    .optText entry.entryOrderId, .optText entry.exitOrderId, .optInt entry.entryTsMs,
    .optInt entry.entryBarSecond, .optInt entry.holdingMs, .optFloat entry.opiLastPrice,
    .optFloat entry.opiBidL1, .optFloat entry.opiAskL1, .optFloat entry.opiBidL3,
    .optFloat entry.opiAskL3, .optInt entry.opiBarSecond]

/-! ## Lines -/

/-- `csv_escape`. -/
def csvEscape (value : List Char) : List Char :=
  if logMarks.comma ∈ value ∨ logMarks.quote ∈ value ∨ logMarks.newline ∈ value then
    logMarks.quote ::
      (value.flatMap fun c => if c = logMarks.quote then [logMarks.quote, logMarks.quote] else [c])
      ++ [logMarks.quote]
  else value

variable (floats : FloatText)

/-- `to_string`, `csv_escape`, `opt_str`, `opt_f64` and `opt_i64`. -/
def Cell.write : Cell → List Char
  | .int n => intText n
  | .text t => csvEscape t
  | .optText t => (t.map csvEscape).getD []
  | .optFloat v => (v.map floats.text).getD []
  | .optInt n => (n.map intText).getD []

/-- `csv_row`. -/
def csvRow (entry : AlphaLogEntry) : List Char :=
  [logMarks.comma].intercalate (entry.cells.map (Cell.write floats))

/-! ## The worker -/

structure LogSystem where
  file : List Char
  /-- `csv_header_written` of the worker, if one is running. -/
  worker : Option Bool

inductive LogEvent where
  /-- A process starts its worker, which opens the file. -/
  | start
  | log (entry : AlphaLogEntry)
  | stop
  /-- The log is rotated: copied away and truncated. -/
  | truncate

namespace LogSystem

/-- There is no file yet. -/
def empty : LogSystem := ⟨[], none⟩

def step (s : LogSystem) : LogEvent → Option LogSystem
  | .start =>
    match s.worker with
    | none => some { s with worker := some (!s.file.isEmpty) }
    | some _ => none
  | .log entry =>
    match s.worker with
    | none => none
    | some written =>
      let header := if written then [] else
        [logMarks.comma].intercalate csvHeader ++ [logMarks.newline]
      some ⟨s.file ++ header ++ csvRow floats entry ++ [logMarks.newline], some true⟩
  | .stop =>
    match s.worker with
    | none => none
    | some _ => some { s with worker := none }
  | .truncate => some { s with file := [] }

end LogSystem

def logMachine : Machine LogSystem LogEvent where
  init s := s = LogSystem.empty
  step := LogSystem.step floats

/-! ## Lines as records -/

/-- The text of a field. -/
def Cell.content : Cell → List Char
  | .int n => intText n
  | .text t => t
  | .optText t => t.getD []
  | .optFloat v => (v.map floats.text).getD []
  | .optInt n => (n.map intText).getD []

/-- The record of an entry. -/
def AlphaLogEntry.record (entry : AlphaLogEntry) : List (List Char) :=
  entry.cells.map (Cell.content floats)

theorem csvEscape_eq (value : List Char) : csvEscape value = Csv.escape logMarks value := by
  unfold csvEscape Csv.escape
  by_cases hplain : Csv.Plain logMarks value
  · obtain ⟨hcomma, hquote, hnewline⟩ := hplain
    rw [if_neg (by rw [not_or, not_or]; exact ⟨hcomma, hquote, hnewline⟩),
      if_pos ⟨hcomma, hquote, hnewline⟩]
  · have hmark : logMarks.comma ∈ value ∨ logMarks.quote ∈ value ∨ logMarks.newline ∈ value := by
      by_contra hnone
      rw [not_or, not_or] at hnone
      exact hplain hnone
    have hdouble : (fun c => if c = logMarks.quote then [logMarks.quote, logMarks.quote] else [c]) =
        Csv.double logMarks := by
      funext c
      unfold Csv.double
      by_cases hquote : c = logMarks.quote
      · rw [if_pos hquote, if_pos hquote, hquote]
      · rw [if_neg hquote, if_neg hquote]
    rw [if_pos hmark, if_neg hplain, List.cons_append, hdouble]

theorem escape_of_plain {value : List Char} (h : Csv.Plain logMarks value) :
    value = Csv.escape logMarks value := (if_pos h).symm

theorem digits_intText (n : ℤ) : ∀ c ∈ intText n, c.isDigit = true ∨ c = '-' := by
  intro c hc
  have hnat : ∀ m : ℕ, c ∈ m.repr.toList → c.isDigit = true := by
    intro m hm
    rw [Nat.toList_repr] at hm
    exact Nat.isDigit_of_mem_toDigits (by omega) (by omega) hm
  cases n with
  | ofNat m => exact Or.inl (hnat m hc)
  | negSucc m =>
    have hneg : intText (Int.negSucc m) = '-' :: (m + 1).repr.toList := by
      change ("-" ++ (m + 1).repr).toList = _
      rw [String.toList_append]
      rfl
    rw [hneg] at hc
    rcases List.mem_cons.mp hc with hminus | hdigit
    · exact Or.inr hminus
    · exact Or.inl (hnat (m + 1) hdigit)

/-- Neither a mark nor a carriage return is in an integer. -/
theorem not_mem_intText (n : ℤ) {c : Char} (hdigit : c.isDigit = false) (hminus : c ≠ '-') :
    c ∉ intText n := by
  intro hin
  rcases digits_intText n c hin with h | h
  · rw [hdigit] at h
    cases h
  · exact hminus h

theorem plain_intText (n : ℤ) : Csv.Plain logMarks (intText n) :=
  ⟨not_mem_intText n rfl (by decide), not_mem_intText n rfl (by decide),
    not_mem_intText n rfl (by decide)⟩

/-- Every field is written escaped. -/
theorem Cell.write_eq (cell : Cell) :
    cell.write floats = Csv.escape logMarks (cell.content floats) := by
  cases cell with
  | int n => exact escape_of_plain (plain_intText n)
  | text t => exact csvEscape_eq t
  | optText t =>
    cases t with
    | none => rfl
    | some t => exact csvEscape_eq t
  | optFloat v =>
    cases v with
    | none => rfl
    | some v => exact escape_of_plain (floats.plain v)
  | optInt n =>
    cases n with
    | none => rfl
    | some n => exact escape_of_plain (plain_intText n)

theorem csvRow_eq (entry : AlphaLogEntry) :
    csvRow floats entry = Csv.writeRecord logMarks (entry.record floats) := by
  rw [csvRow, Csv.writeRecord, AlphaLogEntry.record, List.map_map]
  congr 1
  apply List.map_congr_left
  intro cell _
  exact cell.write_eq floats

theorem header_eq : [logMarks.comma].intercalate csvHeader =
    Csv.writeRecord logMarks csvHeader := by
  have hplain : csvHeader.map (Csv.escape logMarks) = csvHeader := by decide +kernel
  rw [Csv.writeRecord, hplain]

/-- The header has a name for every field. -/
theorem length_record (entry : AlphaLogEntry) :
    (entry.record floats).length = csvHeader.length := rfl

/-! ## Carriage returns -/

/-- The text that a field is given, if it is one. -/
def Cell.givenText : Cell → Option (List Char)
  | .text t => some t
  | .optText t => t
  | .int _ | .optFloat _ | .optInt _ => none

/-- `csv_escape` looks for commas, quotes and newlines: a text with none of them is written as it
is, and has no carriage return. -/
def AlphaLogEntry.ReturnsQuoted (entry : AlphaLogEntry) : Prop :=
  ∀ cell ∈ entry.cells, ∀ t ∈ cell.givenText, Csv.Plain logMarks t → carriageReturn ∉ t

theorem safe_of_noReturn {returnEnds : Bool} {value : List Char}
    (h : returnEnds = true → Csv.Plain logMarks value → carriageReturn ∉ value) :
    Csv.Safe logMarks (logEnds returnEnds) value := by
  intro hplain c hc
  cases returnEnds with
  | false => rfl
  | true =>
    refine decide_eq_false ?_
    rintro rfl
    exact h rfl hplain hc

theorem Cell.safe_content {returnEnds : Bool} (cell : Cell)
    (h : returnEnds = true → ∀ t ∈ cell.givenText, Csv.Plain logMarks t → carriageReturn ∉ t) :
    Csv.Safe logMarks (logEnds returnEnds) (cell.content floats) := by
  apply safe_of_noReturn
  intro hreturns hplain
  cases cell with
  | int n => exact not_mem_intText n rfl (by decide)
  | text t => exact h hreturns t rfl hplain
  | optText t =>
    cases t with
    | none => exact List.not_mem_nil
    | some t => exact h hreturns t rfl hplain
  | optFloat v =>
    cases v with
    | none => exact List.not_mem_nil
    | some v => exact floats.noReturn v
  | optInt n =>
    cases n with
    | none => exact List.not_mem_nil
    | some n => exact not_mem_intText n rfl (by decide)

theorem safe_record {returnEnds : Bool} {entry : AlphaLogEntry}
    (h : returnEnds = true → entry.ReturnsQuoted) :
    ∀ field ∈ entry.record floats, Csv.Safe logMarks (logEnds returnEnds) field := by
  intro field hfield
  obtain ⟨cell, hcell, rfl⟩ := List.mem_map.mp hfield
  exact cell.safe_content floats fun hreturns => h hreturns cell hcell

theorem safe_header (returnEnds : Bool) :
    ∀ field ∈ csvHeader, Csv.Safe logMarks (logEnds returnEnds) field := by
  have hnone : ∀ field ∈ csvHeader, carriageReturn ∉ field := by decide +kernel
  exact fun field hfield => safe_of_noReturn fun _ _ => hnone field hfield

/-! ## Reading the file back -/

/-- The entries since the file was truncated last. -/
def entriesSince (es : List LogEvent) : List AlphaLogEntry :=
  es.foldl (fun entries e =>
    match e with
    | .log entry => entries ++ [entry]
    | .truncate => []
    | .start | .stop => entries) []

theorem entriesSince_concat (es : List LogEvent) (e : LogEvent) :
    entriesSince (es ++ [e]) =
      match e with
      | .log entry => entriesSince es ++ [entry]
      | .truncate => []
      | .start | .stop => entriesSince es := by
  rw [entriesSince, List.foldl_append]
  cases e <;> rfl

/-- A table of entries; one without entries has no header. -/
def logTable (entries : List AlphaLogEntry) : List (List (List Char)) :=
  if entries = [] then [] else csvHeader :: entries.map (AlphaLogEntry.record floats)

theorem record_ne_nil (entry : AlphaLogEntry) : entry.record floats ≠ [] := List.cons_ne_nil _ _

theorem logTable_ne_nil (entries : List AlphaLogEntry) : ∀ r ∈ logTable floats entries, r ≠ [] := by
  intro r hr
  unfold logTable at hr
  split at hr
  · cases hr
  · rcases List.mem_cons.mp hr with rfl | hr
    · exact List.cons_ne_nil _ _
    · obtain ⟨entry, -, rfl⟩ := List.mem_map.mp hr
      exact record_ne_nil floats entry

theorem safe_logTable {returnEnds : Bool} {entries : List AlphaLogEntry}
    (h : returnEnds = true → ∀ entry ∈ entries, entry.ReturnsQuoted) :
    ∀ r ∈ logTable floats entries, ∀ field ∈ r, Csv.Safe logMarks (logEnds returnEnds) field := by
  intro r hr
  unfold logTable at hr
  split at hr
  · cases hr
  · rcases List.mem_cons.mp hr with rfl | hr
    · exact safe_header returnEnds
    · obtain ⟨entry, hentry, rfl⟩ := List.mem_map.mp hr
      exact safe_record floats fun hreturns => h hreturns entry hentry

namespace LogSystem

/-- Nobody truncates the file of a running worker. -/
def Quiet (s : LogSystem) : LogEvent → Prop
  | .truncate => s.worker = none
  | _ => True

/-- The file is the table of its entries, and a running worker knows if it has a header. -/
structure Tabled (es : List LogEvent) (s : LogSystem) : Prop where
  file : s.file = Csv.writeRecords logMarks (logTable floats (entriesSince es))
  worker : ∀ written ∈ s.worker, written = !s.file.isEmpty

variable {floats} {s s' : LogSystem} {es : List LogEvent}

theorem writeRecords_concat (records : List (List (List Char))) (record : List (List Char)) :
    Csv.writeRecords logMarks (records ++ [record]) =
      Csv.writeRecords logMarks records ++ Csv.writeRecord logMarks record ++
        [logMarks.newline] := by
  simp [Csv.writeRecords]

theorem isEmpty_writeRecords (records : List (List (List Char))) :
    (Csv.writeRecords logMarks records).isEmpty = records.isEmpty := by
  cases records with
  | nil => rfl
  | cons record records => simp [Csv.writeRecords]

/-- One more line, under a header if it is the first. -/
theorem file_of_log {written : Bool} {entries : List AlphaLogEntry} {file : List Char}
    (hfile : file = Csv.writeRecords logMarks (logTable floats entries))
    (hwritten : written = !file.isEmpty) (entry : AlphaLogEntry) :
    file ++ (if written then [] else
        [logMarks.comma].intercalate csvHeader ++ [logMarks.newline]) ++
        csvRow floats entry ++ [logMarks.newline] =
      Csv.writeRecords logMarks (logTable floats (entries ++ [entry])) := by
  have htable : logTable floats (entries ++ [entry]) =
      csvHeader :: (entries.map (AlphaLogEntry.record floats) ++ [entry.record floats]) := by
    rw [logTable, if_neg (List.append_ne_nil_of_right_ne_nil _ (List.cons_ne_nil _ _)),
      List.map_append]
    rfl
  rw [htable, ← List.cons_append, writeRecords_concat, csvRow_eq]
  rw [hfile, isEmpty_writeRecords] at hwritten
  congr 2
  cases entries with
  | nil =>
    rw [hwritten, hfile]
    simp [logTable, Csv.writeRecords, header_eq]
  | cons first rest =>
    rw [hwritten, hfile]
    simp [logTable]

theorem Tabled.step {e : LogEvent} (h : Tabled floats es s) (hquiet : s.Quiet e)
    (hstep : s.step floats e = some s') : Tabled floats (es ++ [e]) s' := by
  cases e with
  | start =>
    simp only [LogSystem.step] at hstep
    split at hstep
    · cases hstep
      refine ⟨by rw [entriesSince_concat]; exact h.file, ?_⟩
      intro written hwritten
      exact (Option.mem_some_iff.mp hwritten).symm
    · cases hstep
  | log entry =>
    simp only [LogSystem.step] at hstep
    split at hstep
    · cases hstep
    · rename_i written hworker
      cases hstep
      have hfile := file_of_log h.file (h.worker written hworker) entry
      refine ⟨?_, ?_⟩
      · rw [entriesSince_concat]
        exact hfile
      · intro written' hwritten'
        rw [← Option.mem_some_iff.mp hwritten']
        simp
  | stop =>
    simp only [LogSystem.step] at hstep
    split at hstep
    · cases hstep
    · cases hstep
      refine ⟨by rw [entriesSince_concat]; exact h.file, ?_⟩
      intro written hwritten
      cases hwritten
  | truncate =>
    cases hstep
    refine ⟨by rw [entriesSince_concat]; rfl, ?_⟩
    intro written hwritten
    rw [show s.worker = none from hquiet] at hwritten
    cases hwritten

end LogSystem

/-- Whatever the processes log, and however often the file is truncated between them, it reads
back as one header and the records of all entries since; for a reader that takes a carriage return
for the end of a record, where no text has one outside quotes. -/
theorem alpha_log_reads_back (returnEnds : Bool) {s : LogSystem} {es : List LogEvent}
    (hr : (logMachine floats).run LogSystem.empty es = some s)
    (hquiet : (logMachine floats).RunMeets LogSystem.Quiet LogSystem.empty es)
    (hreturns : returnEnds = true → ∀ entry ∈ entriesSince es, entry.ReturnsQuoted) :
    Csv.readRecords logMarks (logEnds returnEnds) s.file =
      some (logTable floats (entriesSince es)) := by
  have hstart : LogSystem.Tabled floats [] LogSystem.empty :=
    ⟨rfl, fun _ hwritten => (by cases hwritten)⟩
  have htabled := (logMachine floats).hist_of_runMeets
    (fun _ _ _ _ h hquiet hstep => LogSystem.Tabled.step h hquiet hstep) hstart hquiet hr
  rw [htabled.file, List.nil_append]
  exact Csv.readRecords_all (logTable_ne_nil floats _) (safe_logTable floats hreturns)

/-- An entry without values but for a note with marks in it. -/
def sampleEntry (phase : String) : AlphaLogEntry where
  tsMs := -5
  barSecond := 100
  phase := phase.toList
  state := "IDLE".toList
  pairId := 7
  tokenSide := "YES".toList
  direction := 1
  alphaType := none
  alphaSource := some "book,alpha".toList
  alphaSourceCfg := none
  alphaValue := none
  alphaMin := none
  pmMove := none
  pmMom := none
  ofi250ms := none
  edgeRaw := none
  edgeNorm := none
  basePm := none
  pmMid := none
  opiMid := none
  pmBestBid := none
  pmBestAsk := none
  opiBestBid := none
  opiBestAsk := none
  pmStalenessMs := some 30
  opiStalenessMs := none
  followScoreRaw := none
  followScoreAdj := none
  bookAlphaRaw := none
  bookAlphaAdj := none
  trueNetSpreadBuyOpinion := none
  trueNetSpreadSellOpinion := none
  arbModeFlag := some 0
  entryPrice := none
  entryQty := none
  entryNotional := none
  exitPriceTarget := none
  exitPrice := none
  entryOrderId := none
  exitOrderId := none
  entryTsMs := none
  entryBarSecond := none
  holdingMs := none
  opiLastPrice := none
  opiBidL1 := none
  opiAskL1 := none
  opiBidL3 := none
  opiAskL3 := none
  opiBarSecond := some 100

/-- No float is written in the sample. -/
def noFloats : FloatText := ⟨fun _ => [], fun _ => by decide, fun _ => List.not_mem_nil⟩

/-- Two processes, one after the other. -/
def twoProcesses : List LogEvent :=
  [.start, .log (sampleEntry "signal"), .stop, .start, .log (sampleEntry "entry"), .stop]

theorem returnsQuoted_of_all {entry : AlphaLogEntry}
    (h : entry.cells.all (fun cell => cell.givenText.all fun t => decide (carriageReturn ∉ t)) =
      true) : entry.ReturnsQuoted := by
  intro cell hcell t ht _
  have hcells := List.all_eq_true.mp h cell hcell
  rw [Option.mem_def.mp ht] at hcells
  exact of_decide_eq_true hcells

theorem alpha_log_reads_back_twice :
    ∃ s, (logMachine noFloats).run LogSystem.empty twoProcesses = some s ∧
      Csv.readRecords logMarks (logEnds true) s.file =
        some (logTable noFloats [sampleEntry "signal", sampleEntry "entry"]) := by
  refine ⟨_, rfl, @alpha_log_reads_back noFloats true _ twoProcesses rfl ?_ ?_⟩
  rotate_left
  · intro _ entry hentry
    apply returnsQuoted_of_all
    rcases List.mem_cons.mp hentry with rfl | hentry
    · decide +kernel
    · rw [List.mem_singleton.mp hentry]
      decide +kernel
  apply (logMachine noFloats).runMeets_of_forall
  intro e he s
  cases e with
  | truncate => simp [twoProcesses] at he
  | start | log | stop => trivial

/-! ## Rotation under a running worker -/

namespace LogSystem

/-- The file holds the entries alone, and the worker takes it for headed. -/
structure Unheaded (es : List LogEvent) (s : LogSystem) : Prop where
  file : s.file = Csv.writeRecords logMarks
    ((entriesSince es).map (AlphaLogEntry.record floats))
  worker : ∀ written ∈ s.worker, written = true

variable {floats} {s s' : LogSystem} {es : List LogEvent}

theorem Unheaded.step {e : LogEvent} (h : Unheaded floats es s) (hstart : e ≠ .start)
    (hstep : s.step floats e = some s') : Unheaded floats (es ++ [e]) s' := by
  cases e with
  | start => exact absurd rfl hstart
  | log entry =>
    simp only [LogSystem.step] at hstep
    split at hstep
    · cases hstep
    · rename_i written hworker
      cases hstep
      obtain rfl := h.worker written hworker
      refine ⟨?_, fun written hwritten => (Option.mem_some_iff.mp hwritten).symm⟩
      rw [entriesSince_concat, List.map_append, List.map_singleton, writeRecords_concat,
        ← h.file, csvRow_eq, if_pos rfl, List.append_nil]
  | stop =>
    simp only [LogSystem.step] at hstep
    split at hstep
    · cases hstep
    · cases hstep
      exact ⟨by rw [entriesSince_concat]; exact h.file, fun _ hwritten => (by cases hwritten)⟩
  | truncate =>
    cases hstep
    exact ⟨by rw [entriesSince_concat]; rfl, h.worker⟩

end LogSystem

/-- A file that is truncated under a worker past its header has no header any more: the first
entry stands in its place until a process starts. -/
theorem truncated_log_has_no_header (returnEnds : Bool) {s s' : LogSystem} {es : List LogEvent}
    (hworker : s.worker = some true)
    (hr : (logMachine floats).run s (.truncate :: es) = some s') (hstart : ∀ e ∈ es, e ≠ .start)
    (hreturns : returnEnds = true → ∀ entry ∈ entriesSince es, entry.ReturnsQuoted) :
    Csv.readRecords logMarks (logEnds returnEnds) s'.file =
      some ((entriesSince es).map (AlphaLogEntry.record floats)) := by
  obtain ⟨t, ht, hrest⟩ := (logMachine floats).run_cons_eq_some hr
  cases ht
  have hempty : LogSystem.Unheaded floats [] { s with file := [] } := by
    refine ⟨rfl, fun written hwritten => ?_⟩
    rw [hworker] at hwritten
    exact (Option.mem_some_iff.mp hwritten).symm
  have hunheaded := (logMachine floats).hist_of_runMeets
    (fun _ _ _ _ h hnot hstep => LogSystem.Unheaded.step h hnot hstep) hempty
    ((logMachine floats).runMeets_of_forall (fun e he _ => hstart e he) _) hrest
  rw [hunheaded.file, List.nil_append]
  apply Csv.readRecords_all
  · intro r hmem
    obtain ⟨entry, -, rfl⟩ := List.mem_map.mp hmem
    exact record_ne_nil floats entry
  · intro r hmem
    obtain ⟨entry, hentry, rfl⟩ := List.mem_map.mp hmem
    exact safe_record floats fun hends => hreturns hends entry hentry

theorem truncated_log_has_no_header_one :
    ∃ s s', (logMachine noFloats).run LogSystem.empty [.start, .log (sampleEntry "signal")] =
        some s ∧
      (logMachine noFloats).run s [.truncate, .log (sampleEntry "entry")] = some s' ∧
        Csv.readRecords logMarks (logEnds false) s'.file =
          some [(sampleEntry "entry").record noFloats] := by
  refine ⟨⟨_, some true⟩, ⟨_, some true⟩, rfl, rfl, ?_⟩
  refine @truncated_log_has_no_header noFloats false ⟨_, some true⟩ _ [.log (sampleEntry "entry")] rfl
    rfl ?_ (fun h => Bool.noConfusion h)
  intro e he
  rw [List.mem_singleton.mp he]
  exact LogEvent.noConfusion

end AlphaMonitor.Trade
