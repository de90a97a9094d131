import AlphaMonitor.Models

/-!
# Error texts of the Opinion client and their classification

The trading code decides what an error means by searching its text.  This file
holds the texts that the client builds for a failed request and the predicates
that the engine applies to them.

`to_lowercase` maps ASCII letters as usual; every other character goes through
a table that may look at the text around it, and all results hold for any such
table.
-/

namespace AlphaMonitor.Trade

/-! ## Lower case and substrings -/

/-- Lower-case form of a non-ASCII character, given the text before and after it. -/
abbrev LowerTable := List Char → List Char → Char → List Char

/-- Lower-case the characters of a text whose beginning is already handled. -/
def lowerFrom (u : LowerTable) (before : List Char) : List Char → List Char
  | [] => []
  | c :: rest =>
    (if c.val < 128 then [c.toLower] else u before rest c) ++ lowerFrom u (before ++ [c]) rest

/-- `to_lowercase`. -/
def toLowercase (u : LowerTable) (text : String) : List Char :=
  lowerFrom u [] text.toList

/-- `msg.contains(needle)`. -/
def contains (msg : List Char) (needle : String) : Prop :=
  needle.toList <:+: msg

instance (msg : List Char) (needle : String) : Decidable (contains msg needle) :=
  inferInstanceAs (Decidable (_ <:+: _))

theorem lowerFrom_append (u : LowerTable) (before xs ys : List Char) :
    ∃ before', lowerFrom u before (xs ++ ys) =
      (lowerFrom (fun b a c => u b (a ++ ys) c) before xs) ++ lowerFrom u before' ys := by
  induction xs generalizing before with
  | nil => exact ⟨before, rfl⟩
  | cons c rest ih =>
    obtain ⟨before', h⟩ := ih (before ++ [c])
    refine ⟨before', ?_⟩
    simp only [List.cons_append, lowerFrom, h, List.append_assoc]

/-- ASCII text is lowered character by character, whatever the table says. -/
theorem lowerFrom_ascii (u : LowerTable) (before xs : List Char)
    (h : ∀ c ∈ xs, c.val < 128) : lowerFrom u before xs = xs.map Char.toLower := by
  induction xs generalizing before with
  | nil => rfl
  | cons c rest ih =>
    have hc : c.val < 128 := h c (List.mem_cons_self ..)
    have hrest := ih (before ++ [c]) (fun d hd => h d (List.mem_cons_of_mem _ hd))
    simp [lowerFrom, hc, hrest]

/-- The text has ASCII characters only. -/
def isAscii (text : String) : Bool := text.toList.all fun c => decide (c.val < 128)

theorem val_lt_of_isAscii {text : String} (h : isAscii text = true) :
    ∀ c ∈ text.toList, c.val < 128 := by
  intro c hc
  exact of_decide_eq_true (List.all_eq_true.mp h c hc)

/-- A text that begins with ASCII keeps what that beginning contains. -/
theorem contains_toLowercase_of_ascii_prefix (u : LowerTable) (pre rest needle : String)
    (hascii : isAscii pre = true)
    (hin : needle.toList <:+: pre.toList.map Char.toLower) :
    contains (toLowercase u (pre ++ rest)) needle := by
  obtain ⟨before', h⟩ := lowerFrom_append u [] pre.toList rest.toList
  unfold contains toLowercase
  rw [String.toList_append, h, lowerFrom_ascii _ _ _ (val_lt_of_isAscii hascii)]
  exact hin.trans (List.prefix_append _ _).isInfix

/-! ## Error texts -/

/-- `"opinion openapi http error method={} url={} status={} body={}"`. -/
def httpErrorText (method url status body : String) : String :=
  "opinion openapi http error method=" ++ method ++ " url=" ++ url ++ " status=" ++ status ++
    " body=" ++ body

/-- The text of a request that could not be sent or got no answer. -/
def requestFailedText : String := "opinion openapi request failed"

/-- The text of a body that is not JSON. -/
def parseFailedText (raw : String) : String :=
  "opinion openapi response parse failed: " ++ raw

/-- `"opinion api error errno={} errmsg={}"`. -/
def apiErrorText (errno : ℤ) (errmsg : String) : String :=
  "opinion api error errno=" ++ toString errno ++ " errmsg=" ++ errmsg

/-- The text of an accepted order whose id could not be found. -/
def orderIdMissingText : String := "opinion order_id missing"

/-! ## Classification by text -/

/-- `is_post_only_reject`. -/
def isPostOnlyReject (u : LowerTable) (err : String) : Prop :=
  let msg := toLowercase u err
  contains msg "post" ∨ contains msg "maker" ∨ contains msg "post-only" ∨
    contains msg "post only" ∨ contains msg "would cross" ∨ contains msg "cross"

instance (u : LowerTable) (err : String) : Decidable (isPostOnlyReject u err) :=
  inferInstanceAs (Decidable (_ ∨ _))

/-- `is_order_id_missing`. -/
def isOrderIdMissing (u : LowerTable) (err : String) : Prop :=
  let msg := toLowercase u err
  contains msg "order_id missing" ∨ contains msg "order id missing"

instance (u : LowerTable) (err : String) : Decidable (isOrderIdMissing u err) :=
  inferInstanceAs (Decidable (_ ∨ _))

/-! ## What the texts are classified as -/

/-- Every HTTP error of an order placement reads as a post-only rejection: its
text names the method `POST`. -/
theorem httpErrorText_isPostOnlyReject (u : LowerTable) (url status body : String) :
    isPostOnlyReject u (httpErrorText "POST" url status body) := by
  have htext : httpErrorText "POST" url status body =
      "opinion openapi http error method=POST" ++
        (" url=" ++ url ++ " status=" ++ status ++ " body=" ++ body) := by
    have hlit : "opinion openapi http error method=" ++ "POST" =
        "opinion openapi http error method=POST" := by decide +kernel
    unfold httpErrorText
    rw [hlit]
    ac_rfl
  have hpre := contains_toLowercase_of_ascii_prefix u
    "opinion openapi http error method=POST"
    (" url=" ++ url ++ " status=" ++ status ++ " body=" ++ body) "post"
    (by decide +kernel) (by decide +kernel)
  rw [htext]
  exact Or.inl hpre

/-- A literal ASCII text is lowered without the table. -/
theorem toLowercase_ascii (u : LowerTable) (text : String)
    (h : isAscii text = true) :
    toLowercase u text = text.toList.map Char.toLower :=
  lowerFrom_ascii u [] text.toList (val_lt_of_isAscii h)

theorem requestFailedText_not_isPostOnlyReject (u : LowerTable) :
    ¬ isPostOnlyReject u requestFailedText := by
  have hlow := toLowercase_ascii u requestFailedText (by decide +kernel)
  simp only [isPostOnlyReject, hlow]
  decide +kernel

theorem orderIdMissingText_not_isPostOnlyReject (u : LowerTable) :
    ¬ isPostOnlyReject u orderIdMissingText := by
  have hlow := toLowercase_ascii u orderIdMissingText (by decide +kernel)
  simp only [isPostOnlyReject, hlow]
  decide +kernel

end AlphaMonitor.Trade
