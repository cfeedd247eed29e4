import RcaBackend.JsonLoads
import RcaBackend.PyNumerals

/-!
# The text of a contract row

`model_dump_json` writes a row compactly, its fields in order. Control characters,
quotes and backslashes are escaped; every other character is written as it is, so a
string with a lone surrogate cannot be written. The values of a row are strings,
integers, booleans and `None`. What is written loads as an object with the same
entries, as long as its integers are not too long for `int`.
-/

namespace RcaBackend

/-- A value in a contract row. -/
inductive RowValue where
  | null
  | bool (value : Bool)
  | int (value : Int)
  | str (text : PyStr)
deriving DecidableEq

/-- The fields of a row with their values. -/
abbrev Row := List (PyStr × RowValue)

namespace RowValue

/-- The Python object that a reader of the row gets. -/
def json : RowValue → Json
  | .null => .null
  | .bool value => .bool value
  | .int value => .int value
  | .str text => .str text

/-- The encoder accepts the value. -/
def encodable : RowValue → Bool
  | .str text => RcaBackend.encodable text
  | .null | .bool _ | .int _ => true

/-- `int` converts the value back. -/
def Loadable : RowValue → Prop
  | .int value => (natText value.natAbs).length ≤ JsonLoads.maxStrDigits
  | .null | .bool _ | .str _ => True

end RowValue

/-- A lower-case hexadecimal digit. -/
def hexLetter (digit : Nat) : Nat := if digit < 10 then 48 + digit else 87 + digit

/-- A character inside a JSON string. -/
def escaped (c : Nat) : PyStr :=
  if c = 34 then [92, 34]
  else if c = 92 then [92, 92]
  else if c = 8 then [92, 98]
  else if c = 9 then [92, 116]
  else if c = 10 then [92, 110]
  else if c = 12 then [92, 102]
  else if c = 13 then [92, 114]
  else if c < 32 then [92, 117, 48, 48, hexLetter (c / 16), hexLetter (c % 16)]
  else [c]

/-- A JSON string. -/
def quoted (text : PyStr) : PyStr := 34 :: (text.flatMap escaped ++ [34])

def RowValue.text : RowValue → PyStr
  | .null => py "null"
  | .bool value => if value then py "true" else py "false"
  | .int value => intText value
  | .str text => quoted text

def entryText (entry : PyStr × RowValue) : PyStr := quoted entry.1 ++ 58 :: entry.2.text

def entriesText : Row → PyStr
  | [] => []
  | [last] => entryText last
  | entry :: rest => entryText entry ++ 44 :: entriesText rest

/-- The compact JSON object of a row. -/
def rowText (row : Row) : PyStr := 123 :: (entriesText row ++ [125])

/-- `model_dump_json()` of a row. -/
def modelDumpJson (row : Row) : Except PyExc PyStr :=
  if row.all fun entry => entry.2.encodable then .ok (rowText row) else .error .serializationError

/-- The dictionary that a reader of the row gets. -/
def Row.entries (row : Row) : Dict := row.map fun entry => (entry.1, entry.2.json)

/-! ## Reading a row back -/

namespace JsonLoads

/-- What follows a value in a row: a comma or a closing brace. -/
def Follows (c : Nat) : Prop := c = 44 ∨ c = 125

theorem hexDigit_hexLetter (digit : Nat) (small : digit < 16) :
    hexDigit (hexLetter digit) = some digit := by
  have all : ∀ digit < 16, hexDigit (hexLetter digit) = some digit := by decide
  exact all digit small

/-- One character of a string is read back from its escape. -/
theorem scanString_escaped (c : Nat) (rest : PyStr) :
    scanString none (escaped c ++ rest) = prepend [c] (scanString none rest) := by
  fun_cases escaped c with
  | case1 | case2 | case3 | case4 | case5 | case6 | case7 =>
    simp [scanString, escapeLetter, *]
  | case8 =>
    have control : c < 32 := by assumption
    have high := hexDigit_hexLetter (c / 16) (by omega)
    have low := hexDigit_hexLetter (c % 16) (by omega)
    have zero : hexDigit 48 = some 0 := by decide
    have whole : 16 * (c / 16) + c % 16 = c := Nat.div_add_mod c 16
    have code : hexCode 48 48 (hexLetter (c / 16)) (hexLetter (c % 16)) = some c := by
      simp [hexCode, zero, high, low, whole]
    have plain : isHighSurrogate c = false := by
      simp only [isHighSurrogate, Bool.and_eq_false_iff, decide_eq_false_iff_not]
      omega
    simp [scanString, code, plain]
  | case9 notQuote notBackslash _ _ _ _ _ visible =>
    simp [scanString, visible, notBackslash]

theorem scanString_text (text rest : PyStr) :
    scanString none (text.flatMap escaped ++ 34 :: rest) = .ok (text, rest) := by
  induction text with
  | nil => rfl
  | cons c text inductionHypothesis =>
    rw [List.flatMap_cons, List.append_assoc, scanString_escaped, inductionHypothesis]
    rfl

/-- A string is read back from its quoted text. -/
theorem scanString_quoted (text rest : PyStr) :
    ∃ after, quoted text ++ rest = 34 :: after ∧ scanString none after = .ok (text, rest) := by
  refine ⟨text.flatMap escaped ++ 34 :: rest, ?_, scanString_text text rest⟩
  simp [quoted]

/-- The digits of a number, of which `int` takes so many, are read up to their end. -/
theorem scanUnsigned_natText (negative : Bool) {n c : Nat} (rest : PyStr)
    (short : (natText n).length ≤ maxStrDigits) (follows : Follows c) :
    scanUnsigned negative (natText n ++ c :: rest) =
      .ok (.int (if negative then -(n : Int) else n), c :: rest) := by
  have noDigit : isAsciiDigit c = false := by
    obtain rfl | rfl := follows <;> rfl
  have whole : wholeDigits (natText n ++ c :: rest) = (natText n, c :: rest) := by
    rcases Nat.eq_zero_or_pos n with rfl | positive
    · rfl
    · have first := natText_head positive
      rw [← leadingDigits_natText n noDigit]
      cases digits : natText n with
      | nil => exact absurd digits (natText_ne_nil n)
      | cons digit others =>
        have nonzero : ¬ digit = 48 := by simpa [digits] using first
        simp [wholeDigits, nonzero]
  have fraction : fractionDigits (c :: rest) = ([], c :: rest) := by
    obtain rfl | rfl := follows <;> rfl
  have exponent : exponentPart (c :: rest) = none := by
    obtain rfl | rfl := follows <;> simp [exponentPart]
  simp only [scanUnsigned, whole, fraction, exponent]
  rw [if_neg (natText_ne_nil n), if_neg (by simp), if_neg (by omega), digitsValue_natText]

theorem scanLiteral_none {text : PyStr}
    (unnamed : ∀ name ∈ literals.map Prod.fst, name.isPrefixOf text = false) :
    scanLiteral text = none := by
  rw [scanLiteral, List.findSome?_eq_none_iff]
  intro literal member
  simp [unnamed literal.1 (List.mem_map_of_mem member)]

/-- Digits begin no name of a value. -/
theorem scanScalar_digits {digit : Nat} (others : PyStr) (low : 48 ≤ digit) (high : digit ≤ 57) :
    scanScalar (digit :: others) = scanUnsigned false (digit :: others) ∧
      scanScalar (45 :: digit :: others) = scanUnsigned true (digit :: others) := by
  have letters : 110 ≠ digit ∧ 116 ≠ digit ∧ 102 ≠ digit ∧ 78 ≠ digit ∧ 73 ≠ digit ∧ 45 ≠ digit := by
    omega
  have names : literals.map Prod.fst = [[110, 117, 108, 108], [116, 114, 117, 101],
      [102, 97, 108, 115, 101], [78, 97, 78], [73, 110, 102, 105, 110, 105, 116, 121],
      [45, 73, 110, 102, 105, 110, 105, 116, 121]] := rfl
  have unnamed : scanLiteral (digit :: others) = none := by
    apply scanLiteral_none
    rw [names]
    simp [List.isPrefixOf, letters]
  have negative : scanLiteral (45 :: digit :: others) = none := by
    apply scanLiteral_none
    rw [names]
    simp [List.isPrefixOf, letters]
  have unsigned : digit ≠ 45 := letters.2.2.2.2.2.symm
  constructor
  · simp [scanScalar, unnamed, scanNumber, unsigned]
  · simp [scanScalar, negative, scanNumber]

/-- An integer is read back from its text. -/
theorem scanScalar_intText {value : Int} {c : Nat} (rest : PyStr)
    (short : (natText value.natAbs).length ≤ maxStrDigits) (follows : Follows c) :
    scanScalar (intText value ++ c :: rest) = .ok (.int value, c :: rest) := by
  obtain ⟨digit, others, digits, low, high⟩ := natText_cons value.natAbs
  have plain := scanScalar_digits (others ++ c :: rest) low high
  rw [← List.cons_append, ← digits] at plain
  cases value with
  | ofNat n => exact plain.1.trans (scanUnsigned_natText false rest short follows)
  | negSucc n => exact plain.2.trans (scanUnsigned_natText true rest short follows)

/-- A value that begins as no string, list or object does is a scalar. -/
theorem scanValue_scalar [PyRuntime] (depth first : Nat) (rest : PyStr)
    (plain : first ≠ 34 ∧ first ≠ 91 ∧ first ≠ 123) :
    scanValue depth (first :: rest) = scanScalar (first :: rest) := by
  cases depth <;> simp [scanValue, plain]

/-- A value is read back from its text, at any depth. -/
theorem scanValue_text [PyRuntime] (depth : Nat) {value : RowValue} {c : Nat} (rest : PyStr)
    (loadable : value.Loadable) (follows : Follows c) :
    scanValue depth (value.text ++ c :: rest) = .ok (value.json, c :: rest) := by
  cases value with
  | null =>
    have scanned : scanScalar (py "null" ++ c :: rest) = .ok (.null, c :: rest) := rfl
    exact (scanValue_scalar depth 110 _ (by decide)).trans scanned
  | bool value =>
    cases value with
    | true =>
      have scanned : scanScalar (py "true" ++ c :: rest) = .ok (.bool true, c :: rest) := rfl
      exact (scanValue_scalar depth 116 _ (by decide)).trans scanned
    | false =>
      have scanned : scanScalar (py "false" ++ c :: rest) = .ok (.bool false, c :: rest) := rfl
      exact (scanValue_scalar depth 102 _ (by decide)).trans scanned
  | int value =>
    obtain ⟨first, others, shape, kind⟩ := intText_cons value
    have scanned := scanScalar_intText rest loadable follows
    rw [RowValue.text, RowValue.json]
    rw [shape, List.cons_append] at scanned ⊢
    rw [scanValue_scalar depth first _ (by omega), scanned]
  | str text =>
    obtain ⟨after, opened, scanned⟩ := scanString_quoted text (c :: rest)
    rw [RowValue.text, opened, RowValue.json]
    cases depth <;> simp [scanValue, scanned, Except.map]

theorem skipBlanks_cons {c : Nat} (rest : PyStr) (visible : isBlank c = false) :
    skipBlanks (c :: rest) = c :: rest :=
  List.dropWhile_cons_of_neg (by simp [visible])

/-- No value begins with a blank. -/
theorem skipBlanks_text (value : RowValue) (rest : PyStr) :
    skipBlanks (value.text ++ rest) = value.text ++ rest := by
  cases value with
  | null => exact skipBlanks_cons _ rfl
  | bool value => cases value <;> exact skipBlanks_cons _ rfl
  | int value =>
    obtain ⟨first, others, shape, kind⟩ := intText_cons value
    have visible : isBlank first = false := by
      simp only [isBlank, Bool.or_eq_false_iff, decide_eq_false_iff_not]
      omega
    rw [RowValue.text, shape]
    exact skipBlanks_cons _ visible
  | str text => exact skipBlanks_cons _ rfl

/-- A field is read back from its text. -/
theorem scanEntries_field [PyRuntime] (depth fuel : Nat) (entries : Dict)
    {entry : PyStr × RowValue} {c : Nat} (rest : PyStr) (loadable : entry.2.Loadable)
    (follows : Follows c) :
    scanEntries (scanValue depth) (fuel + 1) entries (entryText entry ++ c :: rest) =
      if c = 125 then .ok (entries.set entry.1 entry.2.json, rest)
      else scanEntries (scanValue depth) fuel (entries.set entry.1 entry.2.json) (skipBlanks rest) := by
  obtain ⟨key, value⟩ := entry
  obtain ⟨after, opened, scanned⟩ := scanString_quoted key (58 :: (value.text ++ c :: rest))
  have written : entryText (key, value) ++ c :: rest = 34 :: after := by
    rw [← opened, entryText, List.append_assoc, List.cons_append]
  have read := scanValue_text depth rest loadable follows
  rw [written, scanEntries, scanned]
  simp only [bind, Except.bind]
  rw [skipBlanks_cons (c := 58) _ rfl]
  simp only [skipBlanks_text, read]
  obtain rfl | rfl := follows
  · rw [skipBlanks_cons (c := 44) _ rfl]
    rfl
  · rw [skipBlanks_cons (c := 125) _ rfl]
    rfl

theorem entriesText_cons (entry : PyStr × RowValue) (row : Row) :
    ∃ after, entriesText (entry :: row) = 34 :: after := by
  cases row <;> exact ⟨_, rfl⟩

theorem skipBlanks_entries (entry : PyStr × RowValue) (row : Row) (rest : PyStr) :
    skipBlanks (entriesText (entry :: row) ++ rest) = entriesText (entry :: row) ++ rest := by
  obtain ⟨after, opened⟩ := entriesText_cons entry row
  rw [opened]
  exact skipBlanks_cons _ rfl

theorem entriesText_length (row : Row) : row.length ≤ (entriesText row).length := by
  induction row with
  | nil => exact Nat.le_refl 0
  | cons entry row inductionHypothesis =>
    cases row with
    | nil => simp [entriesText, entryText, quoted]
    | cons next row =>
      simp only [entriesText, List.length_append, List.length_cons] at inductionHypothesis ⊢
      omega

/-- The entries of a row are added one after the other. -/
theorem scanEntries_text [PyRuntime] (depth : Nat) {fuel : Nat} (entries : Dict)
    (entry : PyStr × RowValue) (row : Row) (rest : PyStr) (enough : row.length < fuel)
    (loadable : ∀ field ∈ entry :: row, field.2.Loadable) :
    scanEntries (scanValue depth) fuel entries (entriesText (entry :: row) ++ 125 :: rest) =
      .ok ((entry :: row).foldl (fun read field => read.set field.1 field.2.json) entries, rest) := by
  induction row generalizing entry entries fuel with
  | nil =>
    obtain ⟨fuel, rfl⟩ := Nat.exists_eq_succ_of_ne_zero (Nat.ne_of_gt enough)
    rw [entriesText, scanEntries_field depth fuel entries rest
      (loadable entry List.mem_cons_self) (Or.inr rfl)]
    rfl
  | cons next row inductionHypothesis =>
    obtain ⟨fuel, rfl⟩ := Nat.exists_eq_succ_of_ne_zero (Nat.ne_of_gt (Nat.zero_lt_of_lt enough))
    have split : entriesText (entry :: next :: row) =
        entryText entry ++ 44 :: entriesText (next :: row) := rfl
    rw [split, List.append_assoc, List.cons_append]
    rw [scanEntries_field depth fuel entries _ (loadable entry List.mem_cons_self) (Or.inl rfl)]
    rw [if_neg (by decide), skipBlanks_entries]
    apply inductionHypothesis
    · simpa using enough
    · intro field member
      exact loadable field (List.mem_cons_of_mem _ member)

end JsonLoads

/-- A row with distinct fields is the dictionary of its fields. -/
theorem foldl_set_row (row : Row) (distinct : (row.map Prod.fst).Nodup) :
    row.foldl (fun (read : Dict) field => read.set field.1 field.2.json) [] = row.entries := by
  have fields : row.entries.map Prod.fst = row.map Prod.fst := by
    simp [Row.entries]
  have merged := Dict.merge_fresh [] row.entries (by simpa [fields] using distinct)
  rwa [Dict.merge, Row.entries, List.foldl_map] at merged

open JsonLoads in
/-- A row is read back from its text. -/
theorem loads_rowText [PyRuntime] (deep : 0 < PyRuntime.recursionLimit) {row : Row}
    (nonempty : row ≠ []) (distinct : (row.map Prod.fst).Nodup)
    (loadable : ∀ field ∈ row, field.2.Loadable) :
    loads (rowText row) = .ok (.dict row.entries) := by
  obtain ⟨entry, rest, rfl⟩ := List.exists_cons_of_ne_nil nonempty
  obtain ⟨depth, limit⟩ := Nat.exists_eq_succ_of_ne_zero (Nat.ne_of_gt deep)
  have opened : skipBlanks (rowText (entry :: rest)) = rowText (entry :: rest) :=
    skipBlanks_cons _ rfl
  have long := entriesText_length (entry :: rest)
  have short : rest.length < (entriesText (entry :: rest) ++ [125]).length := by
    simp only [List.length_cons, List.length_append] at long ⊢
    omega
  have read := scanEntries_text depth [] entry rest [] short loadable
  rw [foldl_set_row _ distinct] at read
  have scanned : scanObject (scanValue depth) (entriesText (entry :: rest) ++ [125]) =
      .ok (.dict (Row.entries (entry :: rest)), []) := by
    obtain ⟨after, quote⟩ := entriesText_cons entry rest
    rw [quote, List.cons_append] at read ⊢
    rw [scanObject, skipBlanks_cons (c := 34) _ rfl]
    exact congrArg (Except.map fun result => (Json.dict result.1, result.2)) read
  rw [loads, if_neg (by simp [rowText]), opened, limit, rowText, scanValue, scanned]
  rfl

end RcaBackend
