import RcaBackend.Attempts
import RcaBackend.RawNormalizer
import RcaBackend.ReferenceInterpreter

/-!
# The metric that is analysed and the metric that is shown

`metric_pairs` and `normalize_metric` read a metric line independently. On a text both
read by the same patterns, and they agree. On an object they agree if a label or a
value is missing and the first numeric field, which both fall back to, has a key. With
both present the row shows the first label and the first value as they are; the
analysis passes over `label`, over names that are no strings and over values that are no
numbers, and falls back to other fields.
-/

namespace RcaBackend

open SignalPatterns Attempts PyRuntime

/-! ## The field that is analysed -/

/-- The first of the keys with a number. -/
def firstNumber (d : Dict) : List PyStr → Option Json
  | [] => none
  | key :: rest =>
    match d.get key with
    | .int value => some (.int value)
    | .float value => some (.float value)
    | _ => firstNumber d rest

/-- The label and the value that the patterns find in a text. -/
def textField [PyRuntime] (raw : PyStr) : Option (PyStr × PyStr) :=
  match reMatch promRe (strip raw) with
  | some found => some (groupText found 1, groupText found 2)
  | none => (reFindall pairRe raw).head?

/-- The label and the value in an object that the analysis goes by: a name and a number,
or else the first numeric field, or else what the patterns find in the line. -/
def analysedField [PyRuntime] (raw : PyStr) (d : Dict) : Option (PyStr × Json) :=
  match firstName d metricNameKeys, firstNumber d metricValueKeys with
  | some name, some number => some (name, number)
  | _, _ => (firstNumeric d).or ((textField raw).map fun pair => (pair.1, .str pair.2))

section Fields

variable {F : Type} [PyFloat F]

/-- Integers and floats are numbers. -/
def IsNumber : Json → Prop
  | .int _ | .float _ => True
  | _ => False

variable [PyRuntime]

/-- `_num` converts a number, and gives nothing for another value. -/
theorem num_ok {value : Json} {converted : Option F} (read : num value = .ok converted) :
    (∃ x, converted = some x ∧ IsNumber value ∧ floatValue value = .ok x) ∨
      converted = none ∧ ¬ IsNumber value := by
  cases value with
  | int n =>
    obtain ⟨x, made, rfl⟩ := map_ok_iff.mp read
    exact Or.inl ⟨x, rfl, trivial, made⟩
  | float literal => exact Or.inl ⟨_, (Except.ok.inj read).symm, trivial, rfl⟩
  | null | bool _ | str _ | list _ | dict _ =>
    exact Or.inr ⟨(Except.ok.inj read).symm, not_false⟩

omit [PyRuntime] in
/-- The first number is that of the first key, or that of the others. -/
theorem firstNumber_cons (d : Dict) (key : PyStr) (keys : List PyStr) :
    (IsNumber (d.get key) ∧ firstNumber d (key :: keys) = some (d.get key)) ∨
      (¬ IsNumber (d.get key) ∧ firstNumber d (key :: keys) = firstNumber d keys) := by
  rw [firstNumber]
  cases d.get key <;> simp [IsNumber]

omit [PyRuntime] in
/-- The first numeric field is the first one, or one of the others. -/
theorem firstNumeric_cons (key : PyStr) (value : Json) (rest : Dict) :
    (IsNumber value ∧ firstNumeric ((key, value) :: rest) = some (key, value)) ∨
      (¬ IsNumber value ∧ firstNumeric ((key, value) :: rest) = firstNumeric rest) := by
  cases value <;> simp [IsNumber, firstNumeric]

/-- The value of a field, if there is such a field. -/
def ReadsAs (field : Option Json) (converted : Option F) : Prop :=
  match converted with
  | some x => ∃ value, field = some value ∧ IsNumber value ∧ floatValue value = .ok x
  | none => field = none

/-- `_first_num` converts the first number. -/
theorem firstNum_ok {d : Dict} {keys : List PyStr} {converted : Option F}
    (read : firstNum d keys = .ok converted) : ReadsAs (firstNumber d keys) converted := by
  induction keys with
  | nil =>
    obtain rfl := Except.ok.inj read
    rfl
  | cons key keys inductionHypothesis =>
    obtain ⟨here, first, later⟩ := bind_ok_iff.mp read
    obtain ⟨x, rfl, number, value⟩ | ⟨rfl, other⟩ := num_ok first
    · obtain rfl := Except.ok.inj later
      obtain ⟨-, found⟩ | ⟨other, -⟩ := firstNumber_cons d key keys
      · exact ⟨_, found, number, value⟩
      · exact absurd number other
    · obtain ⟨number, -⟩ | ⟨-, passed⟩ := firstNumber_cons d key keys
      · exact absurd number other
      · rw [passed]
        exact inductionHypothesis later

/-- The first of the numeric pairs is the first numeric field. -/
theorem numericPairs_ok {d : Dict} {pairs : List (PyStr × F)} (read : numericPairs d = .ok pairs) :
    (pairs = [] → firstNumeric d = none) ∧ ∀ label x others, pairs = (label, x) :: others →
      ∃ value, firstNumeric d = some (label, value) ∧ IsNumber value ∧ floatValue value = .ok x := by
  induction d generalizing pairs with
  | nil =>
    obtain rfl := Except.ok.inj read
    exact ⟨fun _ => rfl, nofun⟩
  | cons entry rest inductionHypothesis =>
    obtain ⟨key, value⟩ := entry
    obtain ⟨converted, first, later⟩ := bind_ok_iff.mp read
    obtain ⟨others, followed, same⟩ := bind_ok_iff.mp later
    obtain ⟨x, rfl, number, made⟩ | ⟨rfl, other⟩ := num_ok first
    · obtain rfl := Except.ok.inj same
      obtain ⟨-, found⟩ | ⟨other, -⟩ := firstNumeric_cons key value rest
      · refine ⟨nofun, ?_⟩
        intro label y others same
        obtain ⟨rfl, rfl⟩ := Prod.mk.inj (List.cons.inj same).1
        exact ⟨value, found, number, made⟩
      · exact absurd number other
    · obtain rfl := Except.ok.inj same
      obtain ⟨number, -⟩ | ⟨-, passed⟩ := firstNumeric_cons key value rest
      · exact absurd number other
      · rw [passed]
        exact inductionHypothesis followed

/-- The first of the pairs in a text is what the patterns find. -/
theorem textPairs_ok {raw label : PyStr} {x : F} {rest : List (PyStr × F)}
    (read : textPairs raw = .ok ((label, x) :: rest)) :
    ∃ text, textField raw = some (label, text) ∧ floatText text = .ok x := by
  rw [textPairs] at read
  rw [textField]
  cases matched : reMatch promRe (strip raw) with
  | some found =>
    rw [matched] at read
    obtain ⟨value, made, same⟩ := bind_ok_iff.mp read
    obtain ⟨here, -⟩ := List.cons.inj (Except.ok.inj same)
    obtain ⟨rfl, rfl⟩ := Prod.mk.inj here
    exact ⟨_, rfl, made⟩
  | none =>
    rw [matched] at read
    obtain ⟨⟨name, text⟩, others, attempted, -, found⟩ :=
      List.forall₂_cons_right_iff.mp (mapM_ok_iff.mp read)
    obtain ⟨value, made, same⟩ := bind_ok_iff.mp attempted
    obtain ⟨rfl, rfl⟩ := Prod.mk.inj (Except.ok.inj same)
    exact ⟨text, by rw [found]; rfl, made⟩

/-- The first pair of the fallback is the first numeric field, or that of the text. -/
theorem fallback_ok {raw label : PyStr} {d : Dict} {x : F} {rest : List (PyStr × F)}
    (read : (do
      let pairs ← numericPairs d
      if pairs ≠ [] then return pairs else textPairs raw) = .ok ((label, x) :: rest)) :
    ∃ value, (firstNumeric d).or ((textField raw).map fun pair => (pair.1, .str pair.2)) =
      some (label, value) ∧ floatValue value = .ok x := by
  obtain ⟨pairs, numbers, chosen⟩ := bind_ok_iff.mp read
  obtain ⟨none, first⟩ := numericPairs_ok numbers
  split at chosen
  · obtain rfl := Except.ok.inj chosen
    obtain ⟨value, found, -, made⟩ := first label x rest rfl
    exact ⟨value, by rw [found]; rfl, made⟩
  · next empty =>
    obtain ⟨text, found, made⟩ := textPairs_ok chosen
    exact ⟨.str text, by rw [none (not_not.mp empty), found]; rfl, made⟩

/-- The first pair of an object is its analysed field. -/
theorem metricPairs_object {raw label : PyStr} {d : Dict} {x : F} {rest : List (PyStr × F)}
    (loaded : jsonOrNone raw = .ok (some (.dict d)))
    (analysed : metricPairs raw = .ok ((label, x) :: rest)) :
    ∃ value, analysedField raw d = some (label, value) ∧ floatValue value = .ok x := by
  obtain ⟨json, parsed, read⟩ := bind_ok_iff.mp analysed
  obtain rfl := Except.ok.inj (loaded.symm.trans parsed)
  obtain ⟨number, converted, chosen⟩ := bind_ok_iff.mp read
  have field := firstNum_ok converted
  rw [analysedField]
  cases name : firstName d metricNameKeys with
  | none =>
    rw [name] at chosen
    exact fallback_ok chosen
  | some name =>
    rw [name] at chosen
    cases number with
    | none =>
      rw [field]
      exact fallback_ok chosen
    | some y =>
      obtain ⟨value, found, -, made⟩ := field
      obtain ⟨rfl, rfl⟩ := Prod.mk.inj (List.cons.inj (Except.ok.inj chosen)).1
      exact ⟨value, by rw [found], made⟩

end Fields

/-! ## What the patterns find -/

/-- Characters that UTF-8 can encode. -/
abbrev Scalar (c : Nat) : Prop := isSurrogate c = false

/-- A pattern of such characters matches texts that can be encoded. -/
theorem encodable_within {pattern : Regex Nat} {text : PyStr} (denoted : pattern.Denotes text)
    (within : pattern.Within Scalar) : encodable text = true := by
  simp only [encodable, Bool.not_eq_true', List.any_eq_false]
  intro c member
  have scalar : Scalar c := pattern.denotes_within within denoted c member
  simp [scalar]

/-- An ASCII character is no surrogate. -/
theorem ascii_scalar {c : Nat} (ascii : c < 128) : isSurrogate c = false := by
  simp only [isSurrogate, Bool.and_eq_false_iff, decide_eq_false_iff_not]
  omega

/-- A letter of a name is an ASCII character. -/
theorem letter_ascii {c : Nat} (letter : isLetter c = true) : c < 128 := by
  simp only [isLetter, Bool.or_eq_true, Bool.and_eq_true, decide_eq_true_eq] at letter
  omega

/-- So is an ASCII digit. -/
theorem digit_ascii {c : Nat} (digit : isAsciiDigit c = true) : c < 128 := by
  simp only [isAsciiDigit, Bool.and_eq_true, decide_eq_true_eq] at digit
  omega

/-- A sign has no surrogates. -/
theorem sign_within : sign.Within Scalar := by
  refine ⟨?_, trivial⟩
  intro c listed
  simp only [Bool.or_eq_true, decide_eq_true_eq] at listed
  exact ascii_scalar (by omega)

/-- Nor has a single ASCII character. -/
theorem char_within {c : Nat} (ascii : c < 128) : (char c).Within Scalar := by
  intro other same
  obtain rfl := of_decide_eq_true same
  exact ascii_scalar ascii

/-- The text of a group that every match captures. -/
theorem groupText_captured {pattern : Regex Nat} {previous : Option Nat} {rest : PyStr}
    {found : Regex.Cursor Nat} (index : Nat) (reached : found ∈ pattern.ways ⟨previous, rest, []⟩)
    (certain : pattern.always index = true) : pattern.Captures index (groupText found index) := by
  obtain ⟨text, known, captured⟩ := Regex.group_captured reached certain
  rw [groupText, known]
  exact captured

section Found

variable (F : Type) [PyFloat F] [PyRuntime] [laws : PyLaws F]

include laws

/-- Nor have digits. -/
theorem digits_within : digits.Within Scalar := ⟨laws.decimal_scalar, laws.decimal_scalar⟩

/-- Nor has a decimal number. -/
theorem decimals_within : decimals.Within Scalar :=
  ⟨digits_within F, ⟨char_within (by decide), digits_within F⟩, trivial⟩

omit laws in
/-- The name in the exposition form. -/
theorem promRe_label {text : PyStr} (captured : promRe.Captures 1 text) :
    text ≠ [] ∧ encodable text = true := by
  simp [promRe, Regex.inOrder, Regex.Captures, Regex.optional, Regex.atLeastOne, sign,
    decimals, digits, char] at captured
  refine ⟨Regex.denotes_ne_nil captured, encodable_within captured ⟨?_, ?_⟩⟩
  · intro c listed
    simp only [Bool.or_eq_true, decide_eq_true_eq] at listed
    obtain (letter | rfl) | rfl := listed
    · exact ascii_scalar (letter_ascii letter)
    · rfl
    · rfl
  · intro c listed
    simp only [Bool.or_eq_true, decide_eq_true_eq] at listed
    obtain ((letter | digit) | rfl) | rfl := listed
    · exact ascii_scalar (letter_ascii letter)
    · exact ascii_scalar (digit_ascii digit)
    · rfl
    · rfl

/-- The value of a Prometheus line can be encoded. -/
theorem promRe_value {text : PyStr} (captured : promRe.Captures 2 text) : encodable text = true := by
  simp [promRe, Regex.inOrder, Regex.Captures, Regex.optional, Regex.atLeastOne, sign,
    decimals, digits, char] at captured
  apply encodable_within captured
  refine ⟨sign_within, decimals_within F, ⟨?_, sign_within, digits_within F⟩, trivial⟩
  intro c listed
  simp only [Bool.or_eq_true, decide_eq_true_eq] at listed
  exact ascii_scalar (by omega)

/-- The key of a `key=value` text. -/
theorem pairRe_label {text : PyStr} (captured : pairRe.Captures 1 text) :
    text ≠ [] ∧ encodable text = true := by
  simp [pairRe, Regex.inOrder, Regex.Captures, Regex.optional, Regex.atLeastOne, sign,
    decimals, digits, char] at captured
  refine ⟨Regex.denotes_ne_nil captured, encodable_within captured ⟨?_, ?_⟩⟩
  · intro c listed
    simp only [Bool.or_eq_true, decide_eq_true_eq] at listed
    obtain letter | rfl := listed
    · exact ascii_scalar (letter_ascii letter)
    · rfl
  · intro c listed
    simp only [isWord, Bool.or_eq_true, decide_eq_true_eq] at listed
    obtain (((word | rfl) | rfl) | rfl) | rfl := listed
    · exact laws.alnum_scalar c word
    · rfl
    · rfl
    · rfl
    · rfl

/-- So can the value of a pair. -/
theorem pairRe_value {text : PyStr} (captured : pairRe.Captures 2 text) : encodable text = true := by
  simp [pairRe, Regex.inOrder, Regex.Captures, Regex.optional, Regex.atLeastOne, sign,
    decimals, digits, char] at captured
  apply encodable_within captured
  exact ⟨sign_within, decimals_within F⟩

/-- What the patterns find has a label and can be encoded. -/
theorem textField_encodable {raw label value : PyStr} (field : textField raw = some (label, value)) :
    label ≠ [] ∧ encodable label = true ∧ encodable value = true := by
  rw [textField] at field
  cases matched : reMatch promRe (strip raw) with
  | some found =>
    rw [matched] at field
    obtain ⟨rfl, rfl⟩ := Prod.mk.inj (Option.some.inj field)
    have reached := Regex.matchAt_ways matched
    have named := promRe_label (groupText_captured _ reached rfl)
    exact ⟨named.1, named.2, promRe_value F (groupText_captured _ reached rfl)⟩
  | none =>
    rw [matched] at field
    have listed := List.mem_of_mem_head? field
    obtain ⟨found, member, same⟩ := List.mem_map.mp listed
    obtain ⟨rfl, rfl⟩ := Prod.mk.inj same
    obtain ⟨previous, rest, reached⟩ := Regex.findAll_ways member
    have named := pairRe_label F (groupText_captured _ reached rfl)
    exact ⟨named.1, named.2, pairRe_value F (groupText_captured _ reached rfl)⟩

end Found

/-! ## The row -/

section Rows

variable (F : Type) [PyFloat F]

/-- The label and the value that the row of an object shows. -/
def shownPair (d : Dict) : PyStr × PyStr :=
  let label := firstValue d metricLabelKeys
  let value := firstValue d metricValueKeys
  if label ≠ .null ∧ value ≠ .null then (scalarText F label, scalarText F value)
  else
    match firstNumeric d with
    | some (key, number) => (key, scalarText F number)
    | none => (scalarText F label, scalarText F value)

variable [PyRuntime] {raw : PyStr} {d : Dict}

/-- `_loads_dict` gives an object. -/
theorem loadsDict_object (loaded : jsonOrNone raw = .ok (some (.dict d))) :
    loadsDict raw = .ok (some d) := by
  rw [loadsDict, loaded]
  rfl

/-- And nothing for another value or no JSON. -/
theorem loadsDict_other {json : Option Json} (loaded : jsonOrNone raw = .ok json)
    (other : ∀ d, json ≠ some (.dict d)) : loadsDict raw = .ok none := by
  rw [loadsDict, loaded]
  cases json with
  | none => rfl
  | some value =>
    cases value with
    | dict d => exact absurd rfl (other d)
    | null | bool _ | int _ | float _ | str _ | list _ => rfl

/-- The row of an object. -/
theorem metricItem_object (loaded : jsonOrNone raw = .ok (some (.dict d))) :
    ∃ exceeded, metricItem F raw = .ok ⟨(shownPair F d).1, (shownPair F d).2,
      scalarText F (d.get (py "threshold")), exceeded⟩ := by
  have object := loadsDict_object loaded
  have pair : metricLabelValue F raw = .ok (shownPair F d) := by
    rw [metricLabelValue, object, shownPair]
    simp only [bind, Except.bind]
    split
    · rfl
    · cases firstNumeric d with
      | none => rfl
      | some field => rfl
  refine ⟨(thresholdExceeded F (some d)).2, ?_⟩
  rw [metricItem, pair, object]
  rfl

/-- The row of a line that is no object. -/
theorem metricItem_text {json : Option Json} (loaded : jsonOrNone raw = .ok json)
    (other : ∀ d, json ≠ some (.dict d)) {label value : PyStr}
    (field : textField raw = some (label, value)) :
    metricItem F raw = .ok ⟨label, value, [], none⟩ := by
  have noObject := loadsDict_other loaded other
  have pair : metricLabelValue F raw = .ok (label, value) := by
    rw [metricLabelValue, noObject]
    rw [textField] at field
    simp only [bind, Except.bind]
    cases matched : reMatch promRe (strip raw) with
    | some found =>
      rw [matched] at field
      exact congrArg Except.ok (Option.some.inj field)
    | none =>
      rw [matched] at field
      simp only [field]
      rfl
  rw [metricItem, pair, noObject]
  rfl

omit [PyRuntime] in
/-- No key has a value where all of them are null. -/
theorem firstValue_null {keys : List PyStr} :
    firstValue d keys = .null ↔ ∀ key ∈ keys, d.get key = .null := by
  induction keys with
  | nil => simp [firstValue]
  | cons key keys inductionHypothesis =>
    rw [firstValue, List.forall_mem_cons, ← inductionHypothesis]
    split <;> simp_all

/-- The texts of a row can be encoded. -/
def MetricItem.Encodable (item : MetricItem) : Prop :=
  encodable item.label = true ∧ encodable item.value = true ∧ encodable item.threshold = true

omit [PyFloat F] [PyRuntime] in
/-- A row is dumped where it can be encoded. -/
theorem MetricItem.dump_iff (item : MetricItem) :
    modelDumpJson item.row = .ok (rowText item.row) ↔ item.Encodable := by
  have all : (item.row.all fun entry => entry.2.encodable) =
      (encodable item.label && (encodable item.value && encodable item.threshold)) := by
    obtain ⟨label, value, threshold, exceeded⟩ := item
    cases exceeded <;> simp [row, RowValue.encodable, RowValue.orNull]
  rw [modelDumpJson, all]
  split
  · next accepted => simpa [Encodable] using accepted
  · next refused => simpa [Encodable] using refused

variable {F}

/-- The text reads as a number with the same six significant digits. -/
def DenotesNumber (text : PyStr) (x : F) : Prop :=
  ∃ y : F, floatText text = .ok y ∧ PyFloat.general y = PyFloat.general x

/-- The row of the line is written, and shows the label and the number. -/
def ShowsMetric (raw label : PyStr) (x : F) : Prop :=
  ∃ item, metricItem F raw = .ok item ∧ normalizeMetric F raw = .ok (rowText item.row) ∧
    item.label ≠ [] ∧ item.label = label ∧ DenotesNumber item.value x

/-- What a row shows, in its fields. -/
theorem showsMetric_iff {item : MetricItem} {label : PyStr} {x : F}
    (read : metricItem F raw = .ok item) :
    ShowsMetric raw label x ↔
      item.Encodable ∧ item.label ≠ [] ∧ item.label = label ∧ DenotesNumber item.value x := by
  have written : normalizeMetric F raw = modelDumpJson item.row := by
    rw [normalizeMetric, read]
    rfl
  constructor
  · rintro ⟨other, again, dumped, named, same, number⟩
    obtain rfl := Except.ok.inj (read.symm.trans again)
    rw [written, item.dump_iff] at dumped
    exact ⟨dumped, named, same, number⟩
  · rintro ⟨accepted, named, same, number⟩
    exact ⟨item, read, written.trans (item.dump_iff.mpr accepted), named, same, number⟩

/-- A number is shown as it is. -/
theorem number_denotes [laws : PyLaws F] {value : Json} {x : F} (number : IsNumber value)
    (made : floatValue value = .ok x) :
    DenotesNumber (scalarText F value) x ∧ encodable (scalarText F value) = true := by
  cases value with
  | int n =>
    refine ⟨⟨x, ?_, rfl⟩, plain_encodable fun c member => intText_plain member⟩
    rw [scalarText, floatText, floatOfText_intText]
    exact congrArg Except.ok (laws.ofInt_read n x made)
  | float literal =>
    obtain rfl := Except.ok.inj made
    obtain ⟨read, known, same⟩ := laws.general_read (PyFloat.ofLit literal : F)
    refine ⟨⟨PyFloat.ofLit read, ?_, same⟩, laws.general_encodable _⟩
    rw [scalarText, floatText, known]
  | null | bool _ | str _ | list _ | dict _ => exact absurd number not_false

/-! ## When the row shows what is analysed -/

/-- The value that is shown reads as the number of the value that is analysed. -/
def ReadsLike (F : Type) [PyFloat F] (shown analysed : Json) : Prop :=
  ∃ x : F, floatValue analysed = .ok x ∧ DenotesNumber (scalarText F shown) x

/-- The fields of an object that are shown and those that are analysed are the same: both
go by the first numeric field, or the first label and the first value are those of the
analysed field. -/
def FieldsAgree (F : Type) [PyFloat F] (raw : PyStr) (d : Dict) : Prop :=
  let label := firstValue d metricLabelKeys
  let value := firstValue d metricValueKeys
  if label ≠ .null ∧ value ≠ .null then
    encodable (scalarText F label) = true ∧ encodable (scalarText F value) = true ∧
      ∃ field, analysedField raw d = some field ∧ field.1 ≠ [] ∧ scalarText F label = field.1 ∧
        ReadsLike F value field.2
  else ∃ field, firstNumeric d = some field ∧ field.1 ≠ [] ∧ encodable field.1 = true

/-- If the line is an object, its fields agree, and its threshold can be written. -/
def RowAgrees (F : Type) [PyFloat F] (raw : PyStr) : Prop :=
  ∀ d, loadsDict raw = .ok (some d) →
    encodable (scalarText F (d.get (py "threshold"))) = true ∧ FieldsAgree F raw d

omit [PyRuntime] in
/-- A name comes from a key that has a value. -/
theorem firstName_present {keys : List PyStr} {name : PyStr} (found : firstName d keys = some name) :
    ∃ key ∈ keys, d.get key ≠ .null := by
  induction keys with
  | nil => simp [firstName] at found
  | cons key keys inductionHypothesis =>
    rw [firstName] at found
    split at found
    · next shape => exact ⟨key, List.mem_cons_self, by simp [shape]⟩
    · obtain ⟨other, member, present⟩ := inductionHypothesis found
      exact ⟨other, List.mem_cons_of_mem _ member, present⟩

omit [PyRuntime] in
/-- A number comes from a key that has a value. -/
theorem firstNumber_present {keys : List PyStr} {number : Json}
    (found : firstNumber d keys = some number) : ∃ key ∈ keys, d.get key ≠ .null := by
  induction keys with
  | nil => simp [firstNumber] at found
  | cons key keys inductionHypothesis =>
    obtain ⟨here, -⟩ | ⟨-, passed⟩ := firstNumber_cons d key keys
    · refine ⟨key, List.mem_cons_self, ?_⟩
      intro null
      rw [null] at here
      exact here
    · obtain ⟨other, member, present⟩ := inductionHypothesis (passed.symm.trans found)
      exact ⟨other, List.mem_cons_of_mem _ member, present⟩

omit [PyRuntime] in
/-- Where a key has a value there is a first one. -/
theorem firstValue_present {keys : List PyStr} (found : ∃ key ∈ keys, d.get key ≠ .null) :
    firstValue d keys ≠ .null := by
  rw [Ne, firstValue_null]
  simpa using found

/-- Without a label or a value the analysis goes by the first numeric field, or by the text
of the line. -/
theorem analysedField_missing
    (missing : ¬ (firstValue d metricLabelKeys ≠ .null ∧ firstValue d metricValueKeys ≠ .null)) :
    analysedField raw d =
      (firstNumeric d).or ((textField raw).map fun pair => (pair.1, .str pair.2)) := by
  rw [analysedField]
  cases name : firstName d metricNameKeys with
  | none => rfl
  | some name =>
    cases number : firstNumber d metricValueKeys with
    | none => rfl
    | some number =>
      obtain ⟨key, member, present⟩ := firstName_present (by assumption)
      have labelled : firstValue d metricLabelKeys ≠ .null :=
        firstValue_present ⟨key, List.mem_cons_of_mem _ member, present⟩
      exact absurd ⟨labelled, firstValue_present (firstNumber_present (by assumption))⟩ missing

omit [PyRuntime] in
/-- The first numeric field is a number. -/
theorem firstNumeric_number {field : PyStr × Json} (found : firstNumeric d = some field) :
    IsNumber field.2 := by
  induction d with
  | nil => simp [firstNumeric] at found
  | cons entry rest inductionHypothesis =>
    obtain ⟨key, value⟩ := entry
    obtain ⟨number, here⟩ | ⟨-, passed⟩ := firstNumeric_cons key value rest
    · obtain rfl := Option.some.inj (here.symm.trans found)
      exact number
    · exact inductionHypothesis (passed.symm.trans found)

variable [PyLaws F] {label : PyStr} {x : F}

/-- An object without a label or a value shows its first numeric field. -/
theorem shownPair_missing {value : Json}
    (missing : ¬ (firstValue d metricLabelKeys ≠ .null ∧ firstValue d metricValueKeys ≠ .null))
    (field : analysedField raw d = some (label, value)) (made : floatValue value = .ok x) :
    encodable (shownPair F d).1 = true ∧ encodable (shownPair F d).2 = true ∧
        (shownPair F d).1 ≠ [] ∧ (shownPair F d).1 = label ∧ DenotesNumber (shownPair F d).2 x ↔
      ∃ field, firstNumeric d = some field ∧ field.1 ≠ [] ∧ encodable field.1 = true := by
  rw [analysedField_missing missing] at field
  simp only [shownPair]
  rw [if_neg missing]
  cases numeric : firstNumeric d with
  | some first =>
    have number := firstNumeric_number numeric
    rw [numeric] at field
    obtain rfl := Option.some.inj field
    obtain ⟨shown, written⟩ := number_denotes number made
    constructor
    · rintro ⟨accepted, -, named, -⟩
      exact ⟨_, rfl, named, accepted⟩
    · rintro ⟨field, same, named, accepted⟩
      obtain rfl := Option.some.inj same
      exact ⟨accepted, written, named, rfl, shown⟩
  | none =>
    constructor
    · rintro ⟨-, -, named, -, y, read, -⟩
      obtain noLabel | noValue := not_and_or.mp missing
      · rw [not_not.mp noLabel] at named
        exact absurd rfl named
      · have empty : ∀ c ∈ ([] : PyStr), Plain c := nofun
        have unread : floatOfText [] = none := (floatOfText_plain empty).trans rfl
        rw [not_not.mp noValue, scalarText, floatText, unread] at read
        simp at read
    · rintro ⟨field, found, -⟩
      simp at found

/-- A line shows the metric that is analysed if and only if it is no object, or its fields
agree. -/
theorem metric_shown_iff {rest : List (PyStr × F)}
    (analysed : metricPairs raw = .ok ((label, x) :: rest)) :
    ShowsMetric raw label x ↔ RowAgrees F raw := by
  obtain ⟨json, loaded, pairs⟩ := bind_ok_iff.mp analysed
  by_cases object : ∃ d, json = some (.dict d)
  · obtain ⟨d, rfl⟩ := object
    obtain ⟨value, field, made⟩ := metricPairs_object loaded analysed
    obtain ⟨exceeded, read⟩ := metricItem_object F loaded
    have condition : RowAgrees F raw ↔
        encodable (scalarText F (Dict.get d (py "threshold"))) = true ∧ FieldsAgree F raw d := by
      rw [RowAgrees, loadsDict_object loaded]
      simp
    have fields : encodable (shownPair F d).1 = true ∧ encodable (shownPair F d).2 = true ∧
        (shownPair F d).1 ≠ [] ∧ (shownPair F d).1 = label ∧ DenotesNumber (shownPair F d).2 x ↔
        FieldsAgree F raw d := by
      rw [FieldsAgree]
      split
      · next both =>
        rw [shownPair, if_pos both]
        constructor
        · rintro ⟨label, value, named, rfl, shown⟩
          exact ⟨label, value, _, field, named, rfl, x, made, shown⟩
        · rintro ⟨accepted, written, other, found, named, same, y, converted, shown⟩
          obtain rfl := Option.some.inj (field.symm.trans found)
          obtain rfl := Except.ok.inj (made.symm.trans converted)
          exact ⟨accepted, written, by rwa [same], same, shown⟩
      · next missing => exact shownPair_missing missing field made
    rw [showsMetric_iff read, condition, ← fields, MetricItem.Encodable]
    constructor
    · rintro ⟨⟨label, value, threshold⟩, shown⟩
      exact ⟨threshold, label, value, shown⟩
    · rintro ⟨threshold, label, value, shown⟩
      exact ⟨⟨label, value, threshold⟩, shown⟩
  · have other : ∀ d, json ≠ some (.dict d) := not_exists.mp object
    have texts : textPairs raw = .ok ((label, x) :: rest) := by
      cases json with
      | none => exact pairs
      | some value =>
        cases value with
        | dict d => exact absurd rfl (other d)
        | null | bool _ | int _ | float _ | str _ | list _ => exact pairs
    obtain ⟨text, field, made⟩ := textPairs_ok texts
    obtain ⟨named, accepted, written⟩ := textField_encodable F field
    have condition : RowAgrees F raw := by
      rw [RowAgrees, loadsDict_other loaded other]
      simp
    rw [showsMetric_iff (metricItem_text F loaded other field)]
    exact iff_of_true ⟨⟨accepted, written, rfl⟩, named, rfl, x, made, rfl⟩ condition

end Rows

/-- A metric line with a label and a value, as an object. -/
def labelledLine (key : String) : PyStr :=
  [123, 34] ++ py key ++ py "\":\"cpu\",\"value\":1" ++ [125]

open ReferenceInterpreter in
/-- The analysis does not know the key `label`: it calls the metric `value`. -/
theorem label_shown_differs :
    @metricPairs FloatLit rangedDecimals asciiRuntime (labelledLine "label") =
        .ok [(py "value", .decimal false 1 0)] ∧
      ¬ @ShowsMetric FloatLit rangedDecimals asciiRuntime (labelledLine "label") (py "value")
        (.decimal false 1 0) := by
  constructor
  · decide +kernel
  · rintro ⟨item, read, -, -, named, -⟩
    have label : (@metricItem FloatLit rangedDecimals asciiRuntime (labelledLine "label")).map
        MetricItem.label = .ok (py "cpu") := by decide +kernel
    rw [read] at label
    have same : py "value" = py "cpu" := named.symm.trans (Except.ok.inj label)
    exact absurd same (by decide)

open ReferenceInterpreter in
/-- A metric whose label is under the key of the name. -/
theorem metric_shown_iff_named :
    @ShowsMetric FloatLit rangedDecimals asciiRuntime (labelledLine "metric") (py "cpu")
        (.decimal false 1 0) ↔
      @RowAgrees asciiRuntime FloatLit rangedDecimals (labelledLine "metric") :=
  @metric_shown_iff FloatLit rangedDecimals asciiRuntime (labelledLine "metric") reference_laws
    (py "cpu") (.decimal false 1 0) [] (by decide +kernel)

end RcaBackend
