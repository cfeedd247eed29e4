import RcaBackend.PayloadImage
import RcaBackend.RawReadability
import RcaBackend.SignalWords

/-!
# The span that is judged and the span that is stored

The selection judges a span by the first truthy of two status keys, and the payload stores
the first present of four. Both find the same duration, but a NaN is a duration of the one
and none of the other. A text is judged by its first error mark, which is what is stored.
-/

namespace RcaBackend

open Attempts Regex

/-- `int(x)` raises `ValueError` for NaN alone, and division by a thousand keeps NaN. -/
class TruncLaws (F : Type) [PyFloat F] : Prop where
  trunc_value : ∀ lit, PyFloat.trunc (PyFloat.ofLit lit : F) = .error .valueError ↔ lit = .nan
  trunc_thousandth : ∀ lit, PyFloat.trunc
    (PyFloat.div (PyFloat.ofLit lit) (PyFloat.ofLit (wholeLit 1000)) : F) = .error .valueError ↔
      lit = .nan
  trunc_type : ∀ x : F, PyFloat.trunc x ≠ .error .typeError
  general_zero : ∀ lit, PyFloat.eq (PyFloat.ofLit lit : F) (PyFloat.ofLit (wholeLit 0)) = true →
    PyFloat.general (PyFloat.ofLit lit : F) = py "0" ∨
      PyFloat.general (PyFloat.ofLit lit : F) = py "-0"

section Spans

variable [PyRuntime] (F : Type) [PyFloat F]

/-- A stored span has the verdict and the duration that were read off its line. -/
structure StoresSpan (fields : SpanFields F) (text : PyStr) : Prop where
  verdict : ∃ status, Shows text (py "status") (.str status) ∧ showsError status = fields.isErr
  duration : ∀ x, fields.durationMs = some x →
    ∃ n, PyFloat.trunc x = .ok n ∧ Shows text (py "duration") (.int n)
  absent : fields.durationMs = none → Shows text (py "duration") .null

/-- The texts of a value as an object and as a scalar both show an error or neither does. -/
def SameMark : Json → Prop
  | .list items => showsError (PyRuntime.repr (.list items)) = false
  | .dict entries => showsError (PyRuntime.repr (.dict entries)) = false
  | .float lit => showsError (PyFloat.text (PyFloat.ofLit lit : F)) =
      showsError (PyFloat.general (PyFloat.ofLit lit : F))
  | .null | .bool _ | .int _ | .str _ => True

/-- Without the two keys that both sides read, no other status shows an error; with an empty
status the other key shows none; and otherwise the status has the same mark for both. -/
def StatusAgrees (d : Dict) : Prop :=
  let status := d.get (py "status")
  let code := d.get (py "http_status_code")
  if status = .null ∧ code = .null then
    showsError (scalarText F (firstValue d [py "statusCode", py "code"])) = false
  else if status ≠ .null ∧ truthy F status = false then
    truthy F code = true → showsError (pyStr F code) = false
  else
    let shared := if status = .null then code else status
    truthy F shared = true → SameMark F shared

/-- The value of a span's duration. -/
def durationValue (d : Dict) : Json :=
  firstValue d [py "duration_us", py "duration_ms", py "duration"]

/-- A value that is converted to NaN. -/
def ReadsNan : Json → Prop
  | .float lit => lit = .nan
  | .str text => floatOfText text = some .nan
  | .null | .bool _ | .int _ | .list _ | .dict _ => False

/-- An object has a status that both sides judge alike, and its duration is not NaN. -/
def AgreeingSpan (raw : PyStr) : Prop :=
  ∀ d ∈ objectOf raw, StatusAgrees F d ∧ ¬ ReadsNan (durationValue d)

variable {F}

/-! ## Durations -/

/-- What is converted to a float is read from a literal, NaN from a NaN. -/
theorem floatValue_literal [PyLaws F] {value : Json} {x : F} (read : floatValue value = .ok x) :
    ∃ lit, x = PyFloat.ofLit lit ∧ (lit = .nan ↔ ReadsNan value) := by
  cases value with
  | null | list _ | dict _ => simp [floatValue] at read
  | bool value =>
    have same := PyLaws.ofInt_read _ x read
    exact ⟨_, same.symm, by simp [ReadsNan]⟩
  | int n =>
    have same := PyLaws.ofInt_read n x read
    exact ⟨_, same.symm, by simp [ReadsNan]⟩
  | float lit => exact ⟨lit, (Except.ok.inj read).symm, Iff.rfl⟩
  | str text =>
    rw [floatValue, floatText] at read
    cases found : floatOfText text with
    | none => simp [found] at read
    | some lit =>
      rw [found] at read
      refine ⟨lit, (Except.ok.inj read).symm, ?_⟩
      rw [ReadsNan, found, Option.some.injEq]

variable [laws : TruncLaws F]

omit [PyRuntime] in
/-- A duration is stored as its whole milliseconds. -/
def Whole (durationMs : Option F) (duration : Option Int) : Prop :=
  match durationMs with
  | none => duration = none
  | some x => ∃ n, PyFloat.trunc x = .ok n ∧ duration = some n

omit [PyRuntime] in
/-- A number is cut to an integer unless it is NaN. -/
theorem whole_trunc_iff {x : F} {nan : Prop} {duration : Option Int}
    (value : PyFloat.trunc x = .error .valueError ↔ nan)
    (whole : wholeOrNone (PyFloat.trunc x) = .ok duration) :
    Whole (some x) duration ↔ ¬ nan := by
  rw [← value, Whole]
  cases cut : PyFloat.trunc x with
  | ok n =>
    rw [cut] at whole
    exact iff_of_true ⟨n, rfl, (Except.ok.inj whole).symm⟩ (by simp)
  | error raised =>
    rw [cut] at whole
    cases raised with
    | valueError => simp
    | typeError => exact absurd cut (laws.trunc_type x)
    | _ => simp [wholeOrNone] at whole

/-- The duration of an object is stored unless it is NaN. -/
theorem object_whole_iff [PyLaws F] {d : Dict} {durationMs : Option F} {duration : Option Int}
    (read : spanDuration d = .ok durationMs) (whole : traceDurationMs F d = .ok duration) :
    Whole durationMs duration ↔ ¬ ReadsNan (durationValue d) := by
  rw [spanDuration] at read
  rw [traceDurationMs] at whole
  simp only [durationValue, firstValue]
  split at read
  · next micros =>
    rw [if_pos micros] at whole ⊢
    obtain ⟨y, made, same⟩ := bind_ok_iff.mp read
    obtain rfl := Except.ok.inj same
    obtain ⟨lit, rfl, nan⟩ := floatValue_literal made
    rw [made] at whole
    exact whole_trunc_iff ((laws.trunc_thousandth lit).trans nan) whole
  · next noMicros =>
    rw [if_neg noMicros] at whole ⊢
    split at read
    · next millis =>
      rw [if_pos millis] at whole ⊢
      obtain ⟨y, made, rfl⟩ := map_ok_iff.mp read
      obtain ⟨lit, rfl, nan⟩ := floatValue_literal made
      rw [made] at whole
      exact whole_trunc_iff ((laws.trunc_value lit).trans nan) whole
    · next noMillis =>
      rw [if_neg noMillis] at whole ⊢
      split at read
      · next plain =>
        rw [if_pos plain] at whole ⊢
        obtain ⟨y, made, rfl⟩ := map_ok_iff.mp read
        obtain ⟨lit, rfl, nan⟩ := floatValue_literal made
        rw [made] at whole
        exact whole_trunc_iff ((laws.trunc_value lit).trans nan) whole
      · next none =>
        rw [if_neg none] at whole ⊢
        obtain rfl := Except.ok.inj read
        exact iff_of_true (Except.ok.inj whole).symm not_false

omit laws in
/-- The duration of a text is stored. -/
theorem text_whole {raw : PyStr} {durationMs : Option F} {duration : Option Int}
    (read : textDuration raw = .ok durationMs) (whole : wholeDuration F raw = .ok duration) :
    Whole durationMs duration := by
  obtain ⟨found, again, rest⟩ := bind_ok_iff.mp whole
  obtain rfl := Except.ok.inj (read.symm.trans again)
  cases durationMs with
  | none => exact (Except.ok.inj rest).symm
  | some x =>
    obtain ⟨n, cut, same⟩ := bind_ok_iff.mp rest
    exact ⟨n, cut, (Except.ok.inj same).symm⟩

/-! ## Status -/

section Status

variable [WordLaws]

omit laws [PyFloat F] in
theorem showsError_nil : showsError [] = false := by
  rw [showsError_ascii (by decide)]
  rfl

/-- An empty status that is present shows no error. -/
theorem falsy_quiet {value : Json} (present : value ≠ .null) (falsy : truthy F value = false) :
    showsError (scalarText F value) = false := by
  cases value with
  | null => exact absurd rfl present
  | bool value =>
    obtain rfl : value = false := falsy
    have quiet : showsError (py "false") = false := (showsError_ascii (by decide)).trans rfl
    exact quiet
  | int n =>
    obtain rfl : n = 0 := by simpa [truthy] using falsy
    have quiet : showsError (py "0") = false := (showsError_ascii (by decide)).trans rfl
    exact quiet
  | float lit =>
    have zero : PyFloat.eq (PyFloat.ofLit lit : F) (PyFloat.ofLit (wholeLit 0)) = true := by
      simpa [truthy] using falsy
    rw [scalarText]
    obtain same | same := laws.general_zero lit zero
    · rw [same]
      exact (showsError_ascii (by decide)).trans rfl
    · rw [same]
      exact (showsError_ascii (by decide)).trans rfl
  | str text =>
    obtain rfl : text = [] := by simpa [truthy] using falsy
    exact showsError_nil
  | list _ | dict _ => exact showsError_nil

omit laws in
/-- A status has one mark as an object and as a scalar, or the texts differ in it. -/
theorem sameMark_iff {value : Json} (holds : truthy F value = true) :
    showsError (scalarText F value) = showsError (pyStr F value) ↔ SameMark F value := by
  cases value with
  | null => simp [truthy] at holds
  | bool value =>
    obtain rfl : value = true := holds
    have scalar : showsError (py "true") = false := (showsError_ascii (by decide)).trans rfl
    have object : showsError (py "True") = false := (showsError_ascii (by decide)).trans rfl
    exact iff_of_true (scalar.trans object.symm) trivial
  | int n => exact iff_of_true rfl trivial
  | str text => exact iff_of_true rfl trivial
  | float lit => exact eq_comm
  | list _ | dict _ =>
    rw [scalarText, showsError_nil, pyStr, SameMark]
    exact eq_comm

/-- The status that is stored has the verdict of the selection exactly if the keys agree. -/
theorem status_agrees_iff (d : Dict) :
    showsError (scalarText F (firstValue d traceStatusKeys)) = showsError (pyStr F (spanStatus F d)) ↔
      StatusAgrees F d := by
  have none : truthy F .null = false := rfl
  have quiet : showsError (pyStr F (.str [])) = false := showsError_nil
  simp only [traceStatusKeys, firstValue, spanStatus, orElse, StatusAgrees]
  by_cases noStatus : d.get (py "status") = .null
  · by_cases noCode : d.get (py "http_status_code") = .null
    · simp [noStatus, noCode, none, quiet]
    · cases holds : truthy F (d.get (py "http_status_code")) with
      | true => simp [noStatus, noCode, none, holds, sameMark_iff holds]
      | false => simp [noStatus, noCode, none, holds, quiet, falsy_quiet noCode holds]
  · cases holds : truthy F (d.get (py "status")) with
    | true => simp [noStatus, holds, sameMark_iff holds]
    | false =>
      have own := falsy_quiet noStatus holds
      cases code : truthy F (d.get (py "http_status_code")) with
      | true => simp [noStatus, own, eq_comm (a := false)]
      | false => simp [noStatus, own, quiet]

/-! ## Both sides -/

omit laws [WordLaws] in
theorem spanFields_object {raw : PyStr} {d : Dict} {fields : SpanFields F}
    (loaded : jsonOrNone raw = .ok (some (.dict d))) (judged : spanFields raw = .ok fields) :
    spanDuration d = .ok fields.durationMs ∧
      fields.isErr = showsError (pyStr F (spanStatus F d)) := by
  obtain ⟨json, again, rest⟩ := bind_ok_iff.mp judged
  obtain rfl := Except.ok.inj (loaded.symm.trans again)
  obtain ⟨durationMs, read, same⟩ := bind_ok_iff.mp rest
  obtain rfl := Except.ok.inj same
  exact ⟨read, rfl⟩

omit laws [WordLaws] in
theorem spanFields_text {raw : PyStr} {json : Option Json} {fields : SpanFields F}
    (loaded : jsonOrNone raw = .ok json) (other : ∀ d, json ≠ some (.dict d))
    (judged : spanFields raw = .ok fields) :
    textDuration raw = .ok fields.durationMs ∧ fields.isErr = showsError raw := by
  have text : spanFields (F := F) raw = do
      let durationMs ← textDuration raw
      return ⟨py "?", durationMs, showsError raw⟩ := by
    rw [spanFields, loaded]
    cases json with
    | none => rfl
    | some value =>
      cases value with
      | dict d => exact absurd rfl (other d)
      | null | bool _ | int _ | float _ | str _ | list _ => rfl
  obtain ⟨durationMs, read, same⟩ := bind_ok_iff.mp (text.symm.trans judged)
  obtain rfl := Except.ok.inj same
  exact ⟨read, rfl⟩

omit laws [PyFloat F] in
/-- The error mark that is stored for a text shows an error if the text does. -/
theorem stored_mark (raw : PyStr) :
    showsError (match reSearch SignalPatterns.traceErrRe raw with
      | some found => upperText (groupText found 1)
      | none => []) = showsError raw := by
  have first := reSearch_mark raw
  rw [showsError_first raw, ← first]
  cases matched : reSearch SignalPatterns.traceErrRe raw with
  | none => exact showsError_nil
  | some found =>
    rw [matched] at first
    exact upper_mark first.symm

variable [PyLaws F]

omit laws [WordLaws] in
/-- What is stored is read off the row of the span. -/
theorem storesSpan_iff {raw text : PyStr} (fields : SpanFields F)
    (sent : normalizeTrace F raw = .ok text) :
    ∃ span, traceSpan F raw = .ok span ∧ (StoresSpan F fields text ↔
      showsError span.status = fields.isErr ∧ Whole fields.durationMs span.duration) := by
  obtain ⟨span, read, loaded⟩ := normalizeTrace_loads F sent
  have status : Shows text (py "status") (.str span.status) := ⟨_, loaded, rfl⟩
  have duration : Shows text (py "duration") (RowValue.orNull .int span.duration).json :=
    ⟨_, loaded, rfl⟩
  refine ⟨span, read, ?_⟩
  constructor
  · rintro ⟨⟨other, shown, verdict⟩, whole, absent⟩
    obtain rfl := Json.str.inj (shows_unique status shown)
    refine ⟨verdict, ?_⟩
    cases measured : fields.durationMs with
    | none =>
      have null := shows_unique duration (absent measured)
      cases stored : span.duration with
      | none => rfl
      | some n => simp [stored, RowValue.orNull, RowValue.json] at null
    | some x =>
      obtain ⟨n, cut, shown⟩ := whole x measured
      have same := shows_unique duration shown
      cases stored : span.duration with
      | none => simp [stored, RowValue.orNull, RowValue.json] at same
      | some m =>
        rw [stored] at same
        exact ⟨n, cut, congrArg some (Json.int.inj same)⟩
  · rintro ⟨verdict, whole⟩
    refine ⟨⟨_, status, verdict⟩, ?_, ?_⟩
    · intro x measured
      rw [measured] at whole
      obtain ⟨n, cut, stored⟩ := whole
      rw [stored] at duration
      exact ⟨n, cut, duration⟩
    · intro unmeasured
      rw [unmeasured] at whole
      have none : span.duration = none := whole
      rw [none] at duration
      exact duration

/-- A span is stored as it was judged if and only if it is a text, or an object whose status
keys agree and whose duration is not NaN. -/
theorem span_stored_iff {raw text : PyStr} {fields : SpanFields F}
    (judged : spanFields raw = .ok fields) (sent : normalizeTrace F raw = .ok text) :
    StoresSpan F fields text ↔ AgreeingSpan F raw := by
  obtain ⟨span, read, stored⟩ := storesSpan_iff fields sent
  obtain ⟨object, found, same⟩ := bind_ok_iff.mp read
  have loads := loads_of_loadsDict found
  obtain rfl := Except.ok.inj (found.symm.trans (loadsDict_eq loads))
  rw [stored, AgreeingSpan]
  obtain ⟨d, loaded, object⟩ | ⟨json, loaded, other, object⟩ := loads_cases loads
  · obtain ⟨measured, verdict⟩ := spanFields_object loaded judged
    rw [object] at same
    obtain ⟨duration, whole, row⟩ := bind_ok_iff.mp same
    obtain rfl := Except.ok.inj row
    rw [object, verdict, status_agrees_iff, object_whole_iff measured whole]
    simp
  · obtain ⟨measured, verdict⟩ := spanFields_text loaded other judged
    rw [object] at same
    obtain ⟨duration, whole, row⟩ := bind_ok_iff.mp same
    obtain rfl := Except.ok.inj row
    rw [object]
    exact iff_of_true ⟨(stored_mark raw).trans verdict.symm, text_whole measured whole⟩ nofun

end Status

end Spans

namespace ReferenceInterpreter

/-- A zero with its sign. -/
def zeroText (x : FloatLit) : PyStr :=
  if x matches .decimal true _ _ then py "-0" else py "0"

theorem zeroText_cases (x : FloatLit) : zeroText x = py "0" ∨ zeroText x = py "-0" := by
  unfold zeroText
  split
  · exact Or.inr rfl
  · exact Or.inl rfl

/-- Zeros are written without their exponent. -/
def generalZero (x : FloatLit) : PyStr := if eq x (wholeLit 0) then zeroText x else general x

/-- Exact decimals of which zeros are written as zeros. -/
@[reducible] def zeroDecimals : PyFloat FloatLit := { rangedDecimals with general := generalZero }

/-- Every decimal is cut, or is too long. -/
theorem trunc_decimal (negative : Bool) (mantissa : Nat) (exponent : Int) :
    Returns (@PyFloat.trunc FloatLit zeroDecimals (.decimal negative mantissa exponent)) ∨
      @PyFloat.trunc FloatLit zeroDecimals (.decimal negative mantissa exponent) =
        .error .overflowError := by
  obtain ⟨whole, cut⟩ : ∃ whole, trunc (.decimal negative mantissa exponent) = .ok whole := ⟨_, rfl⟩
  have ranged : @PyFloat.trunc FloatLit zeroDecimals (.decimal negative mantissa exponent) =
      if (natText whole.natAbs).length ≤ 309 then .ok whole else .error .overflowError := by
    change (trunc (.decimal negative mantissa exponent) >>= _) = _
    rw [cut]
    rfl
  rw [ranged]
  split
  · exact Or.inl (returns_ok whole)
  · exact Or.inr rfl

theorem zero_trunc : @TruncLaws FloatLit zeroDecimals := by
  have decimal (negative : Bool) (mantissa : Nat) (exponent : Int) {raised : PyExc}
      (other : raised ≠ .overflowError) :
      @PyFloat.trunc FloatLit zeroDecimals (.decimal negative mantissa exponent) ≠ .error raised := by
    intro cut
    obtain ⟨whole, returned⟩ | tooLong := trunc_decimal negative mantissa exponent
    · simp [cut] at returned
    · exact other (by simpa [cut] using tooLong)
  refine @TruncLaws.mk FloatLit zeroDecimals ?_ ?_ ?_ ?_
  · intro lit
    cases lit with
    | nan => exact iff_of_true rfl rfl
    | infinity negative => exact iff_of_false nofun nofun
    | decimal negative mantissa exponent => exact iff_of_false (decimal _ _ _ nofun) nofun
  · intro lit
    cases lit with
    | nan => exact iff_of_true rfl rfl
    | infinity negative => exact iff_of_false nofun nofun
    | decimal negative mantissa exponent => exact iff_of_false (decimal _ _ _ nofun) nofun
  · intro x
    cases x with
    | nan | infinity negative => exact nofun
    | decimal negative mantissa exponent => exact decimal _ _ _ nofun
  · intro lit zero
    change generalZero lit = py "0" ∨ generalZero lit = py "-0"
    have isZero : eq lit (wholeLit 0) = true := zero
    rw [generalZero, if_pos isZero]
    exact zeroText_cases lit

theorem generalZero_read (x : FloatLit) : ∃ lit,
    @floatOfText letteredRuntime (generalZero x) = some lit ∧ generalZero lit = generalZero x := by
  by_cases zero : eq x (wholeLit 0) = true
  · rw [generalZero, if_pos zero]
    obtain same | same := zeroText_cases x
    · rw [same]
      exact ⟨.decimal false 0 0, by decide +kernel, by decide +kernel⟩
    · rw [same]
      exact ⟨.decimal true 0 0, by decide +kernel, by decide +kernel⟩
  · refine ⟨x, ?_, rfl⟩
    have plain : generalZero x = general x := if_neg zero
    rw [plain]
    exact general_read x

theorem zero_laws : @PyLaws FloatLit letteredRuntime zeroDecimals := by
  obtain ⟨letters, decimals, nests, ints, -, -, digits⟩ := lettered_laws
  refine @PyLaws.mk FloatLit letteredRuntime zeroDecimals letters decimals nests ints
    generalZero_read ?_ digits
  intro x
  apply plain_encodable
  change ∀ c ∈ generalZero x, Plain c
  by_cases zero : eq x (wholeLit 0) = true
  · rw [generalZero, if_pos zero]
    obtain same | same := zeroText_cases x
    · rw [same]
      decide
    · rw [same]
      decide
  · have plain : generalZero x = general x := if_neg zero
    rw [plain]
    exact general_plain x

end ReferenceInterpreter

/-- A span whose status is under a key that the selection does not read. -/
def statusCodeLine : PyStr := py "\x7b\"statusCode\":500\x7d"

open ReferenceInterpreter in
/-- It is selected as a success and stored as an error. -/
theorem stored_not_judged :
    ∃ fields text, @spanFields FloatLit zeroDecimals letteredRuntime statusCodeLine = .ok fields ∧
      @normalizeTrace FloatLit zeroDecimals letteredRuntime statusCodeLine = .ok text ∧
      fields.isErr = false ∧
      ∀ status, @Shows letteredRuntime text (py "status") (.str status) →
        @showsError letteredRuntime status = true := by
  have judged : (@spanFields FloatLit zeroDecimals letteredRuntime statusCodeLine).map
      SpanFields.isErr = .ok false := by decide +kernel
  have sent : @normalizeTrace FloatLit zeroDecimals letteredRuntime statusCodeLine >>=
      @loads letteredRuntime = .ok (.dict [(py "traceId", .str []), (py "from", .str []),
        (py "to", .str []), (py "duration", .null), (py "status", .str (py "500"))]) := by
    decide +kernel
  obtain ⟨fields, read, success⟩ := map_ok_iff.mp judged
  obtain ⟨text, returned, loaded⟩ := bind_ok_iff.mp sent
  refine ⟨fields, text, read, returned, success, ?_⟩
  intro status shown
  have stored : @Shows letteredRuntime text (py "status") (.str (py "500")) :=
    ⟨_, loaded, by decide⟩
  obtain rfl := Json.str.inj (@shows_unique letteredRuntime _ _ _ _ stored shown)
  decide +kernel

/-- A span as a text. -/
def failedLine : PyStr := py "GET failed in 12 ms"

open ReferenceInterpreter in
theorem span_stored_iff_text :
    ∃ fields text, @spanFields FloatLit zeroDecimals letteredRuntime failedLine = .ok fields ∧
      @normalizeTrace FloatLit zeroDecimals letteredRuntime failedLine = .ok text ∧
      @StoresSpan letteredRuntime FloatLit zeroDecimals fields text := by
  have read : Returns (@spanFields FloatLit zeroDecimals letteredRuntime failedLine) := by
    decide +kernel
  have sent : Returns (@normalizeTrace FloatLit zeroDecimals letteredRuntime failedLine) := by
    decide +kernel
  obtain ⟨fields, judged⟩ := read
  obtain ⟨text, returned⟩ := sent
  refine ⟨fields, text, judged, returned, ?_⟩
  apply (@span_stored_iff letteredRuntime FloatLit zeroDecimals zero_trunc lettered_words zero_laws
    failedLine text fields judged returned).mpr
  have none : @objectOf letteredRuntime failedLine = none := by decide +kernel
  intro d object
  rw [none] at object
  cases object

end RcaBackend
