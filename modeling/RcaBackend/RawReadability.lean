import RcaBackend.DecimalTexts
import RcaBackend.MetricAgreement

/-!
# Which raw lines can be read

The parsers of the selection and the normalizers of the payload return on a line unless
`json.loads` raises something other than `JSONDecodeError`, a number in it is out of the
range of the conversion that is applied to it, its unit of duration is not in the table,
or a string in it cannot be encoded. Each of them converts other values of the line.
-/

namespace RcaBackend

open SignalPatterns Attempts

section Loading

variable [PyRuntime]

/-- `json.loads` returns or raises a `JSONDecodeError`. -/
def Loads (raw : PyStr) : Prop := Returns (jsonOrNone raw)

/-- The object that a line is. -/
def objectOf (raw : PyStr) : Option Dict :=
  match jsonOrNone raw with
  | .ok (some (.dict d)) => some d
  | _ => none

/-- A line that is no object is read as a text. -/
theorem loads_cases {raw : PyStr} (loads : Loads raw) :
    (∃ d, jsonOrNone raw = .ok (some (.dict d)) ∧ objectOf raw = some d) ∨
      ∃ json, jsonOrNone raw = .ok json ∧ (∀ d, json ≠ some (.dict d)) ∧ objectOf raw = none := by
  obtain ⟨json, loaded⟩ := loads
  rw [objectOf, loaded]
  cases json with
  | none => exact Or.inr ⟨none, rfl, nofun, rfl⟩
  | some value =>
    cases value with
    | dict d => exact Or.inl ⟨d, rfl, rfl⟩
    | null | bool _ | int _ | float _ | str _ | list _ => exact Or.inr ⟨_, rfl, nofun, rfl⟩

theorem loadsDict_eq {raw : PyStr} (loads : Loads raw) : loadsDict raw = .ok (objectOf raw) := by
  obtain ⟨d, loaded, object⟩ | ⟨json, loaded, other, none⟩ := loads_cases loads
  · rw [loadsDict_object loaded, object]
  · rw [loadsDict_other loaded other, none]

theorem loads_of_loadsDict {raw : PyStr} {found : Option Dict} (read : loadsDict raw = .ok found) :
    Loads raw := by
  obtain ⟨json, loaded, -⟩ := bind_ok_iff.mp read
  exact ⟨json, loaded⟩

/-- What is done with the object of a line returns if the line loads and it returns there. -/
theorem returns_object_iff {α : Type} {raw : PyStr} {next : Option Dict → Except PyExc α} :
    Returns (loadsDict raw >>= next) ↔ Loads raw ∧ Returns (next (objectOf raw)) := by
  constructor
  · intro returned
    obtain ⟨found, read, later⟩ := returns_bind_iff.mp returned
    have loads := loads_of_loadsDict read
    obtain rfl := Except.ok.inj ((loadsDict_eq loads).symm.trans read)
    exact ⟨loads, later⟩
  · rintro ⟨loads, later⟩
    exact returns_bind_iff.mpr ⟨_, loadsDict_eq loads, later⟩

end Loading

/-! ## Metrics -/

section Metrics

variable (F : Type) [PyFloat F]

/-- An integer that is converted is in the range of a float. -/
def Fits : Json → Prop
  | .int n => Returns (PyFloat.ofInt n : Except PyExc F)
  | _ => True

/-- The numbers of an object that the analysis converts: the value beside a name, or else all
of them. -/
def NumbersFit (d : Dict) : Prop :=
  if (firstName d metricNameKeys).isSome ∧ (firstNumber d metricValueKeys).isSome then
    ∀ number ∈ firstNumber d metricValueKeys, Fits F number
  else ∀ entry ∈ d, Fits F entry.2

variable {F} [PyRuntime]

omit [PyRuntime] in
theorem num_returns_iff (value : Json) :
    Returns (num value : Except PyExc (Option F)) ↔ Fits F value := by
  cases value <;> simp [num, Fits]

omit [PyRuntime] in
theorem firstNum_returns_iff (d : Dict) (keys : List PyStr) :
    Returns (firstNum d keys : Except PyExc (Option F)) ↔
      ∀ number ∈ firstNumber d keys, Fits F number := by
  induction keys with
  | nil => simp [firstNum, firstNumber]
  | cons key keys inductionHypothesis =>
    rw [firstNum, firstNumber, returns_bind_iff]
    cases d.get key with
    | int n =>
      have converted := num_returns_iff (F := F) (.int n)
      constructor
      · rintro ⟨here, first, -⟩ number ⟨⟩
        exact converted.mp ⟨here, first⟩
      · intro fits
        obtain ⟨x, made⟩ := fits (.int n) rfl
        exact ⟨some x, by rw [num, made]; rfl, returns_ok _⟩
    | float literal => simp [num, Fits]
    | null | bool _ | str _ | list _ | dict _ => simpa [num] using inductionHypothesis

theorem firstNum_isSome {d : Dict} {keys : List PyStr} {converted : Option F}
    (read : firstNum d keys = .ok converted) :
    converted.isSome = (firstNumber d keys).isSome := by
  have field := firstNum_ok read
  cases converted with
  | none =>
    have absent : firstNumber d keys = none := field
    rw [absent]
    rfl
  | some x =>
    obtain ⟨value, found, -⟩ := field
    rw [found]
    rfl

omit [PyRuntime] in
theorem numericPairs_returns_iff (d : Dict) :
    Returns (numericPairs d : Except PyExc (List (PyStr × F))) ↔ ∀ entry ∈ d, Fits F entry.2 := by
  induction d with
  | nil => simp [numericPairs]
  | cons entry rest inductionHypothesis =>
    obtain ⟨key, value⟩ := entry
    rw [numericPairs, List.forall_mem_cons, ← inductionHypothesis, ← num_returns_iff (F := F) value,
      returns_bind_iff]
    constructor
    · rintro ⟨converted, first, later⟩
      obtain ⟨pairs, followed, -⟩ := returns_bind_iff.mp later
      exact ⟨⟨converted, first⟩, ⟨pairs, followed⟩⟩
    · rintro ⟨⟨converted, first⟩, ⟨pairs, followed⟩⟩
      refine ⟨converted, first, returns_bind_iff.mpr ⟨pairs, followed, ?_⟩⟩
      cases converted <;> exact returns_ok _

omit [PyRuntime] [PyFloat F] in
/-- The numbers under the keys are among the entries. -/
theorem firstNumber_mem {d : Dict} {keys : List PyStr} {number : Json}
    (found : firstNumber d keys = some number) : ∃ entry ∈ d, entry.2 = number := by
  induction keys with
  | nil => simp [firstNumber] at found
  | cons key keys inductionHypothesis =>
    obtain ⟨numeric, here⟩ | ⟨-, passed⟩ := firstNumber_cons d key keys
    · obtain rfl := Option.some.inj (here.symm.trans found)
      rw [Dict.get] at numeric ⊢
      cases listed : d.lookup key with
      | none =>
        rw [listed] at numeric
        exact absurd numeric not_false
      | some value =>
        obtain ⟨before, after, rfl, -⟩ := List.lookup_eq_some_iff.mp listed
        exact ⟨(key, value), by simp, rfl⟩
    · exact inductionHypothesis (passed.symm.trans found)

theorem floatText_returns {text : PyStr} (shape : IsNumeral isDecimal text) :
    Returns (floatText text : Except PyExc F) := by
  obtain ⟨value, read⟩ := Option.isSome_iff_exists.mp (floatOfText_numeric shape)
  exact ⟨PyFloat.ofLit value, by rw [floatText, read]⟩

/-- The values in a text are numbers. -/
theorem textPairs_returns (raw : PyStr) :
    Returns (textPairs raw : Except PyExc (List (PyStr × F))) := by
  rw [textPairs]
  cases matched : reMatch promRe (strip raw) with
  | some found =>
    have captured := groupText_captured 2 (Regex.matchAt_ways matched) rfl
    obtain ⟨value, read⟩ := floatText_returns (F := F) (promRe_numeral captured)
    exact returns_bind_iff.mpr ⟨value, read, returns_ok _⟩
  | none =>
    rw [returns_mapM_iff]
    intro pair member
    obtain ⟨found, listed, rfl⟩ := List.mem_map.mp member
    obtain ⟨previous, rest, reached⟩ := Regex.findAll_ways listed
    have captured := groupText_captured 2 reached rfl
    obtain ⟨value, read⟩ := floatText_returns (F := F) (pairRe_numeral captured)
    exact returns_bind_iff.mpr ⟨value, read, returns_ok _⟩

/-- The pairs of an object without a name and a number: its numbers, or else those in the
text of the line. -/
def fallbackPairs (raw : PyStr) (d : Dict) : Except PyExc (List (PyStr × F)) := do
  let pairs ← numericPairs d
  if pairs ≠ [] then return pairs else textPairs raw

/-- The pair of a name and a number, if an object has both. -/
def namedPairs (raw : PyStr) (d : Dict) (value : Option F) : Except PyExc (List (PyStr × F)) :=
  match firstName d metricNameKeys, value with
  | some name, some value => .ok [(name, value)]
  | _, _ => fallbackPairs raw d

theorem fallbackPairs_returns_iff (raw : PyStr) (d : Dict) :
    Returns (fallbackPairs (F := F) raw d) ↔ ∀ entry ∈ d, Fits F entry.2 := by
  rw [← numericPairs_returns_iff, fallbackPairs, returns_bind_iff]
  constructor
  · rintro ⟨pairs, read, -⟩
    exact ⟨pairs, read⟩
  · rintro ⟨pairs, read⟩
    refine ⟨pairs, read, ?_⟩
    split
    · exact returns_ok pairs
    · exact textPairs_returns raw

theorem namedPairs_missing {raw : PyStr} {d : Dict} {value : Option F}
    (missing : ¬ ((firstName d metricNameKeys).isSome ∧ value.isSome)) :
    namedPairs raw d value = fallbackPairs raw d := by
  cases named : firstName d metricNameKeys with
  | none => simp only [namedPairs, named]
  | some name =>
    cases value with
    | none => simp only [namedPairs, named]
    | some x => simp [named] at missing

/-- The pairs of an object are read if its numbers fit. -/
theorem metricPairs_object_returns_iff {raw : PyStr} {d : Dict}
    (loaded : jsonOrNone raw = .ok (some (.dict d))) :
    Returns (metricPairs raw : Except PyExc (List (PyStr × F))) ↔ NumbersFit F d := by
  have opened : (metricPairs raw : Except PyExc (List (PyStr × F))) =
      firstNum d metricValueKeys >>= namedPairs raw d := by
    rw [metricPairs, loaded]
    rfl
  have number := firstNum_returns_iff (F := F) d metricValueKeys
  rw [opened, NumbersFit, returns_bind_iff]
  split
  · next both =>
    rw [← number]
    constructor
    · rintro ⟨value, read, -⟩
      exact ⟨value, read⟩
    · rintro ⟨value, read⟩
      have present := (firstNum_isSome read).trans both.2
      obtain ⟨x, rfl⟩ := Option.isSome_iff_exists.mp present
      obtain ⟨name, named⟩ := Option.isSome_iff_exists.mp both.1
      exact ⟨some x, read, [(name, x)], by simp only [namedPairs, named]⟩
  · next missing =>
    rw [← fallbackPairs_returns_iff raw d]
    have falls {value : Option F} (read : firstNum d metricValueKeys = .ok value) :
        namedPairs raw d value = fallbackPairs raw d := by
      rw [← firstNum_isSome read] at missing
      exact namedPairs_missing missing
    constructor
    · rintro ⟨value, read, later⟩
      exact falls read ▸ later
    · intro fallen
      have fits := (fallbackPairs_returns_iff raw d).mp fallen
      have first : ∀ found ∈ firstNumber d metricValueKeys, Fits F found := by
        intro found listed
        obtain ⟨entry, member, rfl⟩ := firstNumber_mem listed
        exact fits entry member
      obtain ⟨value, read⟩ := number.mpr first
      exact ⟨value, read, (falls read).symm ▸ fallen⟩

/-- The pairs of a line are read if it loads and its numbers fit. -/
theorem metricPairs_returns_iff (raw : PyStr) :
    Returns (metricPairs raw : Except PyExc (List (PyStr × F))) ↔
      Loads raw ∧ ∀ d ∈ objectOf raw, NumbersFit F d := by
  by_cases loads : Loads raw
  · obtain ⟨d, loaded, object⟩ | ⟨json, loaded, other, none⟩ := loads_cases loads
    · simp [loads, object, metricPairs_object_returns_iff loaded]
    · have text : (metricPairs raw : Except PyExc (List (PyStr × F))) = textPairs raw := by
        rw [metricPairs, loaded]
        cases json with
        | none => rfl
        | some value =>
          cases value with
          | dict d => exact absurd rfl (other d)
          | null | bool _ | int _ | float _ | str _ | list _ => rfl
      simp [loads, none, text, textPairs_returns]
  · refine iff_of_false ?_ fun both => loads both.1
    intro returned
    obtain ⟨json, loaded, -⟩ := returns_bind_iff.mp returned
    exact loads ⟨json, loaded⟩

end Metrics

end RcaBackend
