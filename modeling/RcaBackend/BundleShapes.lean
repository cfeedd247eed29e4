import RcaBackend.Attempts
import RcaBackend.Contracts

/-!
# What the bundle's contract accepts

Validation of a bundle raises nothing but `ValidationError`, and returns exactly for the
dictionaries of a certain shape: each required field is there under its alias or its name,
and what is there fits its field.
-/

namespace RcaBackend

open Attempts

/-! ## Validation raises nothing but `ValidationError` -/

/-- What is raised is a `ValidationError`. -/
abbrev Refuses {α : Type} (attempt : Except PyExc α) : Prop :=
  RaisesOnly (fun error => error = .validationError) attempt

/-- A value that is no object is refused. -/
theorem asDict_refuses (value : Json) : Refuses (asDict value) := by
  cases value <;> simp [asDict]

/-- A value that is no string is refused. -/
theorem strValue_refuses (value : Json) : Refuses (strValue value) := by
  cases value <;> simp [strValue]

/-- A value that is read as no integer is refused. -/
theorem intValue_refuses [LaxInt] (value : Json) : Refuses (intValue value) := by
  cases value with
  | float literal => cases found : LaxInt.ofFloat literal <;> simp [intValue, found]
  | str text => cases found : LaxInt.ofText text <;> simp [intValue, found]
  | null | bool _ | int _ | list _ | dict _ => simp [intValue]

/-- A value that is no timestamp is refused. -/
theorem iso8601_refuses (value : Json) : Refuses (Iso8601.validate value) := by
  fun_cases Iso8601.validate value <;> simp_all

/-- A value that is no modality is refused. -/
theorem modality_refuses (value : Json) : Refuses (Modality.validate value) := by
  fun_cases Modality.validate value <;> simp_all

section Fields

variable {α : Type} {validator : Json → Except PyExc α}
  (refuses : ∀ value, Refuses (validator value))

include refuses

/-- A list is refused where an item is, and a value that is no list. -/
theorem listValue_refuses (value : Json) : Refuses (listValue validator value) := by
  cases value with
  | list items => exact raisesOnly_mapM fun item _ => refuses item
  | null | bool _ | int _ | float _ | str _ | dict _ => simp [listValue]

/-- An optional value is refused where its validator refuses it. -/
theorem optionValue_refuses (value : Json) : Refuses (optionValue validator value) := by
  cases value with
  | null => exact raisesOnly_ok none
  | bool _ | int _ | float _ | str _ | list _ | dict _ => exact raisesOnly_map.mpr (refuses _)

/-- A missing field is refused, and a present one where its validator refuses it. -/
theorem required_refuses (d : Dict) (name : String) : Refuses (required d name validator) := by
  rw [required]
  split
  · exact refuses _
  · simp

/-- A field with a default is refused where its validator refuses it. -/
theorem fieldOr_refuses (d : Dict) (name : String) (default : α) :
    Refuses (fieldOr d name validator default) := by
  rw [fieldOr]
  split
  · exact refuses _
  · simp

end Fields

/-- The validation of an item returns or raises a ValidationError. -/
theorem ModalityItem.refuses (value : Json) : Refuses (ModalityItem.modelValidate value) := by
  apply raisesOnly_bind (asDict_refuses value)
  intro d _
  apply raisesOnly_bind (required_refuses iso8601_refuses d _)
  intro timestamp _
  apply raisesOnly_bind (fieldOr_refuses strValue_refuses d _ _)
  intro service _
  apply raisesOnly_bind (required_refuses strValue_refuses d _)
  intro raw _
  exact raisesOnly_ok _

/-- So does that of a window. -/
theorem Window.refuses (value : Json) : Refuses (Window.modelValidate value) := by
  apply raisesOnly_bind (asDict_refuses value)
  intro d _
  apply raisesOnly_bind (required_refuses iso8601_refuses d _)
  intro start _
  apply raisesOnly_bind (required_refuses iso8601_refuses d _)
  intro stop _
  exact raisesOnly_ok _

/-- So does that of a trigger. -/
theorem TriggerInfo.refuses (value : Json) : Refuses (TriggerInfo.modelValidate value) := by
  apply raisesOnly_bind (asDict_refuses value)
  intro d _
  apply raisesOnly_bind (required_refuses iso8601_refuses d _)
  intro triggerTime _
  apply raisesOnly_bind (fieldOr_refuses (listValue_refuses modality_refuses) d _ _)
  intro triggeredBy _
  exact raisesOnly_ok _

/-- So does that of an interval. -/
theorem ModalityInterval.refuses [LaxInt] (value : Json) :
    Refuses (ModalityInterval.modelValidate value) := by
  apply raisesOnly_bind (asDict_refuses value)
  intro d _
  apply raisesOnly_bind (fieldOr_refuses strValue_refuses d _ _)
  intro fileName _
  apply raisesOnly_bind (fieldOr_refuses (optionValue_refuses iso8601_refuses) d _ _)
  intro start _
  apply raisesOnly_bind (fieldOr_refuses (optionValue_refuses iso8601_refuses) d _ _)
  intro stop _
  apply raisesOnly_bind (fieldOr_refuses (optionValue_refuses strValue_refuses) d _ _)
  intro status _
  apply raisesOnly_bind (fieldOr_refuses (optionValue_refuses intValue_refuses) d _ _)
  intro recordCount _
  apply raisesOnly_bind (fieldOr_refuses (optionValue_refuses intValue_refuses) d _ _)
  intro totalCount _
  exact raisesOnly_ok _

/-- So does that of the intervals of a modality. -/
theorem ModalityDetail.refuses [LaxInt] (value : Json) :
    Refuses (ModalityDetail.modelValidate value) := by
  apply raisesOnly_bind (asDict_refuses value)
  intro d _
  apply raisesOnly_bind (fieldOr_refuses (listValue_refuses ModalityInterval.refuses) d _ _)
  intro intervals _
  exact raisesOnly_ok _

/-- So does that of all intervals. -/
theorem ModalityInfo.refuses [LaxInt] (value : Json) :
    Refuses (ModalityInfo.modelValidate value) := by
  apply raisesOnly_bind (asDict_refuses value)
  intro d _
  have detail := fun name => fieldOr_refuses ModalityDetail.refuses d name .empty
  apply raisesOnly_bind (detail _)
  intro log _
  apply raisesOnly_bind (detail _)
  intro metric _
  apply raisesOnly_bind (detail _)
  intro trace _
  exact raisesOnly_ok _

/-- So does that of a bundle. -/
theorem IngestBundle.refuses [LaxInt] (value : Json) :
    Refuses (IngestBundle.modelValidate value) := by
  apply raisesOnly_bind (asDict_refuses value)
  intro d _
  apply raisesOnly_bind (fieldOr_refuses strValue_refuses d _ _)
  intro bundleVersion _
  apply raisesOnly_bind (fieldOr_refuses strValue_refuses d _ _)
  intro companyCode _
  apply raisesOnly_bind (required_refuses Window.refuses d _)
  intro window _
  apply raisesOnly_bind (required_refuses TriggerInfo.refuses d _)
  intro triggerInfo _
  apply raisesOnly_bind (fieldOr_refuses ModalityInfo.refuses d _ _)
  intro modalityInfo _
  have items := fun name => fieldOr_refuses (listValue_refuses ModalityItem.refuses) d name []
  apply raisesOnly_bind (items _)
  intro logs _
  apply raisesOnly_bind (items _)
  intro metrics _
  apply raisesOnly_bind (items _)
  intro traces _
  exact raisesOnly_ok _

/-! ## Shapes -/

/-- The value is a string. -/
def IsText (value : Json) : Prop := ∃ text, value = .str text

/-- A text that `datetime.fromisoformat` reads. -/
def IsTime (value : Json) : Prop :=
  ∃ text, value = .str text ∧ (DateTime.fromisoformat text).isSome = true

/-- The value names a modality. -/
def IsModality (value : Json) : Prop := ∃ modality : Modality, value = .str modality.text

/-- An integer, a boolean, or what lax mode takes for an integer. -/
def IsInt [LaxInt] : Json → Prop
  | .int _ | .bool _ => True
  | .float value => LaxInt.ofFloat value ≠ none
  | .str text => LaxInt.ofText text ≠ none
  | .null | .list _ | .dict _ => False

/-- The value is null, or it has the shape. -/
def OrNull (fits : Json → Prop) (value : Json) : Prop := value = .null ∨ fits value

/-- The value is a list, and its items have the shape. -/
def ListOf (fits : Json → Prop) (value : Json) : Prop :=
  ∃ items, value = .list items ∧ ∀ item ∈ items, fits item

/-- The value is an object, and its fields have the shapes. -/
def ObjectOf (fields : Dict → Prop) (value : Json) : Prop := ∃ d, value = .dict d ∧ fields d

/-- A field is there, under its alias or its name, and fits. -/
def Has (d : Dict) (name : String) (fits : Json → Prop) : Prop :=
  ∃ value, lookupField d name = some value ∧ fits value

/-- A field fits if it is there. -/
def MayHave (d : Dict) (name : String) (fits : Json → Prop) : Prop :=
  ∀ value, lookupField d name = some value → fits value

/-- A field that is there and has the shape has it if it is there. -/
theorem Has.mayHave {d : Dict} {name : String} {fits : Json → Prop} (has : Has d name fits) :
    MayHave d name fits := by
  obtain ⟨value, found, fitting⟩ := has
  intro other here
  rwa [← Option.some.inj (found.symm.trans here)]

/-- The fields of an item. -/
structure ItemFields (d : Dict) : Prop where
  timestamp : Has d "timestamp" IsTime
  service : MayHave d "service" IsText
  raw : Has d "raw" IsText

/-- The fields of a window. -/
structure WindowFields (d : Dict) : Prop where
  start : Has d "start" IsTime
  stop : Has d "end" IsTime

/-- The fields of a trigger. -/
structure TriggerFields (d : Dict) : Prop where
  triggerTime : Has d "trigger_time" IsTime
  triggeredBy : MayHave d "triggered_by" (ListOf IsModality)

/-- The fields of an interval; each of them may be missing. -/
structure IntervalFields [LaxInt] (d : Dict) : Prop where
  fileName : MayHave d "fileName" IsText
  start : MayHave d "start" (OrNull IsTime)
  stop : MayHave d "end" (OrNull IsTime)
  status : MayHave d "status" (OrNull IsText)
  recordCount : MayHave d "record_count" (OrNull IsInt)
  totalCount : MayHave d "total_count" (OrNull IsInt)

/-- The one field of a modality, its intervals. -/
def DetailFields [LaxInt] (d : Dict) : Prop :=
  MayHave d "intervals" (ListOf (ObjectOf IntervalFields))

/-- The intervals of the three modalities. -/
structure InfoFields [LaxInt] (d : Dict) : Prop where
  log : MayHave d "log" (ObjectOf DetailFields)
  metric : MayHave d "metric" (ObjectOf DetailFields)
  trace : MayHave d "trace" (ObjectOf DetailFields)

/-- What a bundle accepts besides its two required fields. -/
structure OptionalFields [LaxInt] (d : Dict) : Prop where
  bundleVersion : MayHave d "bundle_version" IsText
  companyCode : MayHave d "company_code" IsText
  modalityInfo : MayHave d "modality_info" (ObjectOf InfoFields)
  logs : MayHave d "logs" (ListOf (ObjectOf ItemFields))
  metrics : MayHave d "metrics" (ListOf (ObjectOf ItemFields))
  traces : MayHave d "traces" (ListOf (ObjectOf ItemFields))

/-- The fields of a bundle. -/
structure BundleFields [LaxInt] (d : Dict) : Prop where
  window : Has d "window" (ObjectOf WindowFields)
  triggerInfo : Has d "trigger_info" (ObjectOf TriggerFields)
  optional : OptionalFields d

/-! ## Validation returns for these shapes -/

/-- Attempts one after another return where each of them does. -/
theorem returns_then {ε α β : Type} {first : Except ε α} {next : α → Except ε β} {later : Prop}
    (same : ∀ value, Returns (next value) ↔ later) :
    Returns (first >>= next) ↔ Returns first ∧ later := by
  rw [returns_bind_iff]
  constructor
  · rintro ⟨value, returned, rest⟩
    exact ⟨⟨value, returned⟩, (same value).mp rest⟩
  · rintro ⟨⟨value, returned⟩, rest⟩
    exact ⟨value, returned, (same value).mpr rest⟩

/-- The last field of a class. -/
theorem returns_last {ε α β : Type} {first : Except ε α} {f : α → β} :
    Returns (first >>= fun value => pure (f value)) ↔ Returns first :=
  returns_bind_ok_iff

/-- A class accepts the objects whose fields it accepts. -/
theorem returns_object {α : Type} {validator : Json → Except PyExc α}
    {inner : Dict → Except PyExc α} {fields : Dict → Prop}
    (form : ∀ value, validator value = asDict value >>= inner)
    (same : ∀ d, Returns (inner d) ↔ fields d) (value : Json) :
    Returns (validator value) ↔ ObjectOf fields value := by
  rw [form, ObjectOf]
  cases value with
  | dict d =>
    simp only [Json.dict.injEq, exists_eq_left']
    exact same d
  | null | bool _ | int _ | float _ | str _ | list _ => simp [asDict, bind, Except.bind]

/-- A string is accepted where a string is expected, and nothing else is. -/
theorem strValue_returns (value : Json) : Returns (strValue value) ↔ IsText value := by
  cases value <;> simp [strValue, IsText]

/-- An integer is accepted, and what is read as one. -/
theorem intValue_returns [LaxInt] (value : Json) : Returns (intValue value) ↔ IsInt value := by
  cases value with
  | float literal => cases found : LaxInt.ofFloat literal <;> simp [intValue, IsInt, found]
  | str text => cases found : LaxInt.ofText text <;> simp [intValue, IsInt, found]
  | null | bool _ | int _ | list _ | dict _ => simp [intValue, IsInt]

/-- A timestamp is accepted where one is expected, and nothing else is. -/
theorem iso8601_returns (value : Json) : Returns (Iso8601.validate value) ↔ IsTime value := by
  cases value with
  | str text =>
    simp only [Iso8601.validate, IsTime, Json.str.injEq, exists_eq_left']
    split <;> simp_all
  | null | bool _ | int _ | float _ | list _ | dict _ => simp [Iso8601.validate, IsTime]

/-- A modality is accepted where one is expected, and nothing else is. -/
theorem modality_returns (value : Json) : Returns (Modality.validate value) ↔ IsModality value := by
  constructor
  · rintro ⟨modality, returned⟩
    refine ⟨modality, ?_⟩
    unfold Modality.validate at returned
    split at returned
    · rename_i text
      split at returned
      · rename_i same
        cases returned
        rw [same]
        rfl
      · split at returned
        · rename_i same
          cases returned
          rw [same]
          rfl
        · split at returned
          · rename_i same
            cases returned
            rw [same]
            rfl
          · cases returned
    · cases returned
  · rintro ⟨modality, rfl⟩
    exact ⟨modality, modality.validate_text⟩

section Fields

variable {α : Type} {validator : Json → Except PyExc α} {fits : Json → Prop}
  (same : ∀ value, Returns (validator value) ↔ fits value)

include same

/-- A list is accepted where each item is. -/
theorem listValue_returns (value : Json) :
    Returns (listValue validator value) ↔ ListOf fits value := by
  cases value with
  | list items =>
    simp only [listValue, returns_mapM_iff, ListOf, Json.list.injEq, exists_eq_left', same]
  | null | bool _ | int _ | float _ | str _ | dict _ => simp [listValue, ListOf]

/-- Null is accepted, and what the validator accepts. -/
theorem optionValue_returns (value : Json) :
    Returns (optionValue validator value) ↔ OrNull fits value := by
  cases value with
  | null => simp [optionValue, OrNull]
  | bool _ | int _ | float _ | str _ | list _ | dict _ => simp [optionValue, OrNull, same]

/-- A required field is accepted where it is there and its value is accepted. -/
theorem required_returns (d : Dict) (name : String) :
    Returns (required d name validator) ↔ Has d name fits := by
  rw [required, Has]
  cases lookupField d name with
  | none => simp
  | some value => simp [same]

/-- A field with a default is accepted where it is missing or its value is accepted. -/
theorem fieldOr_returns (d : Dict) (name : String) (default : α) :
    Returns (fieldOr d name validator default) ↔ MayHave d name fits := by
  rw [fieldOr, MayHave]
  cases lookupField d name with
  | none => simp
  | some value => simp [same]

end Fields

/-- What is accepted as an item. -/
theorem ModalityItem.returns_iff (value : Json) :
    Returns (ModalityItem.modelValidate value) ↔ ObjectOf ItemFields value := by
  refine returns_object (fun _ => rfl) (fun d => ?_) value
  refine (returns_then fun _ => returns_then fun _ => returns_last).trans ?_
  rw [required_returns iso8601_returns, fieldOr_returns strValue_returns,
    required_returns strValue_returns]
  constructor
  · rintro ⟨timestamp, service, raw⟩
    exact ⟨timestamp, service, raw⟩
  · rintro ⟨timestamp, service, raw⟩
    exact ⟨timestamp, service, raw⟩

/-- What is accepted as a window. -/
theorem Window.returns_iff (value : Json) :
    Returns (Window.modelValidate value) ↔ ObjectOf WindowFields value := by
  refine returns_object (fun _ => rfl) (fun d => ?_) value
  refine (returns_then fun _ => returns_last).trans ?_
  rw [required_returns iso8601_returns, required_returns iso8601_returns]
  constructor
  · rintro ⟨start, stop⟩
    exact ⟨start, stop⟩
  · rintro ⟨start, stop⟩
    exact ⟨start, stop⟩

/-- What is accepted as a trigger. -/
theorem TriggerInfo.returns_iff (value : Json) :
    Returns (TriggerInfo.modelValidate value) ↔ ObjectOf TriggerFields value := by
  refine returns_object (fun _ => rfl) (fun d => ?_) value
  refine (returns_then fun _ => returns_last).trans ?_
  rw [required_returns iso8601_returns, fieldOr_returns (listValue_returns modality_returns)]
  constructor
  · rintro ⟨triggerTime, triggeredBy⟩
    exact ⟨triggerTime, triggeredBy⟩
  · rintro ⟨triggerTime, triggeredBy⟩
    exact ⟨triggerTime, triggeredBy⟩

section Integers

variable [LaxInt]

/-- What is accepted as an interval. -/
theorem ModalityInterval.returns_iff (value : Json) :
    Returns (ModalityInterval.modelValidate value) ↔ ObjectOf IntervalFields value := by
  refine returns_object (fun _ => rfl) (fun d => ?_) value
  refine (returns_then fun _ => returns_then fun _ => returns_then fun _ => returns_then fun _ =>
    returns_then fun _ => returns_last).trans ?_
  have time := optionValue_returns iso8601_returns
  have count := optionValue_returns intValue_returns
  rw [fieldOr_returns strValue_returns, fieldOr_returns time, fieldOr_returns time,
    fieldOr_returns (optionValue_returns strValue_returns), fieldOr_returns count,
    fieldOr_returns count]
  constructor
  · rintro ⟨fileName, start, stop, status, recordCount, totalCount⟩
    exact ⟨fileName, start, stop, status, recordCount, totalCount⟩
  · rintro ⟨fileName, start, stop, status, recordCount, totalCount⟩
    exact ⟨fileName, start, stop, status, recordCount, totalCount⟩

/-- What is accepted as the intervals of a modality. -/
theorem ModalityDetail.returns_iff (value : Json) :
    Returns (ModalityDetail.modelValidate value) ↔ ObjectOf DetailFields value := by
  refine returns_object (fun _ => rfl) (fun d => ?_) value
  exact returns_last.trans (fieldOr_returns (listValue_returns ModalityInterval.returns_iff) d _ _)

/-- What is accepted as all intervals. -/
theorem ModalityInfo.returns_iff (value : Json) :
    Returns (ModalityInfo.modelValidate value) ↔ ObjectOf InfoFields value := by
  refine returns_object (fun _ => rfl) (fun d => ?_) value
  refine (returns_then fun _ => returns_then fun _ => returns_last).trans ?_
  have detail := fun name => fieldOr_returns ModalityDetail.returns_iff d name .empty
  rw [detail, detail, detail]
  constructor
  · rintro ⟨log, metric, trace⟩
    exact ⟨log, metric, trace⟩
  · rintro ⟨log, metric, trace⟩
    exact ⟨log, metric, trace⟩

/-- A bundle is accepted if and only if its two required fields are there and all fit. -/
theorem IngestBundle.returns_iff (value : Json) :
    Returns (IngestBundle.modelValidate value) ↔ ObjectOf BundleFields value := by
  refine returns_object (fun _ => rfl) (fun d => ?_) value
  refine (returns_then fun _ => returns_then fun _ => returns_then fun _ => returns_then fun _ =>
    returns_then fun _ => returns_then fun _ => returns_then fun _ => returns_last).trans ?_
  have items := fun name => fieldOr_returns (listValue_returns ModalityItem.returns_iff) d name []
  rw [fieldOr_returns strValue_returns, fieldOr_returns strValue_returns,
    required_returns Window.returns_iff, required_returns TriggerInfo.returns_iff,
    fieldOr_returns ModalityInfo.returns_iff, items, items, items]
  constructor
  · rintro ⟨bundleVersion, companyCode, window, triggerInfo, modalityInfo, logs, metrics, traces⟩
    exact ⟨window, triggerInfo, bundleVersion, companyCode, modalityInfo, logs, metrics, traces⟩
  · rintro ⟨window, triggerInfo, bundleVersion, companyCode, modalityInfo, logs, metrics, traces⟩
    exact ⟨bundleVersion, companyCode, window, triggerInfo, modalityInfo, logs, metrics, traces⟩

end Integers

end RcaBackend
