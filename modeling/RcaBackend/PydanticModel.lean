import RcaBackend.PyJson

/-!
# Dumping and validating models with generated aliases

`CamelModel` gives every field the alias `to_camel` computes from its name and
accepts either on input. A dump writes the alias or the name, and may drop the
fields whose value is `None`; validation reads the alias first, then the name,
ignores other keys, and takes the default of an absent field. One lookup law
covers every model: what a dump wrote under a field is what validation finds,
whichever key was chosen. It needs only that no two fields of the model can be
confused through their aliases, a finite check for each class.

Errors carry no paths here: the code under study only distinguishes a
`ValidationError` from other exceptions.
-/

namespace RcaBackend

/-- `p[:1].upper() + p[1:]`. Field names are ASCII. -/
def capitalized : PyStr → PyStr
  | [] => []
  | c :: rest => (if 97 ≤ c ∧ c ≤ 122 then c - 32 else c) :: rest

/-- `to_camel`: the words between underscores, capitalized from the second on. -/
def toCamel (snake : PyStr) : PyStr :=
  match (snake.splitOn 95).filter (· ≠ []) with
  | [] => snake
  | first :: rest => first ++ rest.flatMap capitalized

/-- The keyword arguments of `model_dump` that the code uses. -/
structure DumpOptions where
  byAlias : Bool := false
  excludeNone : Bool := false

namespace DumpOptions

/-- The key a dump writes a field under. -/
def key (o : DumpOptions) (name : String) : PyStr :=
  if o.byAlias then toCamel (py name) else py name

/-- A field that the dump leaves out. -/
def drops (o : DumpOptions) (value : Json) : Bool := o.excludeNone && value = .null

end DumpOptions

/-- The entries of a dumped model, in field order. -/
def dumpFields (o : DumpOptions) (fields : List (String × Json)) : Dict :=
  (fields.filter fun field => !o.drops field.2).map fun field => (o.key field.1, field.2)

/-- Validation looks a field up by its alias, then by its name. -/
def lookupField (d : Dict) (name : String) : Option Json :=
  (d.find? (toCamel (py name))).or (d.find? (py name))

/-- Names are distinct, and no field's alias is the alias or the name of another. -/
def WellNamed (names : List String) : Prop :=
  names.Nodup ∧ ∀ a ∈ names, ∀ b ∈ names,
    (toCamel (py a) = toCamel (py b) → a = b) ∧ (toCamel (py a) = py b → a = b)

instance (names : List String) : Decidable (WellNamed names) :=
  inferInstanceAs (Decidable (_ ∧ ∀ a ∈ names, ∀ b ∈ names, _))

/-- The lookup of one key in a dump: the entry whose field has that key. -/
theorem find_dumpFields (o : DumpOptions) (fields : List (String × Json)) (sought : PyStr)
    (name : String)
    (only : ∀ field ∈ fields, o.key field.1 = sought ↔ field.1 = name) :
    Dict.find? (dumpFields o fields) sought =
      (fields.filter fun field => !o.drops field.2).lookup name := by
  induction fields with
  | nil => rfl
  | cons field rest inductionHypothesis =>
    obtain ⟨label, value⟩ := field
    have tail := inductionHypothesis fun other member => only other (List.mem_cons_of_mem _ member)
    have head := only (label, value) List.mem_cons_self
    simp only [Dict.find?, dumpFields] at tail ⊢
    by_cases dropped : o.drops value = true
    · simpa [dropped] using tail
    · simp only [List.filter_cons, dropped, Bool.not_false, if_true, List.map_cons,
        Dict.lookup_cons, tail]
      by_cases here : label = name
      · subst here
        have found : sought = o.key label := (head.mpr rfl).symm
        simp [found]
      · have missed : ¬ sought = o.key label := fun same => here (head.mp same.symm)
        simp [missed, List.lookup_cons, beq_false_of_ne (Ne.symm here)]

/-- A key that no field of the dump writes is absent. -/
theorem find_dumpFields_none (o : DumpOptions) (fields : List (String × Json)) (sought : PyStr)
    (unused : ∀ field ∈ fields, o.key field.1 ≠ sought) :
    Dict.find? (dumpFields o fields) sought = none := by
  simp only [Dict.find?, List.lookup_eq_none_iff, dumpFields, List.mem_map, List.mem_filter]
  rintro _ ⟨field, ⟨member, _⟩, rfl⟩
  simpa using fun same : sought = o.key field.1 => unused field member same.symm

/-- With distinct names, dropping entries drops exactly their lookups. -/
theorem lookup_filter (keep : Json → Bool) (fields : List (String × Json)) (name : String)
    (distinct : (fields.map Prod.fst).Nodup) :
    (fields.filter fun field => keep field.2).lookup name =
      (fields.lookup name).filter keep := by
  induction fields with
  | nil => rfl
  | cons field rest inductionHypothesis =>
    obtain ⟨label, value⟩ := field
    have tail := inductionHypothesis (List.nodup_cons.mp distinct).2
    by_cases here : name = label
    · subst here
      have absent : rest.lookup name = none := by
        rw [List.lookup_eq_none_iff]
        intro entry member
        have present : entry.1 ∈ rest.map Prod.fst := List.mem_map_of_mem member
        have fresh : name ≠ entry.1 := fun same =>
          (List.nodup_cons.mp distinct).1 (same ▸ present)
        simpa using fresh
      cases kept : keep value with
      | true => simp [kept, Option.filter]
      | false => simp [kept, tail, absent, Option.filter]
    · have differ : (name == label) = false := beq_false_of_ne here
      cases kept : keep value with
      | true => simp [List.lookup_cons, kept, differ, tail]
      | false => simp [List.lookup_cons, kept, differ, tail]

/-- Validation finds under a field exactly what the dump wrote there. With
aliases the first lookup answers; with names the first one misses, unless the
name is its own alias, and the second answers. -/
theorem lookupField_dump (o : DumpOptions) (fields : List (String × Json)) (name : String)
    (named : WellNamed (fields.map Prod.fst)) (member : name ∈ fields.map Prod.fst) :
    lookupField (dumpFields o fields) name =
      (fields.lookup name).filter fun value => !o.drops value := by
  rw [← lookup_filter _ fields name named.1]
  have inNames : ∀ field ∈ fields, field.1 ∈ fields.map Prod.fst :=
    fun field present => List.mem_map_of_mem present
  cases aliased : o.byAlias with
  | true =>
    have viaAlias := find_dumpFields o fields (toCamel (py name)) name fun field present => by
      simp only [DumpOptions.key, aliased, if_true]
      exact ⟨(named.2 _ (inNames field present) _ member).1, fun same => by rw [same]⟩
    simp only [lookupField, viaAlias]
    cases found : (fields.filter fun field => !o.drops field.2).lookup name with
    | some value => rfl
    | none =>
      by_cases own : toCamel (py name) = py name
      · rw [← own, viaAlias, found]; rfl
      · rw [find_dumpFields_none o fields (py name)]
        · rfl
        · intro field present
          simp only [DumpOptions.key, aliased, if_true]
          intro same
          have label := (named.2 _ (inNames field present) _ member).2 same
          exact own (label ▸ same)
  | false =>
    have viaName := find_dumpFields o fields (py name) name fun field present => by
      simp [DumpOptions.key, aliased]
    by_cases own : toCamel (py name) = py name
    · simp only [lookupField, own, viaName, Option.or_self]
    · have missed : Dict.find? (dumpFields o fields) (toCamel (py name)) = none := by
        apply find_dumpFields_none
        intro field present
        simp only [DumpOptions.key, aliased]
        intro same
        have label := (named.2 _ member _ (inNames field present)).2 same.symm
        exact own (by simpa [label] using same.symm)
      simp only [lookupField, missed, viaName, Option.none_or]

/-! ## Validators -/

/-- A nested model requires a dictionary. -/
def asDict : Json → Except PyExc Dict
  | .dict entries => .ok entries
  | _ => .error .validationError

/-- A `str` field. -/
def strValue : Json → Except PyExc PyStr
  | .str text => .ok text
  | _ => .error .validationError

/-- The integers that pydantic's lax mode takes floats and strings for. Which ones it accepts is
its own affair. -/
class LaxInt where
  ofFloat : FloatLit → Option Int
  ofText : PyStr → Option Int

/-- No float and no string is taken for an integer, as in strict mode. -/
@[reducible] def strictInt : LaxInt := ⟨fun _ => none, fun _ => none⟩

/-- An `int` field in lax mode, where a boolean is an integer too. -/
def intValue [LaxInt] : Json → Except PyExc Int
  | .int n => .ok n
  | .bool b => .ok (if b then 1 else 0)
  | .float value => (LaxInt.ofFloat value).elim (.error .validationError) .ok
  | .str text => (LaxInt.ofText text).elim (.error .validationError) .ok
  | .null | .list _ | .dict _ => .error .validationError

/-- A `list[...]` field. -/
def listValue {α : Type} (element : Json → Except PyExc α) : Json → Except PyExc (List α)
  | .list items => items.mapM element
  | _ => .error .validationError

/-- A `... | None` field. -/
def optionValue {α : Type} (inner : Json → Except PyExc α) : Json → Except PyExc (Option α)
  | .null => .ok none
  | value => (inner value).map some

/-- A field without a default. -/
def required {α : Type} (d : Dict) (name : String) (validator : Json → Except PyExc α) :
    Except PyExc α :=
  match lookupField d name with
  | some value => validator value
  | none => .error .validationError

/-- A field with a default, which is not itself validated. -/
def fieldOr {α : Type} (d : Dict) (name : String) (validator : Json → Except PyExc α)
    (default : α) : Except PyExc α :=
  match lookupField d name with
  | some value => validator value
  | none => .ok default

/-- `None` and present values, as a dump writes an optional field. -/
def dumpOption {α : Type} (dump : α → Json) : Option α → Json
  | none => .null
  | some value => dump value

theorem listValue_map {α : Type} (element : Json → Except PyExc α) (dump : α → Json)
    (inverse : ∀ value, element (dump value) = .ok value) (values : List α) :
    listValue element (.list (values.map dump)) = .ok values := by
  simp only [listValue]
  induction values with
  | nil => rfl
  | cons value rest inductionHypothesis =>
    simp only [List.map_cons, List.mapM_cons, inverse, inductionHypothesis]
    rfl

theorem optionValue_dump {α : Type} (inner : Json → Except PyExc α) (dump : α → Json)
    (inverse : ∀ value, inner (dump value) = .ok value) (present : ∀ value, dump value ≠ .null)
    (value : Option α) : optionValue inner (dumpOption dump value) = .ok value := by
  cases value with
  | none => rfl
  | some value =>
    have inner := inverse value
    cases shape : dump value with
    | null => exact absurd shape (present value)
    | _ =>
      rw [shape] at inner
      simp [dumpOption, shape, optionValue, inner, Except.map]

/-- A required field is validated from what the dump wrote, if that is not `None`. -/
theorem required_dump {α : Type} (o : DumpOptions) (fields : List (String × Json))
    (name : String) (validator : Json → Except PyExc α) (value : Json)
    (named : WellNamed (fields.map Prod.fst)) (written : fields.lookup name = some value)
    (kept : value ≠ .null) :
    required (dumpFields o fields) name validator = validator value := by
  have member : name ∈ fields.map Prod.fst := by
    obtain ⟨before, after, rfl, _⟩ := List.lookup_eq_some_iff.mp written
    simp
  simp [required, lookupField_dump o fields name named member, written, DumpOptions.drops, kept,
    Option.filter]

/-- A field with a default is validated from what the dump wrote, or was left
out as `None`, where the default is what validating `None` would give. -/
theorem fieldOr_dump {α : Type} (o : DumpOptions) (fields : List (String × Json))
    (name : String) (validator : Json → Except PyExc α) (default : α) (value : Json)
    (named : WellNamed (fields.map Prod.fst)) (written : fields.lookup name = some value)
    (absent : value = .null → validator .null = .ok default) :
    fieldOr (dumpFields o fields) name validator default = validator value := by
  have member : name ∈ fields.map Prod.fst := by
    obtain ⟨before, after, rfl, _⟩ := List.lookup_eq_some_iff.mp written
    simp
  simp only [fieldOr, lookupField_dump o fields name named member, written]
  by_cases dropped : o.drops value = true
  · have none : value = .null := by
      simp only [DumpOptions.drops, Bool.and_eq_true, decide_eq_true_eq] at dropped
      exact dropped.2
    subst none
    simp [dropped, absent rfl, Option.filter]
  · simp [dropped, Option.filter]

/-- An optional field reads back what the dump wrote or left out. -/
theorem optionField_dump {α : Type} (o : DumpOptions) (fields : List (String × Json))
    (name : String) (inner : Json → Except PyExc α) (dump : α → Json) (value : Option α)
    (named : WellNamed (fields.map Prod.fst))
    (written : fields.lookup name = some (dumpOption dump value))
    (inverse : ∀ value, inner (dump value) = .ok value) (present : ∀ value, dump value ≠ .null) :
    fieldOr (dumpFields o fields) name (optionValue inner) none = .ok value :=
  (fieldOr_dump o fields name (optionValue inner) none _ named written fun _ => rfl).trans
    (optionValue_dump inner dump inverse present value)

end RcaBackend
