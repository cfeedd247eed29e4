import RcaBackend.PyText

/-!
# JSON values and insertion-ordered dictionaries

What `json.loads` returns and what a pydantic dump produces. A dictionary is
its list of entries in insertion order; assignment to a present key keeps the
entry's place, as in Python. A float is kept as the literal it was read from:
`json.loads` converts it without failing, so the conversion to binary64 is left
to the places that compute with the value.
-/

namespace RcaBackend

/-- A floating-point literal: JSON's decimal notation, or one of the names that
`json.loads` and `float` accept beyond it. -/
inductive FloatLit where
  | nan
  | infinity (negative : Bool)
  /-- `mantissa * 10 ^ exponent`, with its sign kept apart for the zero. -/
  | decimal (negative : Bool) (mantissa : Nat) (exponent : Int)
deriving DecidableEq, Repr

/-- A JSON value as Python objects. -/
inductive Json where
  | null
  | bool (value : Bool)
  | int (value : Int)
  | float (value : FloatLit)
  | str (text : PyStr)
  | list (items : List Json)
  | dict (entries : List (PyStr × Json))

/-- A Python dictionary with string keys, in insertion order. -/
abbrev Dict := List (PyStr × Json)

namespace Json

mutual

/-- Equality of values is decided structurally. -/
def decEq : (left right : Json) → Decidable (left = right)
  | .null, .null => isTrue rfl
  | .bool a, .bool b => decidable_of_iff (a = b) (by simp)
  | .int a, .int b => decidable_of_iff (a = b) (by simp)
  | .float a, .float b => decidable_of_iff (a = b) (by simp)
  | .str a, .str b => decidable_of_iff (a = b) (by simp)
  | .list a, .list b => @decidable_of_iff _ (a = b) (by simp) (decEqItems a b)
  | .dict a, .dict b => @decidable_of_iff _ (a = b) (by simp) (decEqEntries a b)
  | .null, .bool _ | .null, .int _ | .null, .float _ | .null, .str _ | .null, .list _
  | .null, .dict _ | .bool _, .null | .bool _, .int _ | .bool _, .float _ | .bool _, .str _
  | .bool _, .list _ | .bool _, .dict _ | .int _, .null | .int _, .bool _ | .int _, .float _
  | .int _, .str _ | .int _, .list _ | .int _, .dict _ | .float _, .null | .float _, .bool _
  | .float _, .int _ | .float _, .str _ | .float _, .list _ | .float _, .dict _ | .str _, .null
  | .str _, .bool _ | .str _, .int _ | .str _, .float _ | .str _, .list _ | .str _, .dict _
  | .list _, .null | .list _, .bool _ | .list _, .int _ | .list _, .float _ | .list _, .str _
  | .list _, .dict _ | .dict _, .null | .dict _, .bool _ | .dict _, .int _ | .dict _, .float _
  | .dict _, .str _ | .dict _, .list _ => isFalse (by simp)

/-- Equality of lists of values. -/
def decEqItems : (left right : List Json) → Decidable (left = right)
  | [], [] => isTrue rfl
  | [], _ :: _ => isFalse (by simp)
  | _ :: _, [] => isFalse (by simp)
  | a :: as, b :: bs =>
    match decEq a b with
    | isFalse differ => isFalse (by simp [differ])
    | isTrue same => @decidable_of_iff _ (as = bs) (by simp [same]) (decEqItems as bs)

/-- Equality of lists of entries. -/
def decEqEntries : (left right : List (PyStr × Json)) → Decidable (left = right)
  | [], [] => isTrue rfl
  | [], _ :: _ => isFalse (by simp)
  | _ :: _, [] => isFalse (by simp)
  | (k, a) :: as, (l, b) :: bs =>
    match decEq a b with
    | isFalse differ => isFalse (by simp [differ])
    | isTrue same =>
      match (inferInstance : Decidable (k = l)) with
      | isFalse differ => isFalse (by simp [differ])
      | isTrue key =>
        @decidable_of_iff _ (as = bs) (by simp [same, key]) (decEqEntries as bs)

end

instance : DecidableEq Json := decEq

end Json

namespace Dict

/-- `d.get(key)`, with an absent key told apart from a stored `None`. -/
def find? (d : Dict) (key : PyStr) : Option Json := d.lookup key

/-- `d.get(key)`. -/
def get (d : Dict) (key : PyStr) : Json := (d.lookup key).getD .null

/-- `d[key] = value`: a present key keeps its place, a new one goes last. -/
def set (d : Dict) (key : PyStr) (value : Json) : Dict :=
  match d with
  | [] => [(key, value)]
  | (k, v) :: rest => if k = key then (k, value) :: rest else (k, v) :: set rest key value

/-- `{**d, **e}`. -/
def merge (d e : Dict) : Dict := e.foldl (fun merged entry => merged.set entry.1 entry.2) d

/-- Lookup in a nonempty dictionary, by equality of the keys. -/
theorem lookup_cons (k other : PyStr) (v : Json) (rest : Dict) :
    List.lookup other ((k, v) :: rest) = if other = k then some v else rest.lookup other := by
  by_cases same : other = k
  · simp [same]
  · simp [List.lookup_cons, beq_false_of_ne same, same]

theorem lookup_set (d : Dict) (key other : PyStr) (value : Json) :
    (d.set key value).lookup other = if other = key then some value else d.lookup other := by
  induction d with
  | nil => simp only [set, lookup_cons]
  | cons entry rest inductionHypothesis =>
    obtain ⟨k, v⟩ := entry
    by_cases here : k = key
    · subst here
      simp only [set, if_true, lookup_cons]
      split <;> rfl
    · simp only [set, if_neg here, lookup_cons, inductionHypothesis]
      by_cases same : other = k
      · simp [same, here]
      · simp [same]

/-- Assignment is read back, and leaves the other keys alone. -/
@[simp] theorem get_set (d : Dict) (key other : PyStr) (value : Json) :
    (d.set key value).get other = if other = key then value else d.get other := by
  simp only [get, lookup_set]
  split <;> rfl

/-- A new key goes last. -/
theorem set_fresh {d : Dict} {key : PyStr} (value : Json) (fresh : key ∉ d.map Prod.fst) :
    d.set key value = d ++ [(key, value)] := by
  induction d with
  | nil => rfl
  | cons entry rest inductionHypothesis =>
    simp only [List.map_cons, List.mem_cons, not_or] at fresh
    rw [set, if_neg (Ne.symm fresh.1), inductionHypothesis fresh.2, List.cons_append]

/-- Dictionaries without a common key are joined. -/
theorem merge_fresh (d e : Dict) (distinct : (d.map Prod.fst ++ e.map Prod.fst).Nodup) :
    d.merge e = d ++ e := by
  induction e generalizing d with
  | nil => simp [merge]
  | cons entry rest inductionHypothesis =>
    obtain ⟨-, -, apart⟩ := List.nodup_append.mp distinct
    have fresh : entry.1 ∉ d.map Prod.fst := by
      intro member
      exact apart _ member _ List.mem_cons_self rfl
    have joined := inductionHypothesis (d ++ [entry]) (by simpa using distinct)
    rw [merge] at joined ⊢
    rw [List.foldl_cons, set_fresh _ fresh, joined]
    simp

end Dict

end RcaBackend
