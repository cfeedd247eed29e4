import RcaBackend.ContractRows
import RcaBackend.TextEncoding

/-!
# `json.dumps`

`json.dump(payload, f, ensure_ascii=False)` writes items after `", "` and values after
`": "`, strings as `model_dump_json` does. An integer that is too long for `str` raises.
Whether a value can be written, and which characters its text has, is told from the values
inside it.
-/

namespace RcaBackend

open Attempts

section Dumps

variable (F : Type) [PyFloat F]

/-- A float, with the names that JSON lacks. -/
def jsonFloat (x : F) : PyStr :=
  if !PyFloat.eq x x then py "NaN"
  else if PyFloat.eq x (PyFloat.ofLit (.infinity false)) then py "Infinity"
  else if PyFloat.eq x (PyFloat.ofLit (.infinity true)) then py "-Infinity"
  else PyFloat.text x

mutual

/-- `json.dumps(value, ensure_ascii=False)` -/
def dumps : Json → Except PyExc PyStr
  | .null => .ok (py "null")
  | .bool value => .ok (if value then py "true" else py "false")
  | .int value =>
    if (natText value.natAbs).length ≤ JsonLoads.maxStrDigits then .ok (intText value)
    else .error .valueError
  | .float literal => .ok (jsonFloat F (PyFloat.ofLit literal))
  | .str text => .ok (quoted text)
  | .list [] => .ok (py "[]")
  | .list (first :: rest) => do return 91 :: ((← dumps first) ++ (← dumpsItems rest))
  | .dict [] => .ok (py "\x7b\x7d")
  | .dict ((key, first) :: rest) => do
    return 123 :: (quoted key ++ 58 :: 32 :: ((← dumps first) ++ (← dumpsEntries rest)))

/-- The items after the first one, and the closing bracket. -/
def dumpsItems : List Json → Except PyExc PyStr
  | [] => .ok [93]
  | item :: rest => do return 44 :: 32 :: ((← dumps item) ++ (← dumpsItems rest))

/-- The entries after the first one, and the closing brace. -/
def dumpsEntries : List (PyStr × Json) → Except PyExc PyStr
  | [] => .ok [125]
  | (key, value) :: rest => do
    return 44 :: 32 :: (quoted key ++ 58 :: 32 :: ((← dumps value) ++ (← dumpsEntries rest)))

end

end Dumps

/-! ## The parts of a text -/

section Parts

variable (F : Type) [PyFloat F]

/-- Two attempts in a row succeed where both do, with what is made of their values. -/
theorem both_ok_iff {α β γ : Type} {first : Except PyExc α} {second : Except PyExc β}
    {f : α → β → γ} {result : γ} :
    (first >>= fun a => second >>= fun b => pure (f a b)) = .ok result ↔
      ∃ a b, first = .ok a ∧ second = .ok b ∧ result = f a b := by
  cases first <;> cases second <;> simp [bind, Except.bind, pure, Except.pure, eq_comm]

/-- Two attempts in a row return where both do. -/
theorem returns_both {α β γ : Type} {first : Except PyExc α} {second : Except PyExc β}
    {f : α → β → γ} :
    Returns (first >>= fun a => second >>= fun b => pure (f a b)) ↔
      Returns first ∧ Returns second := by
  cases first <;> cases second <;> simp [bind, Except.bind, pure, Except.pure]

variable {first : Json} {rest : List Json} {key text : PyStr} {more : List (PyStr × Json)}

/-- The text of a list that begins with this item. -/
theorem dumps_list_cons : dumps F (.list (first :: rest)) = .ok text ↔
    ∃ one others, dumps F first = .ok one ∧ dumpsItems F rest = .ok others ∧
      text = 91 :: (one ++ others) := by
  rw [dumps, both_ok_iff]

/-- The text of the later items of a list. -/
theorem dumpsItems_cons : dumpsItems F (first :: rest) = .ok text ↔
    ∃ one others, dumps F first = .ok one ∧ dumpsItems F rest = .ok others ∧
      text = 44 :: 32 :: (one ++ others) := by
  rw [dumpsItems, both_ok_iff]

/-- The text of an object that begins with this entry. -/
theorem dumps_dict_cons : dumps F (.dict ((key, first) :: more)) = .ok text ↔
    ∃ one others, dumps F first = .ok one ∧ dumpsEntries F more = .ok others ∧
      text = 123 :: (quoted key ++ 58 :: 32 :: (one ++ others)) := by
  rw [dumps, both_ok_iff]

/-- The text of the later entries of an object. -/
theorem dumpsEntries_cons : dumpsEntries F ((key, first) :: more) = .ok text ↔
    ∃ one others, dumps F first = .ok one ∧ dumpsEntries F more = .ok others ∧
      text = 44 :: 32 :: (quoted key ++ 58 :: 32 :: (one ++ others)) := by
  rw [dumpsEntries, both_ok_iff]

end Parts

/-! ## Values that can be written and read -/

namespace Json

mutual

/-- The lists and dictionaries inside each other. -/
def nesting : Json → Nat
  | .list items => nestingItems items + 1
  | .dict entries => nestingEntries entries + 1
  | .null | .bool _ | .int _ | .float _ | .str _ => 0

/-- The deepest nesting among the items. -/
def nestingItems : List Json → Nat
  | [] => 0
  | item :: rest => max (nesting item) (nestingItems rest)

/-- The deepest nesting among the values of the entries. -/
def nestingEntries : List (PyStr × Json) → Nat
  | [] => 0
  | (_, value) :: rest => max (nesting value) (nestingEntries rest)

end

mutual

/-- The value and every value inside it pass. -/
def everywhere (p : Json → Bool) : Json → Bool
  | .list items => p (.list items) && everywhereItems p items
  | .dict entries => p (.dict entries) && everywhereEntries p entries
  | .null => p .null
  | .bool value => p (.bool value)
  | .int value => p (.int value)
  | .float literal => p (.float literal)
  | .str text => p (.str text)

/-- The property holds in every item. -/
def everywhereItems (p : Json → Bool) : List Json → Bool
  | [] => true
  | item :: rest => everywhere p item && everywhereItems p rest

/-- The property holds in the value of every entry. -/
def everywhereEntries (p : Json → Bool) : List (PyStr × Json) → Bool
  | [] => true
  | (_, value) :: rest => everywhere p value && everywhereEntries p rest

end

/-- A value without floats and without repeated keys. -/
def storable (value : Json) : Bool := value.everywhere fun
  | .float _ => false
  | .dict entries => decide (entries.map Prod.fst).Nodup
  | _ => true

/-- A value whose integers `str` converts. -/
def writable (value : Json) : Bool := value.everywhere fun
  | .int value => decide ((natText value.natAbs).length ≤ JsonLoads.maxStrDigits)
  | _ => true

/-- A value whose strings and keys have only such characters. -/
def spelled (P : Nat → Prop) [DecidablePred P] (value : Json) : Bool := value.everywhere fun
  | .str text => decide (∀ c ∈ text, P c)
  | .dict entries => decide (∀ entry ∈ entries, ∀ c ∈ entry.1, P c)
  | _ => true

/-- An item is nested no deeper than all items. -/
theorem nesting_item {items : List Json} {item : Json} (member : item ∈ items) :
    item.nesting ≤ nestingItems items := by
  induction items with
  | nil => cases member
  | cons first rest inductionHypothesis =>
    rw [nestingItems]
    rcases List.mem_cons.mp member with rfl | later
    · exact Nat.le_max_left _ _
    · exact Nat.le_trans (inductionHypothesis later) (Nat.le_max_right _ _)

/-- The value of an entry is nested no deeper than all entries. -/
theorem nesting_entry {entries : List (PyStr × Json)} {entry : PyStr × Json}
    (member : entry ∈ entries) : entry.2.nesting ≤ nestingEntries entries := by
  induction entries with
  | nil => cases member
  | cons first rest inductionHypothesis =>
    rw [nestingEntries]
    rcases List.mem_cons.mp member with rfl | later
    · exact Nat.le_max_left _ _
    · exact Nat.le_trans (inductionHypothesis later) (Nat.le_max_right _ _)

/-- A property holds everywhere in a list where it holds of the list and everywhere in its
items. -/
theorem everywhere_list (p : Json → Bool) (items : List Json) :
    everywhere p (.list items) = true ↔
      p (.list items) = true ∧ ∀ item ∈ items, everywhere p item = true := by
  have inside : everywhereItems p items = true ↔ ∀ item ∈ items, everywhere p item = true := by
    induction items with
    | nil => simp [everywhereItems]
    | cons first rest inductionHypothesis =>
      rw [everywhereItems, List.forall_mem_cons, Bool.and_eq_true, inductionHypothesis]
  rw [everywhere, Bool.and_eq_true, inside]

/-- A property holds everywhere in an object where it holds of the object and everywhere in its
values. -/
theorem everywhere_dict (p : Json → Bool) (entries : List (PyStr × Json)) :
    everywhere p (.dict entries) = true ↔
      p (.dict entries) = true ∧ ∀ entry ∈ entries, everywhere p entry.2 = true := by
  have inside : everywhereEntries p entries = true ↔
      ∀ entry ∈ entries, everywhere p entry.2 = true := by
    induction entries with
    | nil => simp [everywhereEntries]
    | cons first rest inductionHypothesis =>
      rw [everywhereEntries, List.forall_mem_cons, Bool.and_eq_true, inductionHypothesis]
  rw [everywhere, Bool.and_eq_true, inside]

mutual

/-- A property of all values holds everywhere in each. -/
theorem everywhere_of_all (p : Json → Bool) (all : ∀ value, p value = true) :
    ∀ value, everywhere p value = true
  | .null | .bool _ | .int _ | .float _ | .str _ => by simp [everywhere, all]
  | .list items => by simp [everywhere, all, everywhereItems_of_all p all items]
  | .dict entries => by simp [everywhere, all, everywhereEntries_of_all p all entries]

/-- And everywhere in a list of values. -/
theorem everywhereItems_of_all (p : Json → Bool) (all : ∀ value, p value = true) :
    ∀ items, everywhereItems p items = true
  | [] => rfl
  | item :: rest => by
    simp [everywhereItems, everywhere_of_all p all item, everywhereItems_of_all p all rest]

/-- And everywhere in the values of entries. -/
theorem everywhereEntries_of_all (p : Json → Bool) (all : ∀ value, p value = true) :
    ∀ entries, everywhereEntries p entries = true
  | [] => rfl
  | (_, value) :: rest => by
    simp [everywhereEntries, everywhere_of_all p all value, everywhereEntries_of_all p all rest]

end

/-- A list can be stored where its items can be. -/
theorem storable_list (items : List Json) :
    storable (.list items) = true ↔ ∀ item ∈ items, item.storable = true := by
  rw [storable, everywhere_list]
  simp [storable]

/-- An object can be stored where its keys differ and its values can be. -/
theorem storable_dict (entries : List (PyStr × Json)) :
    storable (.dict entries) = true ↔
      (entries.map Prod.fst).Nodup ∧ ∀ entry ∈ entries, entry.2.storable = true := by
  rw [storable, everywhere_dict]
  simp [storable]

end Json

/-! ## What can be written -/

section Written

variable (F : Type) [PyFloat F]

/-- A list can be written where its items can be. -/
theorem writable_list (items : List Json) :
    Json.writable (.list items) = true ↔ ∀ item ∈ items, item.writable = true := by
  rw [Json.writable, Json.everywhere_list]
  simp [Json.writable]

/-- An object can be written where its values can be. -/
theorem writable_dict (entries : List (PyStr × Json)) :
    Json.writable (.dict entries) = true ↔ ∀ entry ∈ entries, entry.2.writable = true := by
  rw [Json.writable, Json.everywhere_dict]
  simp [Json.writable]

mutual

/-- A value has a text exactly if its integers have one. -/
theorem returns_dumps_iff : ∀ value, Returns (dumps F value) ↔ value.writable = true
  | .null | .bool _ | .float _ | .str _ => by simp [dumps, Json.writable, Json.everywhere]
  | .int value => by
    rw [dumps]
    split <;> simp_all [Json.writable, Json.everywhere]
  | .list [] => by simp [dumps, Json.writable, Json.everywhere, Json.everywhereItems]
  | .list (first :: rest) => by
    have others := returns_dumpsItems_iff rest
    rw [dumps, returns_both, returns_dumps_iff first, others, writable_list, List.forall_mem_cons]
  | .dict [] => by simp [dumps, Json.writable, Json.everywhere, Json.everywhereEntries]
  | .dict ((key, first) :: rest) => by
    have others := returns_dumpsEntries_iff rest
    rw [dumps, returns_both, returns_dumps_iff first, others, writable_dict, List.forall_mem_cons]

/-- Items are dumped where each of them can be written. -/
theorem returns_dumpsItems_iff : ∀ items : List Json,
    Returns (dumpsItems F items) ↔ ∀ item ∈ items, item.writable = true
  | [] => by simp [dumpsItems]
  | item :: rest => by
    have others := returns_dumpsItems_iff rest
    rw [dumpsItems, returns_both, returns_dumps_iff item, others, List.forall_mem_cons]

/-- Entries are dumped where each of their values can be written. -/
theorem returns_dumpsEntries_iff : ∀ entries : List (PyStr × Json),
    Returns (dumpsEntries F entries) ↔ ∀ entry ∈ entries, entry.2.writable = true
  | [] => by simp [dumpsEntries]
  | (key, value) :: rest => by
    have others := returns_dumpsEntries_iff rest
    rw [dumpsEntries, returns_both, returns_dumps_iff value, others, List.forall_mem_cons]

end

/-! ### The characters of the text -/

section Characters

variable (P : Nat → Prop) [DecidablePred P]

omit [PyFloat F] in
/-- A list is spelled with these characters where its items are. -/
theorem spelled_list (items : List Json) :
    Json.spelled P (.list items) = true ↔ ∀ item ∈ items, item.spelled P = true := by
  rw [Json.spelled, Json.everywhere_list]
  simp [Json.spelled]

omit [PyFloat F] in
/-- An object is spelled with these characters where its keys and values are. -/
theorem spelled_dict (entries : List (PyStr × Json)) :
    Json.spelled P (.dict entries) = true ↔
      ∀ entry ∈ entries, (∀ c ∈ entry.1, P c) ∧ entry.2.spelled P = true := by
  rw [Json.spelled, Json.everywhere_dict, decide_eq_true_iff, ← forall₂_and]
  rfl

variable (visible : ∀ c, 32 ≤ c → c < 128 → P c)

include visible

omit [PyFloat F] [DecidablePred P] in
/-- What stands for a control character in a string is visible. -/
theorem escaped_chars (c : Nat) : (∀ d ∈ escaped c, P d) ↔ c < 32 ∨ P c := by
  have letter : ∀ digit < 16, 32 ≤ hexLetter digit ∧ hexLetter digit < 128 := by decide
  fun_cases escaped c with
  | case1 | case2 => 
    subst_vars
    simp [visible]
  | case3 | case4 | case5 | case6 | case7 =>
    subst_vars
    simp [visible]
  | case8 =>
    have control : c < 32 := by assumption
    have high := letter (c / 16) (by omega)
    have low := letter (c % 16) (by omega)
    simp [control, visible, high, low]
  | case9 _ _ _ _ _ _ _ above => simp [above]

omit [PyFloat F] [DecidablePred P] in
/-- A quoted text has these characters where the text has them or control characters. -/
theorem quoted_chars (text : PyStr) :
    (∀ c ∈ quoted text, P c) ↔ ∀ c ∈ text, c < 32 ∨ P c := by
  have inside : (∀ c ∈ text.flatMap escaped, P c) ↔ ∀ c ∈ text, c < 32 ∨ P c := by
    induction text with
    | nil => simp
    | cons first rest inductionHypothesis =>
      rw [List.flatMap_cons, List.forall_mem_append, List.forall_mem_cons,
        escaped_chars P visible, inductionHypothesis]
  rw [quoted, List.forall_mem_cons, List.forall_mem_append, inside]
  simp [visible]

mutual

/-- The text of a value has only such characters exactly if its strings do, apart from control
characters. -/
theorem dumps_chars : ∀ (value : Json) (text : PyStr), value.storable = true →
    dumps F value = .ok text → ((∀ c ∈ text, P c) ↔ value.spelled (fun c => c < 32 ∨ P c) = true)
  | .null, text, _, written => by
    obtain rfl := Except.ok.inj written
    simp [py, visible, Json.spelled, Json.everywhere]
  | .bool value, text, _, written => by
    obtain rfl := Except.ok.inj written
    cases value <;> simp [py, visible, Json.spelled, Json.everywhere]
  | .int value, text, _, written => by
    rw [dumps] at written
    split at written
    · obtain rfl := Except.ok.inj written
      refine iff_of_true ?_ rfl
      intro c member
      have plain := intText_plain member
      exact visible c (by have := plain.1; omega) plain.2.1
    · cases written
  | .float literal, text, storable, _ => by simp [Json.storable, Json.everywhere] at storable
  | .str text, written, _, same => by
    obtain rfl := Except.ok.inj same
    rw [quoted_chars P visible]
    simp [Json.spelled, Json.everywhere]
  | .list [], text, _, written => by
    obtain rfl := Except.ok.inj written
    simp [py, visible, Json.spelled, Json.everywhere, Json.everywhereItems]
  | .list (first :: rest), text, storable, written => by
    obtain ⟨firstStorable, restStorable⟩ :=
      List.forall_mem_cons.mp ((Json.storable_list _).mp storable)
    obtain ⟨one, more, writtenOne, writtenMore, rfl⟩ := (dumps_list_cons F).mp written
    have inside := dumps_chars first one firstStorable writtenOne
    have others := dumpsItems_chars rest more restStorable writtenMore
    rw [spelled_list, List.forall_mem_cons, List.forall_mem_cons, List.forall_mem_append, inside,
      others]
    simp [visible]
  | .dict [], text, _, written => by
    obtain rfl := Except.ok.inj written
    simp [py, visible, Json.spelled, Json.everywhere, Json.everywhereEntries]
  | .dict ((key, first) :: rest), text, storable, written => by
    obtain ⟨firstStorable, restStorable⟩ :=
      List.forall_mem_cons.mp ((Json.storable_dict _).mp storable).2
    obtain ⟨one, more, writtenOne, writtenMore, rfl⟩ := (dumps_dict_cons F).mp written
    have inside := dumps_chars first one firstStorable writtenOne
    have others := dumpsEntries_chars rest more restStorable writtenMore
    rw [spelled_dict, List.forall_mem_cons, List.forall_mem_cons, List.forall_mem_append,
      quoted_chars P visible, List.forall_mem_cons, List.forall_mem_cons, List.forall_mem_append, inside, others]
    simp [visible, and_assoc]

/-- The characters of the text of the later items. -/
theorem dumpsItems_chars : ∀ (items : List Json) (text : PyStr),
    (∀ item ∈ items, item.storable = true) → dumpsItems F items = .ok text →
      ((∀ c ∈ text, P c) ↔
        ∀ item ∈ items, item.spelled (fun c => c < 32 ∨ P c) = true)
  | [], text, _, written => by
    obtain rfl := Except.ok.inj written
    simp [visible]
  | item :: rest, text, storable, written => by
    obtain ⟨firstStorable, restStorable⟩ := List.forall_mem_cons.mp storable
    obtain ⟨one, more, writtenOne, writtenMore, rfl⟩ := (dumpsItems_cons F).mp written
    have inside := dumps_chars item one firstStorable writtenOne
    have others := dumpsItems_chars rest more restStorable writtenMore
    rw [List.forall_mem_cons, List.forall_mem_cons, List.forall_mem_append, List.forall_mem_cons,
      inside, others]
    simp [visible]

/-- The characters of the text of the later entries. -/
theorem dumpsEntries_chars : ∀ (entries : List (PyStr × Json)) (text : PyStr),
    (∀ entry ∈ entries, entry.2.storable = true) → dumpsEntries F entries = .ok text →
      ((∀ c ∈ text, P c) ↔ ∀ entry ∈ entries, (∀ c ∈ entry.1, c < 32 ∨ P c) ∧
        entry.2.spelled (fun c => c < 32 ∨ P c) = true)
  | [], text, _, written => by
    obtain rfl := Except.ok.inj written
    simp [visible]
  | (key, value) :: rest, text, storable, written => by
    obtain ⟨firstStorable, restStorable⟩ := List.forall_mem_cons.mp storable
    obtain ⟨one, more, writtenOne, writtenMore, rfl⟩ := (dumpsEntries_cons F).mp written
    have inside := dumps_chars value one firstStorable writtenOne
    have others := dumpsEntries_chars rest more restStorable writtenMore
    rw [List.forall_mem_cons, List.forall_mem_cons, List.forall_mem_append, quoted_chars P visible,
      List.forall_mem_cons, List.forall_mem_cons, List.forall_mem_append, List.forall_mem_cons,
      inside, others]
    simp [visible, and_assoc]

end

end Characters

end Written

end RcaBackend
