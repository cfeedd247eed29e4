import RcaBackend.JsonDumps

/-!
# `json.loads` of `json.dumps`

A value without floats whose dictionaries repeat no key is read back from its text by a
scanner that goes as deep as the value. The floats are left out, since a literal is written
by the `repr` of its binary64 number.
-/

namespace RcaBackend

open Attempts

namespace JsonLoads

/-- What may follow a value: nothing, a comma, or a closing bracket or brace. -/
def Ends (rest : PyStr) : Prop :=
  rest = [] ∨ ∃ c after, rest = c :: after ∧ (c = 44 ∨ c = 93 ∨ c = 125)

variable {rest : PyStr}

/-- The digits of a number end where it ends. -/
theorem leadingDigits_ends (n : Nat) (ends : Ends rest) :
    leadingDigits (natText n ++ rest) = (natText n, rest) := by
  obtain rfl | ⟨c, after, rfl, kind⟩ := ends
  · rw [List.append_nil]
    exact leadingDigits_natText_end n
  · apply leadingDigits_natText
    obtain rfl | rfl | rfl := kind <;> rfl

theorem wholeDigits_ends (n : Nat) (ends : Ends rest) :
    wholeDigits (natText n ++ rest) = (natText n, rest) := by
  rcases Nat.eq_zero_or_pos n with rfl | positive
  · rfl
  · have first := natText_head positive
    rw [← leadingDigits_ends n ends]
    cases digits : natText n with
    | nil => exact absurd digits (natText_ne_nil n)
    | cons digit others =>
      have nonzero : ¬ digit = 48 := by simpa [digits] using first
      simp [wholeDigits, nonzero]

/-- Neither a fraction nor an exponent begins where a value ends. -/
theorem fractionDigits_ends (ends : Ends rest) :
    fractionDigits rest = ([], rest) ∧ exponentPart rest = none := by
  obtain rfl | ⟨c, after, rfl, rfl | rfl | rfl⟩ := ends
  · exact ⟨rfl, rfl⟩
  · exact ⟨rfl, by simp [exponentPart]⟩
  · exact ⟨rfl, by simp [exponentPart]⟩
  · exact ⟨rfl, by simp [exponentPart]⟩

theorem scanUnsigned_ends (negative : Bool) (n : Nat) (short : (natText n).length ≤ maxStrDigits)
    (ends : Ends rest) :
    scanUnsigned negative (natText n ++ rest) =
      .ok (.int (if negative then -(n : Int) else n), rest) := by
  obtain ⟨fraction, exponent⟩ := fractionDigits_ends ends
  simp only [scanUnsigned, wholeDigits_ends n ends, fraction, exponent]
  rw [if_neg (natText_ne_nil n), if_neg (by simp), if_neg (by omega), digitsValue_natText]

/-- An integer is read back from its text, up to where it ends. -/
theorem scanScalar_int (value : Int) (short : (natText value.natAbs).length ≤ maxStrDigits)
    (ends : Ends rest) : scanScalar (intText value ++ rest) = .ok (.int value, rest) := by
  obtain ⟨digit, others, digits, low, high⟩ := natText_cons value.natAbs
  have plain := scanScalar_digits (others ++ rest) low high
  rw [← List.cons_append, ← digits] at plain
  cases value with
  | ofNat n => exact plain.1.trans (scanUnsigned_ends false n short ends)
  | negSucc n => exact plain.2.trans (scanUnsigned_ends true (n + 1) short ends)

variable (F : Type) [PyFloat F]

/-- The value is read back from its text wherever the text ends. -/
def ReadsBack (depth : Nat) (value : Json) : Prop :=
  ∀ text, dumps F value = .ok text → ∀ rest, Ends rest →
    scanValue depth (text ++ rest) = .ok (value, rest)

/-- A value begins in ASCII, neither with a blank nor with a closing bracket. -/
theorem dumps_head {value : Json} {text : PyStr} (storable : value.storable = true)
    (written : dumps F value = .ok text) :
    ∃ c after, text = c :: after ∧ isBlank c = false ∧ c ≠ 93 ∧ c < 128 := by
  cases value with
  | null =>
    obtain rfl := Except.ok.inj written
    exact ⟨110, _, rfl, rfl, by decide, by decide⟩
  | bool value =>
    obtain rfl := Except.ok.inj written
    cases value with
    | true => exact ⟨116, _, rfl, rfl, by decide, by decide⟩
    | false => exact ⟨102, _, rfl, rfl, by decide, by decide⟩
  | int value =>
    rw [dumps] at written
    split at written
    · obtain rfl := Except.ok.inj written
      obtain ⟨first, others, shape, kind⟩ := intText_cons value
      refine ⟨first, others, shape, ?_, by omega, by omega⟩
      simp only [isBlank, Bool.or_eq_false_iff, decide_eq_false_iff_not]
      omega
    · cases written
  | float literal => simp [Json.storable, Json.everywhere] at storable
  | str text =>
    obtain rfl := Except.ok.inj written
    exact ⟨34, _, rfl, rfl, by decide, by decide⟩
  | list items =>
    cases items with
    | nil =>
      obtain rfl := Except.ok.inj written
      exact ⟨91, _, rfl, rfl, by decide, by decide⟩
    | cons first rest =>
      obtain ⟨one, more, -, -, rfl⟩ := (dumps_list_cons F).mp written
      exact ⟨91, _, rfl, rfl, by decide, by decide⟩
  | dict entries =>
    cases entries with
    | nil =>
      obtain rfl := Except.ok.inj written
      exact ⟨123, _, rfl, rfl, by decide, by decide⟩
    | cons entry rest =>
      obtain ⟨one, more, -, -, rfl⟩ := (dumps_dict_cons F).mp written
      exact ⟨123, _, rfl, rfl, by decide, by decide⟩

theorem skipBlanks_dumps {value : Json} {text : PyStr} (storable : value.storable = true)
    (written : dumps F value = .ok text) (rest : PyStr) :
    skipBlanks (text ++ rest) = text ++ rest := by
  obtain ⟨c, after, rfl, visible, -, -⟩ := dumps_head F storable written
  exact skipBlanks_cons _ visible

/-- The items of a list are read back one after the other. -/
theorem scanItems_dumps {depth : Nat} (items : List Json) {first : Json}
    (storable : ∀ value ∈ first :: items, value.storable = true)
    (reads : ∀ value ∈ first :: items, ReadsBack F depth value) {text texts : PyStr}
    (written : dumps F first = .ok text) (others : dumpsItems F items = .ok texts) {fuel : Nat}
    (enough : items.length < fuel) (rest : PyStr) :
    scanItems (scanValue depth) fuel (text ++ (texts ++ rest)) = .ok (first :: items, rest) := by
  induction items generalizing first text texts fuel with
  | nil =>
    obtain ⟨fuel, rfl⟩ := Nat.exists_eq_succ_of_ne_zero (Nat.ne_of_gt (Nat.zero_lt_of_lt enough))
    obtain rfl := Except.ok.inj others
    have read := reads first List.mem_cons_self text written ([93] ++ rest)
      (Or.inr ⟨93, rest, rfl, Or.inr (Or.inl rfl)⟩)
    rw [scanItems, read]
    simp only [bind, Except.bind]
    rw [List.singleton_append, skipBlanks_cons (c := 93) _ rfl]
    rfl
  | cons item items inductionHypothesis =>
    obtain ⟨fuel, rfl⟩ := Nat.exists_eq_succ_of_ne_zero (Nat.ne_of_gt (Nat.zero_lt_of_lt enough))
    obtain ⟨one, more, writtenOne, writtenMore, rfl⟩ := (dumpsItems_cons F).mp others
    have read := reads first List.mem_cons_self text written
      (44 :: 32 :: (one ++ more) ++ rest) (Or.inr ⟨44, _, rfl, Or.inl rfl⟩)
    have later := inductionHypothesis
      (fun value member => storable value (List.mem_cons_of_mem _ member))
      (fun value member => reads value (List.mem_cons_of_mem _ member)) writtenOne writtenMore
      (Nat.lt_of_succ_lt_succ enough)
    have blank : skipBlanks (32 :: (one ++ (more ++ rest))) = one ++ (more ++ rest) :=
      skipBlanks_dumps F (storable item (by simp)) writtenOne _
    rw [scanItems, read]
    simp only [bind, Except.bind, List.cons_append, List.append_assoc]
    rw [skipBlanks_cons (c := 44) _ rfl]
    simp only [blank, later]

/-- One entry is read back, up to the comma or brace after it. -/
theorem scanEntries_entry {depth : Nat} (fuel : Nat) (done : Dict) (key : PyStr) {value : Json}
    (storable : value.storable = true) (reads : ReadsBack F depth value) {text : PyStr}
    (written : dumps F value = .ok text) {c : Nat} (rest : PyStr) (follows : Follows c) :
    scanEntries (scanValue depth) (fuel + 1) done (quoted key ++ 58 :: 32 :: (text ++ c :: rest)) =
      if c = 125 then .ok (done.set key value, rest)
      else scanEntries (scanValue depth) fuel (done.set key value) (skipBlanks rest) := by
  obtain ⟨after, opened, scanned⟩ := scanString_quoted key (58 :: 32 :: (text ++ c :: rest))
  have read := reads text written (c :: rest)
    (Or.inr ⟨c, rest, rfl, follows.imp_right fun same => Or.inr same⟩)
  have blank : skipBlanks (32 :: (text ++ c :: rest)) = text ++ c :: rest :=
    skipBlanks_dumps F storable written _
  rw [opened, scanEntries, scanned]
  simp only [bind, Except.bind]
  rw [skipBlanks_cons (c := 58) _ rfl]
  simp only [blank, read]
  obtain rfl | rfl := follows
  · rw [skipBlanks_cons (c := 44) _ rfl]
    rfl
  · rw [skipBlanks_cons (c := 125) _ rfl]
    rfl

theorem skipBlanks_quoted (key rest : PyStr) :
    skipBlanks (32 :: (quoted key ++ rest)) = quoted key ++ rest := by
  have blank : skipBlanks (32 :: (quoted key ++ rest)) = skipBlanks (quoted key ++ rest) := rfl
  rw [blank]
  exact skipBlanks_cons _ rfl

/-- The entries of a dictionary are read back one after the other. -/
theorem scanEntries_dumps {depth : Nat} (entries : List (PyStr × Json)) {key : PyStr} {first : Json}
    (storable : ∀ entry ∈ (key, first) :: entries, entry.2.storable = true)
    (reads : ∀ entry ∈ (key, first) :: entries, ReadsBack F depth entry.2) {text texts : PyStr}
    (written : dumps F first = .ok text) (others : dumpsEntries F entries = .ok texts) {fuel : Nat}
    (enough : entries.length < fuel) (done : Dict) (rest : PyStr) :
    scanEntries (scanValue depth) fuel done (quoted key ++ 58 :: 32 :: (text ++ (texts ++ rest))) =
      .ok (Dict.merge done ((key, first) :: entries), rest) := by
  have firstStorable : first.storable = true := storable _ List.mem_cons_self
  have firstReads : ReadsBack F depth first := reads _ List.mem_cons_self
  obtain ⟨fuel, rfl⟩ := Nat.exists_eq_succ_of_ne_zero (Nat.ne_of_gt (Nat.zero_lt_of_lt enough))
  induction entries generalizing key first text texts fuel done with
  | nil =>
    obtain rfl := Except.ok.inj others
    rw [List.singleton_append,
      scanEntries_entry F fuel done key firstStorable firstReads written rest (Or.inr rfl)]
    rfl
  | cons entry entries inductionHypothesis =>
    obtain ⟨fuel, rfl⟩ := Nat.exists_eq_succ_of_ne_zero
      (Nat.ne_of_gt (Nat.zero_lt_of_lt (Nat.lt_of_succ_lt_succ enough)))
    obtain ⟨one, more, writtenOne, writtenMore, rfl⟩ := (dumpsEntries_cons F).mp others
    have rest_storable : ∀ later ∈ entry :: entries, later.2.storable = true := fun later member =>
      storable later (List.mem_cons_of_mem _ member)
    have rest_reads : ∀ later ∈ entry :: entries, ReadsBack F depth later.2 := fun later member =>
      reads later (List.mem_cons_of_mem _ member)
    have later := inductionHypothesis rest_storable rest_reads writtenOne writtenMore
      (done.set key first) (rest_storable entry List.mem_cons_self)
      (rest_reads entry List.mem_cons_self) fuel (Nat.lt_of_succ_lt_succ enough)
    rw [List.cons_append, scanEntries_entry F (fuel + 1) done key firstStorable firstReads written _
      (Or.inl rfl)]
    rw [if_neg (by decide), List.cons_append, List.append_assoc, skipBlanks_quoted]
    simp only [List.cons_append, List.append_assoc]
    exact later

theorem dumpsItems_length {items : List Json} {texts : PyStr}
    (written : dumpsItems F items = .ok texts) : items.length < texts.length := by
  induction items generalizing texts with
  | nil =>
    obtain rfl := Except.ok.inj written
    decide
  | cons item items inductionHypothesis =>
    obtain ⟨one, more, -, writtenMore, rfl⟩ := (dumpsItems_cons F).mp written
    have shorter := inductionHypothesis writtenMore
    simp only [List.length_cons, List.length_append]
    omega

theorem dumpsEntries_length {entries : List (PyStr × Json)} {texts : PyStr}
    (written : dumpsEntries F entries = .ok texts) : entries.length < texts.length := by
  induction entries generalizing texts with
  | nil =>
    obtain rfl := Except.ok.inj written
    decide
  | cons entry entries inductionHypothesis =>
    obtain ⟨one, more, -, writtenMore, rfl⟩ := (dumpsEntries_cons F).mp written
    have shorter := inductionHypothesis writtenMore
    simp only [List.length_cons, List.length_append]
    omega

/-- A list is read back if its items are. -/
theorem readsBack_list {depth : Nat} {items : List Json}
    (storable : ∀ value ∈ items, value.storable = true)
    (reads : ∀ value ∈ items, ReadsBack F depth value) :
    ReadsBack F (depth + 1) (.list items) := by
  intro text written rest ends
  cases items with
  | nil =>
    obtain rfl := Except.ok.inj written
    rfl
  | cons first items =>
    obtain ⟨one, more, writtenOne, writtenMore, rfl⟩ := (dumps_list_cons F).mp written
    obtain ⟨c, after, rfl, visible, opens, -⟩ :=
      dumps_head F (storable first List.mem_cons_self) writtenOne
    have enough : items.length < (c :: after ++ (more ++ rest)).length := by
      have long := dumpsItems_length F writtenMore
      simp only [List.length_append]
      omega
    have scanned := scanItems_dumps F items storable reads writtenOne writtenMore enough rest
    have opened : skipBlanks (c :: after ++ (more ++ rest)) = c :: after ++ (more ++ rest) :=
      skipBlanks_cons _ visible
    rw [List.cons_append, scanValue, scanList, List.append_assoc, opened]
    split
    · rename_i same
      exact absurd (List.cons.inj same).1 opens
    · rw [scanned]
      rfl

/-- A dictionary is read back if its values are and no key is repeated. -/
theorem readsBack_dict {depth : Nat} {entries : List (PyStr × Json)}
    (distinct : (entries.map Prod.fst).Nodup)
    (storable : ∀ entry ∈ entries, entry.2.storable = true)
    (reads : ∀ entry ∈ entries, ReadsBack F depth entry.2) :
    ReadsBack F (depth + 1) (.dict entries) := by
  intro text written rest ends
  cases entries with
  | nil =>
    obtain rfl := Except.ok.inj written
    rfl
  | cons entry entries =>
    obtain ⟨key, first⟩ := entry
    obtain ⟨one, more, writtenOne, writtenMore, rfl⟩ := (dumps_dict_cons F).mp written
    have enough : entries.length < (quoted key ++ 58 :: 32 :: (one ++ (more ++ rest))).length := by
      have long := dumpsEntries_length F writtenMore
      simp only [List.length_append, List.length_cons]
      omega
    have scanned := scanEntries_dumps F entries storable reads writtenOne writtenMore enough [] rest
    have opened : skipBlanks (quoted key ++ 58 :: 32 :: (one ++ (more ++ rest))) =
        quoted key ++ 58 :: 32 :: (one ++ (more ++ rest)) := skipBlanks_cons _ rfl
    have same := Dict.merge_fresh [] ((key, first) :: entries) (by simpa using distinct)
    simp only [List.cons_append, List.append_assoc]
    rw [scanValue, scanObject, opened]
    split
    · rename_i closed
      cases (List.cons.inj closed).1
    · rw [scanned, same]
      rfl

/-- What is neither a list nor a dictionary is read back at any depth. -/
theorem readsBack_scalar [PyRuntime] (depth : Nat) {value : Json} (storable : value.storable = true)
    (scalar : value.nesting = 0) : ReadsBack F depth value := by
  intro text written rest ends
  cases value with
  | null =>
    obtain rfl := Except.ok.inj written
    exact scanValue_scalar depth 110 _ (by decide)
  | bool value =>
    obtain rfl := Except.ok.inj written
    cases value with
    | true => exact scanValue_scalar depth 116 _ (by decide)
    | false => exact scanValue_scalar depth 102 _ (by decide)
  | int value =>
    rw [dumps] at written
    split at written
    · rename_i short
      obtain rfl := Except.ok.inj written
      have scanned := scanScalar_int value short ends
      obtain ⟨first, others, shape, kind⟩ := intText_cons value
      rw [shape, List.cons_append] at scanned ⊢
      rw [scanValue_scalar depth first _ (by omega), scanned]
    · cases written
  | float literal => simp [Json.storable, Json.everywhere] at storable
  | str text =>
    obtain rfl := Except.ok.inj written
    obtain ⟨after, opened, scanned⟩ := scanString_quoted text rest
    rw [opened]
    cases depth <;> simp [scanValue, scanned, Except.map]
  | list items => simp [Json.nesting] at scalar
  | dict entries => simp [Json.nesting] at scalar

/-- A value without floats and without repeated keys is read back from its text by a scanner
that goes deep enough. -/
theorem readsBack [PyRuntime] (depth : Nat) {value : Json} (storable : value.storable = true)
    (shallow : value.nesting ≤ depth) : ReadsBack F depth value := by
  induction depth generalizing value with
  | zero => exact readsBack_scalar F 0 storable (Nat.le_zero.mp shallow)
  | succ depth inductionHypothesis =>
    cases value with
    | list items =>
      have items_storable := (Json.storable_list items).mp storable
      apply readsBack_list F items_storable
      intro item member
      have inside := Json.nesting_item member
      rw [Json.nesting] at shallow
      exact inductionHypothesis (items_storable item member) (by omega)
    | dict entries =>
      obtain ⟨distinct, entries_storable⟩ := (Json.storable_dict entries).mp storable
      apply readsBack_dict F distinct entries_storable
      intro entry member
      have inside := Json.nesting_entry member
      rw [Json.nesting] at shallow
      exact inductionHypothesis (entries_storable entry member) (by omega)
    | null | bool _ | int _ | float _ | str _ => exact readsBack_scalar F _ storable rfl

end JsonLoads

open JsonLoads in
/-- What `json.dumps` writes, `json.loads` reads. -/
theorem loads_dumps (F : Type) [PyFloat F] [PyRuntime] {value : Json} {text : PyStr}
    (storable : value.storable = true) (shallow : value.nesting ≤ PyRuntime.recursionLimit)
    (written : dumps F value = .ok text) : loads text = .ok value := by
  have read := readsBack F PyRuntime.recursionLimit storable shallow text written [] (Or.inl rfl)
  have opened := skipBlanks_dumps F storable written []
  obtain ⟨c, after, rfl, -, -, ascii⟩ := dumps_head F storable written
  have unmarked : (c :: after).head? ≠ some 0xFEFF := by
    simp only [List.head?_cons, ne_eq, Option.some.injEq]
    omega
  rw [List.append_nil] at read opened
  rw [loads, if_neg unmarked, opened, read]
  rfl

end RcaBackend
