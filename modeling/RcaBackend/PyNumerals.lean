import RcaBackend.PyRuntime
import Mathlib.Data.List.TakeWhile

/-!
# Numbers and their texts

`str(n)` writes an integer in decimal digits without leading zeros, and `float` reads
such a text, with or without an exponent, as the number that was written. The laws
of the interpreter that later results need are stated once, for the tables of Unicode
and for binary64 numbers.
-/

namespace RcaBackend

/-! ## Decimal digits -/

/-- A number has a digit. -/
theorem natText_ne_nil (n : Nat) : natText n ≠ [] := by
  intro none
  exact Nat.toDigits_ne_nil (List.map_eq_nil_iff.mp none)

/-- A number is written in ASCII digits. -/
theorem natText_digits {n c : Nat} (member : c ∈ natText n) : isAsciiDigit c = true := by
  obtain ⟨digit, listed, rfl⟩ := List.mem_map.mp member
  have bounds := Nat.isDigit_of_mem_toDigits (by decide) (by decide) listed
  simp only [Char.isDigit, Bool.and_eq_true, decide_eq_true_eq, UInt32.le_iff_toNat_le] at bounds
  simp only [isAsciiDigit, Bool.and_eq_true, decide_eq_true_eq]
  exact bounds

/-- Reading digits as code points is reading them as characters. -/
theorem foldl_ofDigitChars (chars : List Char) (start : Nat) :
    (chars.map Char.toNat).foldl (fun value c => 10 * value + (c - 48)) start =
      Nat.ofDigitChars 10 chars start := by
  rw [List.foldl_map]
  rfl

/-- The digits of a number denote it. -/
@[simp] theorem digitsValue_natText (n : Nat) : digitsValue (natText n) = n := by
  rw [digitsValue, natText, foldl_ofDigitChars, Nat.ofDigitChars_ten_toDigits]

/-- A number has no more digits than its width allows where it is below this power of ten. -/
theorem natText_length_le_iff {n width : Nat} (positive : 0 < width) :
    (natText n).length ≤ width ↔ n < 10 ^ width := by
  rw [natText, List.length_map]
  exact Nat.length_toDigits_le_iff (by decide) positive

/-- A positive number has no leading zero. -/
theorem natText_head {n : Nat} (positive : 0 < n) : (natText n).head? ≠ some 48 := by
  induction n using Nat.strong_induction_on with
  | _ n inductionHypothesis =>
    by_cases small : n < 10
    · have digit : ∀ n < 10, 0 < n → (natText n).head? ≠ some 48 := by decide
      exact digit n small positive
    · have shorter := inductionHypothesis (n / 10) (by omega) (by omega)
      have split : natText n = natText (n / 10) ++ [(n % 10).digitChar.toNat] := by
        rw [natText, Nat.toDigits_of_base_le (by decide) (by omega), List.map_append]
        rfl
      rw [split, List.head?_append_of_ne_nil _ (natText_ne_nil (n / 10))]
      exact shorter

/-- The first character of a number is a digit or a minus sign, which a digit follows. -/
theorem natText_cons (n : Nat) :
    ∃ digit others, natText n = digit :: others ∧ 48 ≤ digit ∧ digit ≤ 57 := by
  cases digits : natText n with
  | nil => exact absurd digits (natText_ne_nil n)
  | cons digit others =>
    have bounds := natText_digits (n := n) (c := digit) (by rw [digits]; exact List.mem_cons_self)
    simp only [isAsciiDigit, Bool.and_eq_true, decide_eq_true_eq] at bounds
    exact ⟨digit, others, rfl, bounds⟩

/-- An integer begins with a digit or a minus sign. -/
theorem intText_cons (value : Int) :
    ∃ first others, intText value = first :: others ∧ (first = 45 ∨ 48 ≤ first ∧ first ≤ 57) := by
  cases value with
  | ofNat n =>
    obtain ⟨digit, others, digits, bounds⟩ := natText_cons n
    exact ⟨digit, others, digits, Or.inr bounds⟩
  | negSucc n => exact ⟨45, natText (n + 1), rfl, Or.inl rfl⟩

/-- A text in front of something that is no digit is all that is read of its digits. -/
theorem leadingDigits_natText (n : Nat) {c : Nat} {rest : PyStr} (other : isAsciiDigit c = false) :
    leadingDigits (natText n ++ c :: rest) = (natText n, c :: rest) := by
  have all : ∀ c ∈ natText n, isAsciiDigit c = true := fun c member => natText_digits member
  have ends : ¬ isAsciiDigit c = true := by simp [other]
  simp only [leadingDigits, List.takeWhile_append_of_pos all, List.dropWhile_append_of_pos all,
    List.takeWhile_cons_of_neg ends, List.dropWhile_cons_of_neg ends, List.append_nil]

/-- A number at the end of a text is read to its end. -/
theorem leadingDigits_natText_end (n : Nat) : leadingDigits (natText n) = (natText n, []) := by
  have all : ∀ c ∈ natText n, isAsciiDigit c = true := fun c member => natText_digits member
  rw [leadingDigits, List.takeWhile_eq_self_iff.mpr all, List.dropWhile_eq_nil_iff.mpr all]

/-! ## Reading a number -/

/-- A minus sign, if the number has one. -/
def signText (negative : Bool) : PyStr := if negative then [45] else []

/-- An exponent, if it is not zero. -/
def exponentText (exponent : Int) : PyStr := if exponent = 0 then [] else 101 :: intText exponent

/-- The text of a number, as `float` reads it. -/
def numeral (negative : Bool) (mantissa : Nat) (exponent : Int) : PyStr :=
  signText negative ++ (natText mantissa ++ exponentText exponent)

/-- An integer is written as the numeral of its sign and its absolute value. -/
theorem intText_eq (value : Int) : intText value = numeral (value < 0) value.natAbs 0 := by
  cases value with
  | ofNat n => simp [numeral, signText, exponentText, intText]
  | negSucc n => simp [numeral, signText, exponentText, intText, Int.negSucc_lt_zero]; rfl

/-- A visible ASCII character that is no underscore. -/
def Plain (c : Nat) : Prop := 33 ≤ c ∧ c < 128 ∧ c ≠ 95

instance (c : Nat) : Decidable (Plain c) := inferInstanceAs (Decidable (_ ∧ _ ∧ _))

/-- The digits of a number are plain. -/
theorem natText_plain {n c : Nat} (member : c ∈ natText n) : Plain c := by
  have digit := natText_digits member
  simp only [isAsciiDigit, Bool.and_eq_true, decide_eq_true_eq] at digit
  simp only [Plain]
  omega

/-- The characters of an integer are plain. -/
theorem intText_plain {value : Int} {c : Nat} (member : c ∈ intText value) : Plain c := by
  cases value with
  | ofNat n => exact natText_plain member
  | negSucc n =>
    obtain first | later := List.mem_cons.mp member
    · rw [first]
      exact (by decide : Plain 45)
    · exact natText_plain later

/-- The characters of a numeral are plain. -/
theorem numeral_plain {negative : Bool} {mantissa : Nat} {exponent : Int} {c : Nat}
    (member : c ∈ numeral negative mantissa exponent) : Plain c := by
  simp only [numeral, signText, exponentText, List.mem_append] at member
  obtain sign | digit | mark := member
  · split at sign <;> simp_all [Plain]
  · exact natText_plain digit
  · split at mark
    · simp at mark
    · obtain rfl | later := List.mem_cons.mp mark
      · simp [Plain]
      · exact intText_plain later

/-- A plain text can be encoded. -/
theorem plain_encodable {text : PyStr} (plain : ∀ c ∈ text, Plain c) : encodable text = true := by
  simp only [encodable, Bool.not_eq_true', List.any_eq_false]
  intro c member
  have small := (plain c member).2.1
  simp only [isSurrogate, Bool.and_eq_true, decide_eq_true_eq]
  omega

/-- A plain text has no underscores to drop. -/
theorem dropUnderscores_plain {text : PyStr} (plain : ∀ c ∈ text, Plain c) (after : Bool) :
    dropUnderscores after text = some text := by
  induction text generalizing after with
  | nil => rfl
  | cons c rest inductionHypothesis =>
    have tail := inductionHypothesis fun other member => plain other (List.mem_cons_of_mem _ member)
    have visible := (plain c List.mem_cons_self).2.2
    simp [dropUnderscores, tail]

/-- The digits of the mantissa end where the exponent begins. -/
theorem leadingDigits_mantissa (mantissa : Nat) (exponent : Int) :
    leadingDigits (natText mantissa ++ exponentText exponent) =
      (natText mantissa, exponentText exponent) := by
  rw [exponentText]
  split
  · rw [List.append_nil, leadingDigits_natText_end]
  · exact leadingDigits_natText mantissa rfl

/-- A number in front of a text has no sign. -/
theorem leadingSign_natText (n : Nat) (rest : PyStr) :
    leadingSign (natText n ++ rest) = (false, natText n ++ rest) := by
  obtain ⟨digit, others, digits, low, high⟩ := natText_cons n
  have unsigned : digit ≠ 45 ∧ digit ≠ 43 := by omega
  simp [digits, leadingSign, unsigned]

/-- An exponent is read as it was written. -/
theorem exponentValue_text (exponent : Int) :
    exponentValue (exponentText exponent) = some exponent := by
  rw [exponentText]
  split
  · next zero => rw [zero, exponentValue]
  · cases exponent with
    | ofNat n =>
      have unsigned := leadingSign_natText n []
      rw [List.append_nil] at unsigned
      simp [exponentValue, intText, unsigned, leadingDigits_natText_end, natText_ne_nil]
    | negSucc n =>
      have signed : leadingSign (intText (.negSucc n)) = (true, natText (n + 1)) := rfl
      have value : -((n + 1 : Nat) : Int) = .negSucc n := rfl
      simp only [exponentValue, true_or, if_true, signed, leadingDigits_natText_end,
        digitsValue_natText, ne_eq, natText_ne_nil, not_false_eq_true, and_self, value]

/-- A mantissa and an exponent are read as they were written. -/
theorem decimalLit_mantissa (negative : Bool) (mantissa : Nat) (exponent : Int) :
    decimalLit negative (natText mantissa ++ exponentText exponent) =
      some (.decimal negative mantissa exponent) := by
  have noPoint : ∀ after, exponentText exponent ≠ 46 :: after := by
    intro after
    rw [exponentText]
    split <;> simp
  simp [decimalLit, leadingDigits_mantissa, natText_ne_nil, exponentValue_text]

section Reading

variable [PyRuntime]

open PyRuntime

/-- A plain character is no white space. -/
theorem plain_visible {c : Nat} (plain : Plain c) : space c = false := by
  obtain ⟨visible, ascii, -⟩ := plain
  simp only [space_ascii c ascii, Bool.or_eq_false_iff, Bool.and_eq_false_iff,
    decide_eq_false_iff_not]
  omega

omit [PyRuntime] in
/-- A text without blanks keeps its front. -/
theorem dropWhile_visible {blank : Nat → Bool} {text : PyStr}
    (visible : ∀ c ∈ text, blank c = false) : text.dropWhile blank = text := by
  cases text with
  | nil => rfl
  | cons c rest => exact List.dropWhile_cons_of_neg (by simp [visible c List.mem_cons_self])

omit [PyRuntime] in
/-- A text without blanks is not trimmed. -/
theorem trim_visible {blank : Nat → Bool} {text : PyStr}
    (visible : ∀ c ∈ text, blank c = false) : trim blank text = text := by
  have backwards : ∀ c ∈ text.reverse, blank c = false :=
    fun c member => visible c (List.mem_reverse.mp member)
  rw [trim, dropWhile_visible visible, dropWhile_visible backwards, List.reverse_reverse]

/-- What is no white space is none around a number. -/
theorem floatSpace_visible {c : Nat} (visible : space c = false) : floatSpace c = false := by
  rw [floatSpace, visible, Bool.false_and]

/-- The ASCII digits are what they are. -/
theorem asciiDigits_plain {text : PyStr} (plain : ∀ c ∈ text, Plain c) :
    asciiDigits text = text := by
  rw [asciiDigits]
  apply (List.map_congr_left _).trans (List.map_id' text)
  intro c member
  rw [decimal_ascii c (plain c member).2.1]
  split
  · rename_i value digit
    obtain ⟨inside, same⟩ := Option.ite_none_right_eq_some.mp digit
    obtain rfl := Option.some.inj same
    simp only [isAsciiDigit, Bool.and_eq_true, decide_eq_true_eq] at inside
    exact Nat.add_sub_cancel' inside.1
  · rfl

/-- A text of plain characters is read as it is. -/
theorem floatOfText_plain {text : PyStr} (plain : ∀ c ∈ text, Plain c) :
    floatOfText text = floatLit text := by
  have visible : ∀ c ∈ text, floatSpace c = false :=
    fun c member => floatSpace_visible (plain_visible (plain c member))
  rw [floatOfText, trim_visible visible, asciiDigits_plain plain, dropUnderscores_plain plain]
  rfl

/-- `float` reads a numeral. -/
theorem floatOfText_numeral (negative : Bool) (mantissa : Nat) (exponent : Int) :
    floatOfText (numeral negative mantissa exponent) =
      some (.decimal negative mantissa exponent) := by
  rw [floatOfText_plain fun c member => numeral_plain member]
  have signed : leadingSign (numeral negative mantissa exponent) =
      (negative, natText mantissa ++ exponentText exponent) := by
    cases negative with
    | true => rfl
    | false => exact leadingSign_natText mantissa _
  obtain ⟨digit, others, digits, low, high⟩ := natText_cons mantissa
  have first : (asciiLower (natText mantissa ++ exponentText exponent)).head? = some digit := by
    have small : ¬ (65 ≤ digit ∧ digit ≤ 90) := by omega
    simp [asciiLower, digits, small]
  have unnamed : ∀ name letter, name.head? = some letter → digit < letter →
      asciiLower (natText mantissa ++ exponentText exponent) ≠ name := by
    rintro name letter begins above rfl
    obtain rfl := Option.some.inj (first.symm.trans begins)
    exact Nat.lt_irrefl _ above
  have noInf := unnamed (py "inf") 105 rfl (by omega)
  have noInfinity := unnamed (py "infinity") 105 rfl (by omega)
  have noNan := unnamed (py "nan") 110 rfl (by omega)
  simp only [floatLit, signed]
  rw [if_neg (not_or.mpr ⟨noInf, noInfinity⟩), if_neg noNan, decimalLit_mantissa]

/-- `float` reads an integer as it is written. -/
theorem floatOfText_intText (value : Int) :
    floatOfText (intText value) = some (.decimal (value < 0) value.natAbs 0) := by
  rw [intText_eq, floatOfText_numeral]

end Reading

/-! ## Laws of the interpreter -/

/-- What is known of the tables of Unicode, of the depth of calls, and of binary64
numbers and their six digits. -/
class PyLaws (F : Type) [PyRuntime] [PyFloat F] : Prop where
  alnum_scalar : ∀ c, PyRuntime.alnum c = true → isSurrogate c = false
  decimal_scalar : ∀ c, isDecimal c = true → isSurrogate c = false
  /-- a call may nest in another -/
  nests : 0 < PyRuntime.recursionLimit
  /-- `float(n)` and `float(str(n))` are the same number -/
  ofInt_read : ∀ n, ∀ x : F, PyFloat.ofInt n = .ok x →
    PyFloat.ofLit (.decimal (n < 0) n.natAbs 0) = x
  /-- six digits are read as a number that has the same six digits -/
  general_read : ∀ x : F, ∃ lit, floatOfText (PyFloat.general x) = some lit ∧
    PyFloat.general (PyFloat.ofLit lit : F) = PyFloat.general x
  general_encodable : ∀ x : F, encodable (PyFloat.general x) = true
  /-- a finite number has at most so many digits before its point -/
  trunc_digits : ∀ (x : F) n, PyFloat.trunc x = .ok n → (natText n.natAbs).length ≤ 309

end RcaBackend
