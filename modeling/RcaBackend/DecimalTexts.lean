import RcaBackend.PyNumerals
import RcaBackend.SignalPatterns

/-!
# The numbers that the patterns match

What `\d+(?:\.\d+)?` matches, with a sign before it or an exponent after it, is a text
that `float` reads, also where its digits are not those of ASCII: `float` first replaces
them by those of ASCII, and nothing else in such a text is changed.
-/

namespace RcaBackend

open SignalPatterns PyRuntime

/-! ## The shape of a number -/

/-- A sign, or nothing. -/
def IsSign (text : PyStr) : Prop := text = [] ∨ text = [43] ∨ text = [45]

section Shape

variable (digit : Nat → Bool)

/-- Digits, at least one. -/
def IsRun (text : PyStr) : Prop := text ≠ [] ∧ ∀ c ∈ text, digit c = true

/-- A point and digits, or nothing. -/
def IsFraction (text : PyStr) : Prop := text = [] ∨ ∃ run, IsRun digit run ∧ text = 46 :: run

/-- An exponent, or nothing. -/
def IsExponent (text : PyStr) : Prop :=
  text = [] ∨ ∃ mark front run, (mark = 101 ∨ mark = 69) ∧ IsSign front ∧ IsRun digit run ∧
    text = mark :: (front ++ run)

/-- A decimal number. -/
def IsNumeral (text : PyStr) : Prop :=
  ∃ front whole fraction exponent, IsSign front ∧ IsRun digit whole ∧ IsFraction digit fraction ∧
    IsExponent digit exponent ∧ text = front ++ (whole ++ (fraction ++ exponent))

variable {digit}

/-- A sign is plain. -/
theorem isSign_plain {front : PyStr} (signed : IsSign front) : ∀ c ∈ front, Plain c := by
  obtain rfl | rfl | rfl := signed <;> decide

/-- A number consists of digits and plain characters. -/
theorem isNumeral_chars {text : PyStr} (shape : IsNumeral digit text) :
    ∀ c ∈ text, digit c = true ∨ Plain c := by
  obtain ⟨front, whole, fraction, exponent, signed, run, pointed, scaled, rfl⟩ := shape
  intro c member
  simp only [List.mem_append] at member
  obtain inFront | inWhole | inFraction | inExponent := member
  · exact Or.inr (isSign_plain signed c inFront)
  · exact Or.inl (run.2 c inWhole)
  · obtain rfl | ⟨digits, run, rfl⟩ := pointed
    · simp at inFraction
    · obtain rfl | later := List.mem_cons.mp inFraction
      · exact Or.inr (by decide)
      · exact Or.inl (run.2 c later)
  · obtain rfl | ⟨mark, back, digits, marked, signed, run, rfl⟩ := scaled
    · simp at inExponent
    · obtain rfl | later := List.mem_cons.mp inExponent
      · exact Or.inr (by obtain rfl | rfl := marked <;> decide)
      · obtain inSign | inRun := List.mem_append.mp later
        · exact Or.inr (isSign_plain signed c inSign)
        · exact Or.inl (run.2 c inRun)

end Shape

/-! ## Reading a number in ASCII -/

/-- A run of digits is read up to the first other character. -/
theorem leadingDigits_run {digits : PyStr} (rest : PyStr) (all : ∀ c ∈ digits, isAsciiDigit c = true)
    (stops : ∀ c ∈ rest.head?, isAsciiDigit c = false) :
    leadingDigits (digits ++ rest) = (digits, rest) := by
  rw [leadingDigits, List.takeWhile_append_of_pos all, List.dropWhile_append_of_pos all]
  cases rest with
  | nil => simp
  | cons c rest => simp [stops c rfl]

/-- A sign is taken off the digits that follow it. -/
theorem leadingSign_run {front digits : PyStr} (rest : PyStr) (signed : IsSign front)
    (run : IsRun isAsciiDigit digits) :
    ∃ negative, leadingSign (front ++ (digits ++ rest)) = (negative, digits ++ rest) := by
  obtain rfl | rfl | rfl := signed
  · obtain ⟨first, others, rfl⟩ := List.exists_cons_of_ne_nil run.1
    have digit := run.2 first List.mem_cons_self
    simp only [isAsciiDigit, Bool.and_eq_true, decide_eq_true_eq] at digit
    have unsigned : first ≠ 45 ∧ first ≠ 43 := by omega
    exact ⟨false, by simp [leadingSign, unsigned]⟩
  · exact ⟨false, rfl⟩
  · exact ⟨true, rfl⟩

/-- An exponent is read. -/
theorem exponentValue_isSome {exponent : PyStr} (scaled : IsExponent isAsciiDigit exponent) :
    (exponentValue exponent).isSome = true := by
  obtain rfl | ⟨mark, front, digits, marked, signed, run, rfl⟩ := scaled
  · rfl
  · obtain ⟨negative, taken⟩ := leadingSign_run [] signed run
    have read := leadingDigits_run [] run.2 (by simp)
    rw [List.append_nil] at taken read
    simp [exponentValue, marked, taken, read, run.1]

/-- An exponent begins neither with a digit nor with a point. -/
theorem isExponent_stops {exponent : PyStr} (scaled : IsExponent isAsciiDigit exponent) :
    ∀ c ∈ exponent.head?, isAsciiDigit c = false ∧ c ≠ 46 := by
  obtain rfl | ⟨mark, front, digits, marked, -, -, rfl⟩ := scaled
  · simp
  · rintro c ⟨⟩
    obtain rfl | rfl := marked <;> decide

/-- Digits, an optional fraction and an optional exponent are read. -/
theorem decimalLit_isSome (negative : Bool) {whole fraction exponent : PyStr}
    (run : IsRun isAsciiDigit whole) (pointed : IsFraction isAsciiDigit fraction)
    (scaled : IsExponent isAsciiDigit exponent) :
    (decimalLit negative (whole ++ (fraction ++ exponent))).isSome = true := by
  have stops := isExponent_stops scaled
  have value := exponentValue_isSome scaled
  obtain rfl | ⟨digits, fractional, rfl⟩ := pointed
  · have read := leadingDigits_run exponent run.2 fun c first => (stops c first).1
    have noPoint : ∀ rest, exponent ≠ 46 :: rest := by
      rintro rest rfl
      exact (stops 46 rfl).2 rfl
    simp [decimalLit, read, run.1, value]
  · have read := leadingDigits_run (46 :: (digits ++ exponent)) run.2 (by simp [isAsciiDigit])
    have after := leadingDigits_run exponent fractional.2 fun c first => (stops c first).1
    simp [decimalLit, read, after, run.1, value]

/-- A numeral in ASCII digits is read. -/
theorem floatLit_isSome {text : PyStr} (shape : IsNumeral isAsciiDigit text) :
    (floatLit text).isSome = true := by
  obtain ⟨front, whole, fraction, exponent, signed, run, pointed, scaled, rfl⟩ := shape
  obtain ⟨negative, taken⟩ := leadingSign_run (fraction ++ exponent) signed run
  have read := decimalLit_isSome negative run pointed scaled
  simp only [floatLit, taken]
  split
  · rfl
  · split
    · rfl
    · exact read

/-! ## Reading a number in any digits -/

section Digits

variable [PyRuntime]

/-- Digits are translated one by one, in a text in two parts. -/
theorem asciiDigits_append (front back : PyStr) :
    asciiDigits (front ++ back) = asciiDigits front ++ asciiDigits back :=
  List.map_append

/-- And at the front of a text. -/
theorem asciiDigits_cons (c : Nat) (rest : PyStr) :
    asciiDigits (c :: rest) = asciiDigits [c] ++ asciiDigits rest :=
  asciiDigits_append [c] rest

/-- A sign is not translated. -/
theorem asciiDigits_sign {front : PyStr} (signed : IsSign front) : asciiDigits front = front :=
  asciiDigits_plain (isSign_plain signed)

/-- A run of decimal digits becomes a run of ASCII digits. -/
theorem asciiDigits_run {digits : PyStr} (run : IsRun isDecimal digits) :
    IsRun isAsciiDigit (asciiDigits digits) := by
  constructor
  · simpa [asciiDigits] using run.1
  · intro c member
    obtain ⟨other, inside, rfl⟩ := List.mem_map.mp member
    obtain ⟨value, found⟩ := Option.isSome_iff_exists.mp (run.2 other inside)
    have small := decimal_digit other value found
    simp only [found, isAsciiDigit, Bool.and_eq_true, decide_eq_true_eq]
    omega

/-- The digits of a number become those of ASCII. -/
theorem asciiDigits_numeral {text : PyStr} (shape : IsNumeral isDecimal text) :
    IsNumeral isAsciiDigit (asciiDigits text) := by
  obtain ⟨front, whole, fraction, exponent, signed, run, pointed, scaled, rfl⟩ := shape
  have point : asciiDigits [46] = [46] := asciiDigits_plain (by decide)
  refine ⟨front, asciiDigits whole, asciiDigits fraction, asciiDigits exponent, signed,
    asciiDigits_run run, ?_, ?_, ?_⟩
  · obtain rfl | ⟨digits, run, rfl⟩ := pointed
    · exact Or.inl rfl
    · refine Or.inr ⟨asciiDigits digits, asciiDigits_run run, ?_⟩
      rw [asciiDigits_cons, point]
      rfl
  · obtain rfl | ⟨mark, front, digits, marked, signed, run, rfl⟩ := scaled
    · exact Or.inl rfl
    · refine Or.inr ⟨mark, front, asciiDigits digits, marked, signed, asciiDigits_run run, ?_⟩
      have letter : asciiDigits [mark] = [mark] := by
        obtain rfl | rfl := marked <;> exact asciiDigits_plain (by decide)
      rw [asciiDigits_cons, letter, asciiDigits_append, asciiDigits_sign signed]
      rfl
  · simp only [asciiDigits_append, asciiDigits_sign signed]

/-- `float` reads a decimal number. -/
theorem floatOfText_numeric {text : PyStr} (shape : IsNumeral isDecimal text) :
    (floatOfText text).isSome = true := by
  have visible : ∀ c ∈ text, floatSpace c = false := by
    intro c member
    obtain digit | plain := isNumeral_chars shape c member
    · obtain ⟨value, found⟩ := Option.isSome_iff_exists.mp digit
      exact floatSpace_visible (decimal_space c value found)
    · exact floatSpace_visible (plain_visible plain)
  have ascii := asciiDigits_numeral shape
  have plain : ∀ c ∈ asciiDigits text, Plain c := by
    intro c member
    obtain digit | plain := isNumeral_chars ascii c member
    · simp only [isAsciiDigit, Bool.and_eq_true, decide_eq_true_eq] at digit
      simp only [Plain]
      omega
    · exact plain
  rw [floatOfText, trim_visible visible, dropUnderscores_plain plain]
  exact floatLit_isSome ascii

/-! ## What the patterns match -/

/-- What the digits of a pattern match is a run of digits. -/
theorem digits_run {text : PyStr} (denoted : digits.Denotes text) : IsRun isDecimal text := by
  obtain ⟨front, back, rfl, ⟨c, digit, rfl⟩, rest⟩ := denoted
  refine ⟨by simp, ?_⟩
  intro other member
  obtain rfl | later := List.mem_cons.mp member
  · exact digit
  · exact rest other later

omit [PyRuntime] in
/-- What the sign of a pattern matches is a sign. -/
theorem sign_isSign {text : PyStr} (denoted : sign.Denotes text) : IsSign text := by
  obtain ⟨c, listed, rfl⟩ | rfl := denoted
  · simp only [Bool.or_eq_true, decide_eq_true_eq] at listed
    obtain rfl | rfl := listed
    · exact Or.inr (Or.inr rfl)
    · exact Or.inr (Or.inl rfl)
  · exact Or.inl rfl

/-- What a decimal pattern matches is a run of digits and an optional fraction. -/
theorem decimals_shape {text : PyStr} (denoted : decimals.Denotes text) :
    ∃ whole fraction, IsRun isDecimal whole ∧ IsFraction isDecimal fraction ∧
      text = whole ++ fraction := by
  obtain ⟨whole, fraction, rfl, run, point⟩ := denoted
  refine ⟨whole, fraction, digits_run run, ?_, rfl⟩
  obtain ⟨mark, after, rfl, ⟨c, same, rfl⟩, run⟩ | rfl := point
  · obtain rfl := of_decide_eq_true same
    exact Or.inr ⟨after, digits_run run, rfl⟩
  · exact Or.inl rfl

/-- With a sign in front it is a numeral. -/
theorem decimals_numeral {front text : PyStr} (signed : IsSign front)
    (denoted : decimals.Denotes text) : IsNumeral isDecimal (front ++ text) := by
  obtain ⟨whole, fraction, run, pointed, rfl⟩ := decimals_shape denoted
  exact ⟨front, whole, fraction, [], signed, run, pointed, Or.inl rfl, by simp⟩

omit [PyRuntime] in
/-- The sign of a pattern has no group. -/
@[simp] theorem not_captures_sign (index : Nat) (text : PyStr) : ¬ sign.Captures index text := by
  simp [sign, Regex.optional, Regex.Captures]

omit [PyRuntime] in
/-- Nor has a single character. -/
@[simp] theorem not_captures_char (c index : Nat) (text : PyStr) :
    ¬ (char c).Captures index text :=
  not_false

/-- Nor have its digits. -/
@[simp] theorem not_captures_digits (index : Nat) (text : PyStr) : ¬ digits.Captures index text := by
  simp [digits, Regex.atLeastOne, Regex.Captures]

/-- Nor has a decimal pattern. -/
@[simp] theorem not_captures_decimals (index : Nat) (text : PyStr) :
    ¬ decimals.Captures index text := by
  simp [decimals, Regex.optional, Regex.Captures]

omit [PyRuntime] in
/-- A word has no groups. -/
@[simp] theorem not_captures_anyCase (word : String) (index : Nat) (text : PyStr) :
    ¬ (anyCase word).Captures index text := by
  rw [anyCase]
  induction py word with
  | nil => exact not_false
  | cons c rest inductionHypothesis =>
    cases rest with
    | nil => exact not_false
    | cons next rest =>
      rintro (here | later)
      · exact here
      · exact inductionHypothesis later

/-- The value in the exposition form is a number. -/
theorem promRe_numeral {text : PyStr} (captured : promRe.Captures 2 text) :
    IsNumeral isDecimal text := by
  simp [promRe, Regex.inOrder, Regex.Captures, Regex.optional, Regex.atLeastOne] at captured
  obtain ⟨front, rest, rfl, signed, body, exponent, rfl, denoted, scaled⟩ := captured
  obtain ⟨whole, fraction, run, pointed, rfl⟩ := decimals_shape denoted
  refine ⟨front, whole, fraction, exponent, sign_isSign signed, run, pointed, ?_, by simp⟩
  obtain ⟨mark, back, rfl, ⟨c, listed, rfl⟩, signed, digits, rfl, also, run⟩ | rfl := scaled
  · refine Or.inr ⟨c, signed, digits, ?_, sign_isSign also, digits_run run, rfl⟩
    simpa using listed
  · exact Or.inl rfl

/-- The value of a `key=value` text is a number. -/
theorem pairRe_numeral {text : PyStr} (captured : pairRe.Captures 2 text) :
    IsNumeral isDecimal text := by
  simp [pairRe, Regex.inOrder, Regex.Captures] at captured
  obtain ⟨front, body, rfl, signed, denoted⟩ := captured
  exact decimals_numeral (sign_isSign signed) denoted

/-- The duration in a text is a number. -/
theorem durationRe_numeral {text : PyStr} (captured : durationRe.Captures 1 text) :
    IsNumeral isDecimal text := by
  simp [durationRe, Regex.inOrder, Regex.firstOf, Regex.Captures] at captured
  exact decimals_numeral (Or.inl rfl) captured

end Digits

end RcaBackend
