import RcaBackend.LetterCase
import RcaBackend.SignalParsers
import RcaBackend.WholeWords

/-!
# Levels and error marks as words

The level of a text is the first of its words that is a level in some letter case, and a
text shows an error if one of its words is an error mark. Upper case keeps both.
-/

namespace RcaBackend

open SignalPatterns Regex PyRuntime

/-- What the Unicode tables say about the characters of these words. -/
class WordLaws [PyRuntime] : Prop where
  alnum_ascii : ∀ c, c < 128 → alnum c = (isAsciiDigit c || isLetter c)
  alnum_decimal : ∀ c, isDecimal c = true → alnum c = true
  alnum_dottedI : alnum 0x130 = true
  alnum_dotlessI : alnum 0x131 = true
  upper_dottedI : upper 0x130 = [0x130]
  upper_dotlessI : upper 0x131 = [73]
  upper_decimal : ∀ c, isDecimal c = true → upper c = [c]

section Words

variable [PyRuntime]

/-- The levels. -/
def levelWord : Regex Nat :=
  .firstOf (anyCase "fatal") [anyCase "critical", anyCase "error",
    .seq (anyCase "warn") (.optional (anyCase "ing")), anyCase "info", anyCase "debug",
    anyCase "trace"]

/-- The error marks of a span. -/
def errorMark : Regex Nat :=
  .firstOf (anyCase "error") [anyCase "timeout",
    .seq (anyCase "fail") (.many isWord),
    .inOrder [char 53, .one isDecimal, .one isDecimal]]

/-- The first level in a text. -/
def firstLevel (text : PyStr) : Option PyStr := (words isWord text).find? levelWord.fullMatch

/-- The first error mark in a text. -/
def firstMark (text : PyStr) : Option PyStr := (words isWord text).find? errorMark.fullMatch

/-! ## Letters in either case -/

/-- A letter of ASCII whose other case is the only other character that matches it, or `i`. -/
def Usual (letter : Nat) : Prop := 97 ≤ letter ∧ letter ≤ 122 ∧ letter ≠ 107 ∧ letter ≠ 115

instance (letter : Nat) : Decidable (Usual letter) :=
  inferInstanceAs (Decidable (97 ≤ letter ∧ letter ≤ 122 ∧ letter ≠ 107 ∧ letter ≠ 115))

omit [PyRuntime] in
/-- What matches a letter in any case: the letter, its upper case, or for an i the two Turkish
letters. -/
theorem ignoringCase_cases {letter c : Nat} (usual : Usual letter)
    (same : ignoringCase letter c = true) :
    c = letter ∨ c = letter - 32 ∨ letter = 105 ∧ (c = 0x130 ∨ c = 0x131) := by
  obtain ⟨low, high, notK, notS⟩ := usual
  unfold ignoringCase at same
  split at same <;> simp_all
  omega

omit [PyRuntime] in
/-- A word in any case is its letters in a row. -/
theorem anyCase_ones (word : String) :
    anyCase word = .inOrder (((py word).map ignoringCase).map .one) := by
  rw [anyCase, List.map_map]
  rfl

omit [PyRuntime] in
/-- A word in any case matches a text letter by letter. -/
theorem denotes_anyCase {word : String} {text : PyStr} :
    (anyCase word).Denotes text ↔
      List.Forall₂ (fun letter c => ignoringCase letter c = true) (py word) text := by
  rw [anyCase_ones, denotes_ones, List.forall₂_map_left_iff]

omit [PyRuntime] in
/-- A word in any case has no groups. -/
theorem plain_anyCase (word : String) : (anyCase word).Plain := by
  rw [anyCase_ones]
  exact plain_ones _

section Laws

variable [laws : WordLaws]

/-- A word character whose upper case is one character that is its own upper case. -/
def Cased (c : Nat) : Prop := isWord c = true ∧ ∃ d, upper c = [d] ∧ upper d = [d]

omit laws in
/-- A letter or digit is a word character. -/
theorem isWord_alnum {c : Nat} (listed : alnum c = true) : isWord c = true := by
  rw [isWord, listed, Bool.true_or]

/-- A letter is a word character. -/
theorem isWord_letter {c : Nat} (letter : isLetter c = true) : isWord c = true := by
  apply isWord_alnum
  have ascii : c < 128 := by
    simp only [isLetter, Bool.or_eq_true, Bool.and_eq_true, decide_eq_true_eq] at letter
    omega
  rw [laws.alnum_ascii c ascii, letter, Bool.or_true]

/-- The upper case of a character that matches a letter matches it as well. -/
theorem letter_upper {letter c : Nat} (usual : Usual letter) (same : ignoringCase letter c = true) :
    isWord c = true ∧ ∃ d, upper c = [d] ∧ upper d = [d] ∧ ignoringCase letter d = true := by
  have cases := ignoringCase_cases usual same
  obtain ⟨low, high, notK, notS⟩ := usual
  have capital : ignoringCase letter (letter - 32) = true := by
    simp [ignoringCase, low, high]
  have fixed : upper (letter - 32) = [letter - 32] := by
    rw [upper_ascii _ (by omega), if_neg (by omega)]
  obtain rfl | rfl | ⟨rfl, rfl | rfl⟩ := cases
  · refine ⟨isWord_letter (by simp [isLetter, low, high]), c - 32, ?_, fixed, capital⟩
    rw [upper_ascii _ (by omega), if_pos ⟨low, high⟩]
  · refine ⟨isWord_letter ?_, letter - 32, fixed, fixed, capital⟩
    simp only [isLetter, Bool.or_eq_true, Bool.and_eq_true, decide_eq_true_eq]
    omega
  · exact ⟨isWord_alnum laws.alnum_dottedI, 0x130, laws.upper_dottedI, laws.upper_dottedI, same⟩
  · exact ⟨isWord_alnum laws.alnum_dotlessI, 73, laws.upper_dotlessI, fixed, capital⟩

/-- A word of usual letters is written in cased characters. -/
theorem cased_anyCase {word : String} (usual : ∀ letter ∈ py word, Usual letter) :
    (anyCase word).Within Cased := by
  rw [anyCase_ones]
  apply within_ones
  intro member listed c same
  obtain ⟨letter, present, rfl⟩ := List.mem_map.mp listed
  obtain ⟨inside, d, raised, fixed, -⟩ := letter_upper (usual letter present) same
  exact ⟨inside, d, raised, fixed⟩

/-- The upper case of a word is the word. -/
theorem upper_anyCase {word : String} (usual : ∀ letter ∈ py word, Usual letter) {text : PyStr}
    (denoted : (anyCase word).Denotes text) : (anyCase word).Denotes (upperText text) := by
  rw [denotes_anyCase] at denoted ⊢
  generalize py word = letters at usual denoted
  induction denoted with
  | nil => exact List.Forall₂.nil
  | cons same _ inductionHypothesis =>
    obtain ⟨here, later⟩ := List.forall_mem_cons.mp usual
    obtain ⟨-, d, raised, -, also⟩ := letter_upper here same
    rw [upperText, List.flatMap_cons, raised]
    exact List.Forall₂.cons also (inductionHypothesis later)

/-! ## The level of a text -/

/-- A level is spelled with letters. -/
theorem cased_level : levelWord.Within Cased := by
  refine ⟨cased_anyCase ?_, cased_anyCase ?_, cased_anyCase ?_,
    ⟨cased_anyCase ?_, cased_anyCase ?_, trivial⟩, cased_anyCase ?_, cased_anyCase ?_,
    cased_anyCase ?_⟩ <;> decide

omit [PyRuntime] laws in
/-- A level has no groups. -/
theorem plain_level : levelWord.Plain :=
  ⟨plain_anyCase _, plain_anyCase _, plain_anyCase _, ⟨plain_anyCase _, plain_anyCase _, trivial⟩,
    plain_anyCase _, plain_anyCase _, plain_anyCase _⟩

/-- Levels are whole words. -/
theorem level_words : MatchesWords isWord levelWord where
  plain := plain_level
  within := cased_level.imp fun _ cased => cased.1
  nonempty := by
    rw [← fullMatch_iff plain_level]
    exact Bool.false_ne_true

omit [PyRuntime] laws in
/-- What a pattern of whole words finds is the first word that it matches. -/
theorem reSearch_words [PyRuntime] {inner : Regex Nat} (whole : MatchesWords isWord inner)
    (text : PyStr) : (reSearch (wholeWord isWord 1 inner) text).map (groupText · 1) =
      (words isWord text).find? inner.fullMatch := by
  have found : (reSearch (wholeWord isWord 1 inner) text).map (·.group 1) = _ :=
    search_wholeWord whole text
  have read := congrArg (Option.map fun group => group.getD []) found
  rw [Option.map_map, Option.map_map] at read
  exact read.trans Option.map_id'

/-- `LEVEL_RE` finds the first level word. -/
theorem reSearch_level (text : PyStr) :
    (reSearch levelRe text).map (groupText · 1) = firstLevel text :=
  reSearch_words level_words text

/-- The level of a line is its first level word in upper case. -/
theorem levelOf_first (text : PyStr) :
    levelOf text = ((firstLevel text).map upperText).getD (py "-") := by
  rw [← reSearch_level, levelOf]
  cases reSearch levelRe text <;> rfl

/-- A level in upper case is in upper case. -/
theorem upper_level {text level : PyStr} (first : firstLevel text = some level) :
    upperText (upperText level) = upperText level := by
  have denoted := (fullMatch_iff plain_level level).mp (List.find?_some first)
  have cased := levelWord.denotes_within cased_level denoted
  clear first denoted
  induction level with
  | nil => rfl
  | cons c rest inductionHypothesis =>
    obtain ⟨⟨-, d, raised, fixed⟩, later⟩ := List.forall_mem_cons.mp cased
    have split : upperText (c :: rest) = d :: upperText rest := by
      rw [upperText, List.flatMap_cons, raised]
      rfl
    rw [split, upperText, List.flatMap_cons, fixed]
    exact congrArg (d :: ·) (inductionHypothesis later)

/-! ## The error mark of a text -/

omit laws in
/-- An error mark has no groups. -/
theorem plain_mark : errorMark.Plain :=
  ⟨plain_anyCase _, plain_anyCase _, ⟨plain_anyCase _, trivial⟩, trivial, trivial, trivial⟩

/-- A word of usual letters is spelled with word characters. -/
theorem cased_word {word : String} (usual : ∀ letter ∈ py word, Usual letter) :
    (anyCase word).Within fun c => isWord c = true :=
  (cased_anyCase usual).imp fun _ cased => cased.1

/-- A digit is a word character. -/
theorem isWord_decimal {c : Nat} (digit : isDecimal c = true) : isWord c = true :=
  isWord_alnum (laws.alnum_decimal c digit)

/-- Error marks are whole words. -/
theorem mark_words : MatchesWords isWord errorMark where
  plain := plain_mark
  within := by
    refine ⟨cased_word (by decide), cased_word (by decide), ⟨cased_word (by decide), fun c => id⟩,
      ?_, fun c => isWord_decimal, fun c => isWord_decimal⟩
    intro c five
    obtain rfl : c = 53 := of_decide_eq_true five
    exact isWord_alnum ((laws.alnum_ascii 53 (by decide)).trans (by decide))
  nonempty := by
    rw [← fullMatch_iff plain_mark]
    exact Bool.false_ne_true

/-- The error pattern of spans finds the first error mark. -/
theorem reSearch_mark (text : PyStr) :
    (reSearch traceErrRe text).map (groupText · 1) = firstMark text :=
  reSearch_words mark_words text

/-- A text shows an error where it has an error mark. -/
theorem showsError_first (text : PyStr) : showsError text = (firstMark text).isSome := by
  rw [showsError, ← reSearch_mark, Option.isSome_map]

/-- A word character of ASCII. -/
def asciiWord (c : Nat) : Bool := isAsciiDigit c || isLetter c || c = 95

/-- What an ASCII text shows does not depend on the tables. -/
theorem showsError_ascii {text : PyStr} (ascii : ∀ c ∈ text, c < 128) :
    showsError text = ((words asciiWord text).find? errorMark.fullMatch).isSome := by
  have same : ∀ c ∈ text, isWord c = asciiWord c := by
    intro c member
    rw [isWord, laws.alnum_ascii c (ascii c member), asciiWord]
  rw [showsError_first, firstMark, words_congr same]

/-- A text that begins with an error mark shows an error. -/
theorem showsError_front {text : PyStr} (denoted : errorMark.Denotes (text.takeWhile isWord)) :
    showsError text = true := by
  rw [showsError_first, firstMark, words_head, List.find?_cons_of_pos]
  · rfl
  · exact (fullMatch_iff plain_mark _).mpr denoted

/-- The upper case of a word in any case is of word characters. -/
theorem upper_letters {word : String} (usual : ∀ letter ∈ py word, Usual letter) {text : PyStr}
    (denoted : (anyCase word).Denotes text) : ∀ c ∈ upperText text, isWord c = true :=
  (anyCase word).denotes_within (cased_word usual) (upper_anyCase usual denoted)

omit laws in
/-- A text in upper case is its upper case. -/
theorem upper_fixed {text : PyStr} (fixed : ∀ c ∈ text, upper c = [c]) : upperText text = text := by
  rw [upperText, List.flatMap_congr fixed, List.flatMap_singleton']

/-- The upper case of an error mark shows an error. -/
theorem upper_mark {text mark : PyStr} (first : firstMark text = some mark) :
    showsError (upperText mark) = true := by
  have denoted := (fullMatch_iff plain_mark mark).mp (List.find?_some first)
  apply showsError_front
  obtain error | timeout | ⟨front, back, rfl, fail, -⟩ | number := denoted
  · rw [List.takeWhile_eq_self_iff.mpr (upper_letters (by decide) error)]
    exact Or.inl (upper_anyCase (by decide) error)
  · rw [List.takeWhile_eq_self_iff.mpr (upper_letters (by decide) timeout)]
    exact Or.inr (Or.inl (upper_anyCase (by decide) timeout))
  · have split : upperText (front ++ back) = upperText front ++ upperText back :=
      List.flatMap_append
    rw [split, List.takeWhile_append_of_pos (upper_letters (by decide) fail)]
    refine Or.inr (Or.inr (Or.inl ⟨_, _, rfl, upper_anyCase (by decide) fail, ?_⟩))
    exact fun c => List.mem_takeWhile_imp
  · -- digits have no case
    have same : upperText mark = mark := by
      obtain ⟨-, -, rfl, ⟨five, same, rfl⟩, -, -, rfl, ⟨a, tens, rfl⟩, ⟨b, ones, rfl⟩⟩ := number
      obtain rfl : five = 53 := of_decide_eq_true same
      have fixed : upper 53 = [53] := upper_ascii 53 (by decide)
      exact upper_fixed (by simp [fixed, laws.upper_decimal a tens, laws.upper_decimal b ones])
    have letters : ∀ c ∈ mark, isWord c = true :=
      errorMark.denotes_within mark_words.within (Or.inr (Or.inr (Or.inr number)))
    rw [same, List.takeWhile_eq_self_iff.mpr letters]
    exact Or.inr (Or.inr (Or.inr number))

end Laws

end Words

namespace ReferenceInterpreter

/-- The interpreter with ASCII tables and the two other letters that match an `i`. -/
@[reducible] def letteredRuntime : PyRuntime :=
  { asciiRuntime with
    alnum c := isAsciiDigit c || isLetter c || c = 0x130 || c = 0x131
    upper c := if c = 0x131 then [73] else upperAscii c
    upper_ascii := by
      intro c ascii
      rw [if_neg (by omega), upperAscii] }

/-- The digits of this interpreter are those of ASCII. -/
theorem decimal_ascii {c : Nat} (digit : @isDecimal letteredRuntime c = true) :
    isAsciiDigit c = true := by
  obtain ⟨value, read⟩ := Option.isSome_iff_exists.mp digit
  exact (Option.ite_none_right_eq_some.mp read).1

/-- The letters of this interpreter obey the laws of words. -/
theorem lettered_words : @WordLaws letteredRuntime := by
  refine @WordLaws.mk letteredRuntime ?_ ?_ (by decide) (by decide) (by decide) (by decide) ?_
  · intro c ascii
    have notI : ¬ c = 0x130 ∧ ¬ c = 0x131 := by omega
    change (isAsciiDigit c || isLetter c || decide (c = 0x130) || decide (c = 0x131)) = _
    simp [notI]
  · intro c digit
    change (isAsciiDigit c || isLetter c || decide (c = 0x130) || decide (c = 0x131)) = true
    simp [decimal_ascii digit]
  · intro c digit
    have bounds := decimal_ascii digit
    simp only [isAsciiDigit, Bool.and_eq_true, decide_eq_true_eq] at bounds
    have ascii : c < 128 := by omega
    rw [@PyRuntime.upper_ascii letteredRuntime c ascii, if_neg (by omega)]

/-- This interpreter obeys the laws. -/
theorem lettered_laws : @PyLaws FloatLit letteredRuntime rangedDecimals := by
  obtain ⟨-, decimals, nests, ints, reads, encodes, digits⟩ := reference_laws
  refine @PyLaws.mk FloatLit letteredRuntime rangedDecimals ?_ decimals nests ints reads encodes digits
  intro c member
  have listed : (isAsciiDigit c || isLetter c || c = 0x130 || c = 0x131) = true := member
  simp only [isAsciiDigit, isLetter, Bool.or_eq_true, Bool.and_eq_true, decide_eq_true_eq] at listed
  simp only [isSurrogate, Bool.and_eq_false_iff, decide_eq_false_iff_not]
  omega

end ReferenceInterpreter

end RcaBackend
