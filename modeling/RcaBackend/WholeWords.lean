import RcaBackend.Regex
import Mathlib.Data.List.Forall2

/-!
# Whole words

A word of a text is a run of word characters with no word character beside it. A pattern
between two word boundaries that matches nothing but nonempty runs of word characters is
found in a text if one of the words is matched as a whole, and the first such word is what
it captures.
-/

namespace Regex

variable {C : Type}

/-- The pattern does not look at what stands around its match. -/
def Plain : Regex C → Prop
  | .seq first second | .either first second => first.Plain ∧ second.Plain
  | .group _ inner => inner.Plain
  | .boundary _ | .finish => False
  | .empty | .one _ | .many _ => True

/-- The pattern matches a text as a whole. -/
def fullMatch (r : Regex C) (text : List C) : Bool :=
  (r.ways ⟨none, text, []⟩).any fun stop => stop.rest.isEmpty

/-- A repetition can stop after every character of its class. -/
theorem greedy_complete {member : C → Bool} {run : List C} (members : ∀ c ∈ run, member c = true)
    (before : Option C) (rest : List C) :
    ∃ stop ∈ greedy member before (run ++ rest), stop.2 = rest := by
  induction run generalizing before with
  | nil =>
    cases rest with
    | nil => exact ⟨(before, []), by simp [greedy], rfl⟩
    | cons c rest =>
      refine ⟨(before, c :: rest), ?_, rfl⟩
      rw [List.nil_append, greedy]
      split <;> simp
  | cons c run inductionHypothesis =>
    obtain ⟨here, later⟩ := List.forall_mem_cons.mp members
    obtain ⟨stop, reached, left⟩ := inductionHypothesis later (some c)
    refine ⟨stop, ?_, left⟩
    rw [List.cons_append, greedy, if_pos here]
    exact List.mem_append_left _ reached

/-- Whatever a plain pattern denotes is matched by one of its ways. -/
theorem ways_complete {r : Regex C} (plain : r.Plain) {text rest : List C}
    (denoted : r.Denotes text) (cursor : Cursor C) (split : cursor.rest = text ++ rest) :
    ∃ stop ∈ r.ways cursor, stop.rest = rest := by
  induction r generalizing text rest cursor with
  | empty =>
    obtain rfl : text = [] := denoted
    exact ⟨cursor, List.mem_singleton_self cursor, split⟩
  | one member =>
    obtain ⟨c, holds, rfl⟩ := denoted
    exact ⟨⟨some c, rest, cursor.groups⟩, by simp [ways, split, holds], rfl⟩
  | many member =>
    obtain ⟨stop, reached, left⟩ := greedy_complete denoted cursor.before rest
    refine ⟨⟨stop.1, stop.2, cursor.groups⟩, ?_, left⟩
    rw [ways, split]
    exact List.mem_map.mpr ⟨stop, reached, rfl⟩
  | seq first second leads follows =>
    obtain ⟨front, back, rfl, opening, closing⟩ := denoted
    obtain ⟨middle, start, between⟩ := leads plain.1 opening cursor
      (split.trans (List.append_assoc ..))
    obtain ⟨stop, reached, left⟩ := follows plain.2 closing middle between
    exact ⟨stop, List.mem_flatMap.mpr ⟨middle, start, reached⟩, left⟩
  | either first second left right =>
    obtain early | late := denoted
    · obtain ⟨stop, reached, left⟩ := left plain.1 early cursor split
      exact ⟨stop, List.mem_append_left _ reached, left⟩
    · obtain ⟨stop, reached, left⟩ := right plain.2 late cursor split
      exact ⟨stop, List.mem_append_right _ reached, left⟩
  | group index inner inductionHypothesis =>
    obtain ⟨stop, reached, left⟩ := inductionHypothesis plain denoted cursor split
    exact ⟨_, List.mem_map.mpr ⟨stop, reached, rfl⟩, left⟩
  | boundary word | finish => exact plain.elim

theorem fullMatch_iff {r : Regex C} (plain : r.Plain) (text : List C) :
    r.fullMatch text = true ↔ r.Denotes text := by
  rw [fullMatch, List.any_eq_true]
  constructor
  · rintro ⟨stop, reached, ended⟩
    obtain ⟨matched, split, denoted, -⟩ := r.ways_consumes reached
    rw [List.isEmpty_iff.mp ended, List.append_nil] at split
    obtain rfl : text = matched := split
    exact denoted
  · intro denoted
    obtain ⟨stop, reached, left⟩ :=
      ways_complete plain denoted ⟨none, text, []⟩ (List.append_nil text).symm
    exact ⟨stop, reached, by rw [left]; rfl⟩

theorem Within.imp {inside outside : C → Prop} {r : Regex C} (within : r.Within inside)
    (widens : ∀ c, inside c → outside c) : r.Within outside := by
  induction r with
  | empty | boundary word | finish => trivial
  | one member | many member => exact fun c holds => widens c (within c holds)
  | seq first second leads follows => exact ⟨leads within.1, follows within.2⟩
  | either first second left right => exact ⟨left within.1, right within.2⟩
  | group index inner inductionHypothesis => exact inductionHypothesis within

/-! ## Characters in order -/

/-- One character of each class denotes the texts of such characters. -/
theorem denotes_ones {members : List (C → Bool)} {text : List C} :
    (inOrder (members.map .one)).Denotes text ↔
      List.Forall₂ (fun member c => member c = true) members text := by
  induction members generalizing text with
  | nil => exact List.forall₂_nil_left_iff.symm
  | cons member members inductionHypothesis =>
    have both : (inOrder ((member :: members).map .one)).Denotes text ↔
        ∃ front back, text = front ++ back ∧ (one member).Denotes front ∧
          (inOrder (members.map .one)).Denotes back := by
      cases members with
      | nil => simp [inOrder, Denotes]
      | cons next rest => rfl
    rw [both, List.forall₂_cons_left_iff]
    constructor
    · rintro ⟨-, back, rfl, ⟨c, holds, rfl⟩, later⟩
      exact ⟨c, back, holds, inductionHypothesis.mp later, rfl⟩
    · rintro ⟨c, back, holds, later, rfl⟩
      exact ⟨[c], back, rfl, ⟨c, holds, rfl⟩, inductionHypothesis.mpr later⟩

theorem plain_ones (members : List (C → Bool)) : (inOrder (members.map .one)).Plain := by
  induction members with
  | nil => trivial
  | cons member members inductionHypothesis =>
    cases members with
    | nil => trivial
    | cons next rest => exact ⟨trivial, inductionHypothesis⟩

theorem within_ones {inside : C → Prop} {members : List (C → Bool)}
    (each : ∀ member ∈ members, ∀ c, member c = true → inside c) :
    (inOrder (members.map .one)).Within inside := by
  induction members with
  | nil => trivial
  | cons member members inductionHypothesis =>
    obtain ⟨here, later⟩ := List.forall_mem_cons.mp each
    cases members with
    | nil => exact here
    | cons next rest => exact ⟨here, inductionHypothesis later⟩

section Words

variable (word : C → Bool)

/-- The words of a text, with an empty one wherever other characters meet. -/
def words (text : List C) : List (List C) := text.splitOnP fun c => !word c

variable {word}

theorem words_other {c : C} (other : word c = false) (rest : List C) :
    words word (c :: rest) = [] :: words word rest := by
  simp [words, List.splitOnP_cons_eq_if_modifyHead, other]

theorem words_letter {c : C} (letter : word c = true) (rest : List C) :
    words word (c :: rest) = (words word rest).modifyHead (c :: ·) := by
  simp [words, List.splitOnP_cons_eq_if_modifyHead, letter]

/-- The first word is what the text begins with. -/
theorem words_head (text : List C) :
    words word text = text.takeWhile word :: (words word text).tail := by
  induction text with
  | nil => simp [words]
  | cons c rest inductionHypothesis =>
    cases letter : word c with
    | false => rw [words_other letter, List.takeWhile_cons_of_neg (by simp [letter]), List.tail_cons]
    | true =>
      rw [words_letter letter, List.takeWhile_cons_of_pos letter, inductionHypothesis]
      rfl

/-- The words behind the first do not depend on a letter in front. -/
theorem words_tail {c : C} (letter : word c = true) (rest : List C) :
    (words word (c :: rest)).tail = (words word rest).tail := by
  rw [words_letter letter, words_head rest]
  rfl

theorem words_congr {other : C → Bool} {text : List C} (same : ∀ c ∈ text, word c = other c) :
    words word text = words other text := by
  induction text with
  | nil => rfl
  | cons c rest inductionHypothesis =>
    obtain ⟨here, later⟩ := List.forall_mem_cons.mp same
    cases letter : word c with
    | false =>
      rw [words_other letter, words_other (here ▸ letter), inductionHypothesis later]
    | true =>
      rw [words_letter letter, words_letter (here ▸ letter), inductionHypothesis later]

/-! ## Finding a whole word -/

variable (word)

/-- The pattern between two boundaries, captured as a group. -/
def wholeWord (index : Nat) (inner : Regex C) : Regex C :=
  .inOrder [.boundary word, .group index inner, .boundary word]

variable {word}

/-- What is matched is a nonempty run of word characters. -/
structure MatchesWords (word : C → Bool) (inner : Regex C) : Prop where
  plain : inner.Plain
  within : inner.Within fun c => word c = true
  nonempty : ¬ inner.Denotes []

theorem mem_boundary {cursor stop : Cursor C} :
    stop ∈ (boundary word).ways cursor ↔
      cursor.before.any word ≠ cursor.rest.head?.any word ∧ stop = cursor := by
  simp only [ways]
  split
  · next differ => simp [differ]
  · next same => simp [same]

/-- A run of word characters in front of something else is the first word. -/
theorem takeWhile_word {token rest : List C} (letters : ∀ c ∈ token, word c = true)
    (stops : rest.head?.any word = false) : (token ++ rest).takeWhile word = token := by
  rw [List.takeWhile_append_of_pos letters]
  cases rest with
  | nil => simp
  | cons c rest =>
    have other : word c = false := stops
    rw [List.takeWhile_cons_of_neg (by simp [other]), List.append_nil]

theorem head_word {token rest : List C} (letters : ∀ c ∈ token, word c = true)
    (present : token ≠ []) : (token ++ rest).head?.any word = true := by
  obtain ⟨c, others, rfl⟩ := List.exists_cons_of_ne_nil present
  exact letters c List.mem_cons_self

/-- A match of a whole word starts at its first character and takes all of it. -/
theorem mem_wholeWord {index : Nat} {inner : Regex C} (whole : MatchesWords word inner)
    {before : Option C} {text : List C} {found : Cursor C}
    (reached : found ∈ (wholeWord word index inner).ways ⟨before, text, []⟩) :
    before.any word = false ∧ inner.Denotes (text.takeWhile word) ∧
      found.group index = some (text.takeWhile word) := by
  obtain ⟨start, opened, later⟩ := List.mem_flatMap.mp reached
  obtain ⟨stop, captured, closed⟩ := List.mem_flatMap.mp later
  obtain ⟨opening, rfl⟩ := mem_boundary.mp opened
  obtain ⟨closing, rfl⟩ := mem_boundary.mp closed
  obtain ⟨inside, matched, rfl⟩ := List.mem_map.mp captured
  obtain ⟨token, split, denoted, last⟩ := inner.ways_consumes matched
  have letters := inner.denotes_within whole.within denoted
  have present : token ≠ [] := by
    rintro rfl
    exact whole.nonempty denoted
  have ends : inside.before.any word = true := by
    rw [last, List.getLast?_eq_some_getLast present, Option.some_or]
    exact letters _ (List.getLast_mem present)
  have stops : inside.rest.head?.any word = false := by
    simpa [ends] using closing
  obtain rfl : text = token ++ inside.rest := split
  rw [takeWhile_word letters stops]
  refine ⟨?_, denoted, ?_⟩
  · have begins : before.any word ≠ true := head_word letters present ▸ opening
    exact Bool.not_eq_true _ ▸ begins
  · simp [Cursor.group]

/-- Where a word begins that the pattern denotes there is a match. -/
theorem exists_wholeWord (index : Nat) {inner : Regex C} (whole : MatchesWords word inner)
    {before : Option C} {text : List C} (outside : before.any word = false)
    (denoted : inner.Denotes (text.takeWhile word)) :
    ∃ found, found ∈ (wholeWord word index inner).ways ⟨before, text, []⟩ := by
  have letters := inner.denotes_within whole.within denoted
  have present : text.takeWhile word ≠ [] := by
    intro none
    exact whole.nonempty (none ▸ denoted)
  have split : text = text.takeWhile word ++ text.dropWhile word :=
    List.takeWhile_append_dropWhile.symm
  obtain ⟨stop, matched, left⟩ := ways_complete whole.plain denoted ⟨before, text, []⟩ split
  have begins : text.head?.any word = true := by
    rw [split]
    exact head_word letters present
  have ends : stop.before.any word = true := by
    obtain ⟨token, same, -, last⟩ := inner.ways_consumes matched
    rw [left] at same
    obtain rfl := List.append_cancel_right (same.symm.trans split)
    rw [last, List.getLast?_eq_some_getLast present, Option.some_or]
    exact letters _ (List.getLast_mem present)
  have stops : stop.rest.head?.any word = false := by
    rw [left]
    cases rest : text.dropWhile word with
    | nil => rfl
    | cons c others =>
      have other := List.head?_dropWhile_not word text
      rw [rest] at other
      simpa using other
  refine ⟨_, List.mem_flatMap.mpr ⟨_, mem_boundary.mpr ⟨?_, rfl⟩, List.mem_flatMap.mpr
    ⟨_, List.mem_map.mpr ⟨stop, matched, rfl⟩, mem_boundary.mpr ⟨?_, rfl⟩⟩⟩⟩
  · simp [outside, begins]
  · simp [ends, stops]

/-- The match at a place outside of words is that of the word that begins there. -/
theorem matchAt_wholeWord {index : Nat} {inner : Regex C} (whole : MatchesWords word inner)
    (before : Option C) (text : List C) :
    ((wholeWord word index inner).matchAt before text).map (·.group index) =
      if before.any word = false ∧ inner.fullMatch (text.takeWhile word) = true then
        some (some (text.takeWhile word))
      else none := by
  have good := fullMatch_iff whole.plain (text.takeWhile word)
  cases matched : (wholeWord word index inner).matchAt before text with
  | some found =>
    obtain ⟨outside, denoted, captured⟩ := mem_wholeWord whole (matchAt_ways matched)
    rw [if_pos ⟨outside, good.mpr denoted⟩, Option.map_some, captured]
  | none =>
    rw [if_neg]
    · rfl
    · rintro ⟨outside, denoted⟩
      obtain ⟨found, reached⟩ := exists_wholeWord index whole outside (good.mp denoted)
      rw [List.head?_eq_none_iff.mp matched] at reached
      cases reached

/-- The search finds the first word that the pattern matches, past the word that it starts
in. -/
theorem search_after {index : Nat} {inner : Regex C} (whole : MatchesWords word inner)
    (before : Option C) (text : List C) :
    ((wholeWord word index inner).search before text).map (·.group index) =
      ((if before.any word then (words word text).tail else words word text).find?
        inner.fullMatch).map some := by
  have empty : inner.fullMatch [] = false := by
    rw [← Bool.not_eq_true, fullMatch_iff whole.plain]
    exact whole.nonempty
  induction text generalizing before with
  | nil =>
    rw [search, matchAt_wholeWord whole]
    cases before.any word <;> simp [words, empty]
  | cons c rest inductionHypothesis =>
    rw [search, Option.map_or, matchAt_wholeWord whole, inductionHypothesis, Option.any_some]
    cases letter : word c with
    | false =>
      rw [List.takeWhile_cons_of_neg (by simp [letter]), empty, words_other letter]
      cases before.any word <;> simp [empty]
    | true =>
      rw [words_tail letter, words_head (c :: rest), words_tail letter]
      cases before.any word with
      | true => simp
      | false => cases good : inner.fullMatch ((c :: rest).takeWhile word) <;> simp [good]

/-- The search in a text finds the first of its words that the pattern matches. -/
theorem search_wholeWord {index : Nat} {inner : Regex C} (whole : MatchesWords word inner)
    (text : List C) :
    ((wholeWord word index inner).search none text).map (·.group index) =
      ((words word text).find? inner.fullMatch).map some :=
  search_after whole none text

end Words

end Regex
