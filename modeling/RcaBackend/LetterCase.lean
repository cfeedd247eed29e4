import RcaBackend.ReferenceInterpreter

/-!
# Letter case

Texts that differ in the case of ASCII letters have the same lower case. A final sigma is
found by the letters around it, whatever their case.
-/

namespace RcaBackend

open PyRuntime ReferenceInterpreter

/-- Texts that are equal but for the case of ASCII letters. -/
def SameLetters (left right : PyStr) : Prop := asciiLower left = asciiLower right

instance (left right : PyStr) : Decidable (SameLetters left right) :=
  inferInstanceAs (Decidable (asciiLower left = asciiLower right))

/-- What the case mappings of Unicode keep. -/
class CaseLaws [PyRuntime] : Prop where
  /-- the case of the letters around a sigma does not matter -/
  finalSigma_letters : ∀ {before other rest others : PyStr}, SameLetters before other →
    SameLetters rest others → finalSigma before rest = finalSigma other others
  upper_scalar : ∀ c, isSurrogate c = false → ∀ d ∈ upper c, isSurrogate d = false

/-- The interpreter of the tests obeys the laws of case. -/
theorem reference_case : @CaseLaws asciiRuntime := by
  refine @CaseLaws.mk asciiRuntime (by intros; rfl) ?_
  intro c scalar d member
  change d ∈ upperAscii c at member
  rw [upperAscii, List.mem_singleton] at member
  rw [member]
  split
  · simp only [isSurrogate, Bool.and_eq_false_iff, decide_eq_false_iff_not]
    omega
  · exact scalar

/-- Texts have the same letters where their first and their later ones are the same. -/
theorem sameLetters_cons {c d : Nat} {left right : PyStr} :
    SameLetters (c :: left) (d :: right) ↔ SameLetters [c] [d] ∧ SameLetters left right := by
  simp [SameLetters, asciiLower]

/-- So have texts in two parts. -/
theorem sameLetters_append {a b left right : PyStr} (first : SameLetters a b)
    (second : SameLetters left right) : SameLetters (a ++ left) (b ++ right) := by
  rw [SameLetters, asciiLower, asciiLower, List.map_append, List.map_append]
  exact congrArg₂ (· ++ ·) first second

/-- Texts of the same letters are of one length. -/
theorem SameLetters.length_eq {left right : PyStr} (same : SameLetters left right) :
    left.length = right.length := by
  have sizes := congrArg List.length same
  simpa [asciiLower] using sizes

/-- A text with the letters of two texts one after the other is split like them. -/
theorem sameLetters_split {text front back : PyStr} (same : SameLetters text (front ++ back)) :
    ∃ head tail, text = head ++ tail ∧ SameLetters head front ∧ SameLetters tail back := by
  have mapped : asciiLower text = asciiLower front ++ asciiLower back := by
    rw [same, asciiLower, List.map_append]
    rfl
  obtain ⟨head, tail, split, first, second⟩ := List.map_eq_append_iff.mp mapped
  exact ⟨head, tail, split, first, second⟩

/-- A character that is no letter is in either text or in none. -/
theorem mem_of_sameLetters {left right : PyStr} (same : SameLetters left right) {c : Nat}
    (other : ¬ (65 ≤ c ∧ c ≤ 90) ∧ ¬ (97 ≤ c ∧ c ≤ 122)) (member : c ∈ left) : c ∈ right := by
  have here : c ∈ asciiLower left := List.mem_map.mpr ⟨c, member, if_neg other.1⟩
  rw [same] at here
  obtain ⟨d, there, lowered⟩ := List.mem_map.mp here
  split at lowered
  · omega
  · exact lowered ▸ there

section Lower

variable [PyRuntime]

/-- One character that has the letter of another is lowered like it. -/
theorem lower_letters {c d : Nat} (same : SameLetters [c] [d]) : lower c = lower d := by
  simp only [SameLetters, asciiLower, List.map_cons, List.map_nil, List.cons.injEq, and_true]
    at same
  by_cases ascii : c < 128
  · have other : d < 128 := by
      split at same <;> split at same <;> omega
    rw [lower_ascii c ascii, lower_ascii d other, same]
  · have equal : c = d := by
      split at same <;> split at same <;> omega
    rw [equal]

/-- Texts of the same letters have one lower case, in contexts of the same letters. -/
theorem lowerAfter_letters [laws : CaseLaws] {before other left right : PyStr}
    (context : SameLetters before other) (same : SameLetters left right) :
    lowerAfter before left = lowerAfter other right := by
  induction left generalizing before other right with
  | nil =>
    obtain rfl := List.length_eq_zero_iff.mp same.length_eq.symm
    rfl
  | cons c rest inductionHypothesis =>
    obtain ⟨d, others, rfl⟩ := List.exists_cons_of_length_eq_add_one same.length_eq.symm
    obtain ⟨letter, later⟩ := sameLetters_cons.mp same
    have next := inductionHypothesis (sameLetters_append context letter) later
    have sigma : c = 0x3A3 ↔ d = 0x3A3 := by
      simp only [SameLetters, asciiLower, List.map_cons, List.map_nil, List.cons.injEq, and_true]
        at letter
      split at letter <;> split at letter <;> omega
    rw [lowerAfter, lowerAfter, next, laws.finalSigma_letters context later]
    by_cases capital : c = 0x3A3
    · rw [if_pos capital, if_pos (sigma.mp capital)]
    · rw [if_neg capital, if_neg fun equal => capital (sigma.mpr equal), lower_letters letter]

/-- Texts that differ in the case of ASCII letters have one lower case. -/
theorem lowerText_letters [CaseLaws] {left right : PyStr} (same : SameLetters left right) :
    lowerText left = lowerText right :=
  lowerAfter_letters rfl same

/-- The lower case of a text in two parts ends with that of the second one. -/
theorem lowerAfter_append (before front back : PyStr) :
    ∃ lowered, lowerAfter before (front ++ back) = lowered ++ lowerAfter (before ++ front) back := by
  induction front generalizing before with
  | nil => exact ⟨[], by simp⟩
  | cons c rest inductionHypothesis =>
    obtain ⟨lowered, later⟩ := inductionHypothesis (before ++ [c])
    rw [List.append_assoc, List.singleton_append] at later
    rw [List.cons_append, lowerAfter, later, ← List.append_assoc]
    exact ⟨_, rfl⟩

/-- ASCII is lowered letter by letter. -/
theorem lowerAfter_ascii (before : PyStr) {text : PyStr} (ascii : ∀ c ∈ text, c < 128) :
    lowerAfter before text = asciiLower text := by
  induction text generalizing before with
  | nil => rfl
  | cons c rest inductionHypothesis =>
    obtain ⟨here, later⟩ := List.forall_mem_cons.mp ascii
    have sigma : c ≠ 0x3A3 := by omega
    rw [lowerAfter, if_neg sigma, lower_ascii c here, inductionHypothesis _ later]
    rfl

/-- The lower case of a text that ends in ASCII ends in its letters. -/
theorem lowerText_append_ascii (front : PyStr) {back : PyStr} (ascii : ∀ c ∈ back, c < 128) :
    ∃ lowered, lowerText (front ++ back) = lowered ++ asciiLower back := by
  obtain ⟨lowered, split⟩ := lowerAfter_append [] front back
  exact ⟨lowered, by rw [lowerText, split, lowerAfter_ascii _ ascii]⟩

end Lower

end RcaBackend
