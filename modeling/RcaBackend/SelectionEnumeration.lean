import RcaBackend.SelectionTurns

/-!
# The selection as an enumeration

The elements of the groups are enumerated by their place within the group and then by
the number of the group. Taking turns reads this enumeration up to the limit. When the
loop ends, the cursors of the groups differ by at most one, and the cursors that are ahead
are those of the first groups.
-/

namespace RcaBackend

open Columns

/-! ## The enumeration -/

/-- The order of the cells. -/
def precedes (a b : (Nat ×ₗ Nat) × Nat) : Bool := decide (a.1 ≤ b.1)

/-- All elements, by place within the group and then by group. -/
def columnMajor (groups : List (List Nat)) : List Nat :=
  ((labels 0 groups).flatten.mergeSort precedes).map Prod.snd

/-- The columns are sorted already. -/
theorem columnMajor_eq (groups : List (List Nat)) : columnMajor groups = columns groups := by
  have transitive : ∀ a b c, precedes a b = true → precedes b c = true → precedes a c = true := by
    intro a b c before after
    exact decide_eq_true (le_trans (of_decide_eq_true before) (of_decide_eq_true after))
  have total : ∀ a b, (precedes a b || precedes b a) = true := by
    intro a b
    simpa [precedes] using le_total a.1 b.1
  have sorted := List.pairwise_mergeSort transitive total (labels 0 groups).flatten
  have placed := (columns_perm (labels 0 groups)).trans (List.mergeSort_perm _ precedes).symm
  have strict := columns_labels_sorted groups
  have cells : ((columns (labels 0 groups)).map Prod.fst).Nodup := by
    rw [List.Nodup, List.pairwise_map]
    exact strict.imp ne_of_lt
  have distinct : ∀ a b, a ∈ columns (labels 0 groups) →
      b ∈ (labels 0 groups).flatten.mergeSort precedes → precedes a b = true →
      precedes b a = true → a = b := by
    intro a b here there before after
    apply List.inj_on_of_nodup_map cells here (placed.mem_iff.mpr there)
    exact le_antisymm (of_decide_eq_true before) (of_decide_eq_true after)
  have weak := strict.imp fun before => decide_eq_true (le_of_lt before)
  rw [columnMajor, ← List.Perm.eq_of_pairwise distinct weak sorted placed, ← columns_map,
    labels_values]

/-! ## The cursors -/

/-- The state in which the loop ends. -/
def lastPass (limit : Int) : Nat → Pass → Pass
  | 0, pass => pass
  | fuel + 1, pass =>
    if pass.advanced ∧ (pass.picked.length : Int) < limit then
      lastPass limit fuel (passOver limit pass.picked pass.groups)
    else pass

/-- The last state of `_round_robin`. -/
def roundRobinEnd (groups : List (List Nat)) (limit : Int) : Pass :=
  lastPass limit (groups.flatten.length + 2) ⟨[], groups, true⟩

theorem passes_lastPass (limit : Int) (fuel : Nat) (pass : Pass) :
    passes limit fuel pass = (lastPass limit fuel pass).picked := by
  induction fuel generalizing pass with
  | zero => rfl
  | succ fuel inductionHypothesis =>
    rw [passes, lastPass]
    split
    · exact inductionHypothesis _
    · rfl

/-- A pass advances the cursors of the first groups, of all of them unless it reaches the
limit. -/
theorem passOver_cursors (limit : Int) (picked : List Nat) (groups : List (List Nat)) :
    ∃ split, (passOver limit picked groups).groups = tails (groups.take split) ++ groups.drop split ∧
      (passOver limit picked groups).picked = picked ++ heads (groups.take split) ∧
      (split < groups.length → limit ≤ (passOver limit picked groups).picked.length) := by
  induction groups generalizing picked with
  | nil => exact ⟨0, by simp [passOver, tails], by simp [passOver, heads], by simp⟩
  | cons group groups inductionHypothesis =>
    cases group with
    | nil =>
      obtain ⟨split, rest, taken, early⟩ := inductionHypothesis picked
      refine ⟨split + 1, ?_, ?_, ?_⟩
      · simp [passOver, rest, tails]
      · simpa [passOver, heads, List.filterMap_cons] using taken
      · intro before
        exact early (by simpa using before)
    | cons position group =>
      rw [passOver]
      by_cases full : limit ≤ (picked ++ [position]).length
      · rw [if_pos full]
        exact ⟨1, by simp [tails], by simp [heads], fun _ => full⟩
      · obtain ⟨split, rest, taken, early⟩ := inductionHypothesis (picked ++ [position])
        rw [if_neg full]
        refine ⟨split + 1, ?_, ?_, ?_⟩
        · simp [rest, tails]
        · simp [taken, heads]
        · intro before
          exact early (by simpa using before)

/-- What the first groups hold beyond `k + 1` elements and the other ones beyond `k`. -/
def remaining (k split : Nat) (groups : List (List Nat)) : List (List Nat) :=
  (groups.take split).map (List.drop (k + 1)) ++ (groups.drop split).map (List.drop k)

theorem remaining_zero (k : Nat) (groups : List (List Nat)) :
    remaining k 0 groups = groups.map (List.drop k) := by
  simp [remaining]

/-- The loop keeps the cursors together until it ends. -/
theorem lastPass_cursors (limit : Int) (groups : List (List Nat)) (fuel : Nat) {pass : Pass}
    {k : Nat} (together : pass.groups = groups.map (List.drop k)) :
    ∃ k split, (lastPass limit fuel pass).groups = remaining k split groups := by
  induction fuel generalizing pass k with
  | zero => exact ⟨k, 0, by rw [remaining_zero, lastPass, together]⟩
  | succ fuel inductionHypothesis =>
    rw [lastPass]
    split
    case isFalse => exact ⟨k, 0, by rw [remaining_zero, together]⟩
    case isTrue =>
      obtain ⟨split, rest, -, early⟩ := passOver_cursors limit pass.picked pass.groups
      have moved : (passOver limit pass.picked pass.groups).groups = remaining k split groups := by
        rw [rest, together, remaining, tails]
        simp [← List.map_take, ← List.map_drop, Function.comp_def, List.tail_drop]
      by_cases all : split < pass.groups.length
      · -- the limit was reached within this pass, which is then the last one
        have reached := early all
        refine ⟨k, split, ?_⟩
        cases fuel with
        | zero => exact moved
        | succ fuel =>
          rw [lastPass, if_neg]
          · exact moved
          · rintro ⟨-, below⟩
            omega
      · have whole : groups.length ≤ split := by simpa [together] using all
        apply inductionHypothesis (k := k + 1)
        rw [moved, remaining, List.take_of_length_le whole, List.drop_of_length_le whole]
        simp

/-- Each element is either picked or still ahead of its cursor. -/
theorem passOver_perm (limit : Int) (picked : List Nat) (groups : List (List Nat)) :
    ((passOver limit picked groups).picked ++ (passOver limit picked groups).groups.flatten).Perm
      (picked ++ groups.flatten) := by
  obtain ⟨split, rest, taken, -⟩ := passOver_cursors limit picked groups
  have whole := congrArg List.flatten (List.take_append_drop split groups)
  rw [List.flatten_append] at whole
  rw [rest, taken, List.flatten_append, ← whole, List.append_assoc]
  apply List.Perm.append_left
  rw [← List.append_assoc]
  exact (heads_tails_perm _).append_right _

theorem lastPass_perm (limit : Int) (fuel : Nat) (pass : Pass) :
    ((lastPass limit fuel pass).picked ++ (lastPass limit fuel pass).groups.flatten).Perm
      (pass.picked ++ pass.groups.flatten) := by
  induction fuel generalizing pass with
  | zero => exact List.Perm.refl _
  | succ fuel inductionHypothesis =>
    rw [lastPass]
    split
    · exact (inductionHypothesis _).trans (passOver_perm limit pass.picked pass.groups)
    · exact List.Perm.refl _

/-- A pass that advances picks something. -/
theorem passOver_advances {limit : Int} {picked : List Nat} {groups : List (List Nat)}
    (advanced : (passOver limit picked groups).advanced = true) :
    picked.length < (passOver limit picked groups).picked.length := by
  induction groups generalizing picked with
  | nil => simp [passOver] at advanced
  | cons group groups inductionHypothesis =>
    cases group with
    | nil => exact inductionHypothesis advanced
    | cons position group =>
      obtain ⟨split, -, taken, -⟩ := passOver_cursors limit (picked ++ [position]) groups
      rw [passOver]
      split
      · simp
      · simp only [taken, List.length_append, List.length_cons, List.length_nil]
        omega

/-- The loop is left by its condition. -/
theorem lastPass_halts (limit : Int) (fuel : Nat) {pass : Pass}
    (enough : pass.groups.flatten.length + 2 ≤ fuel) :
    ¬ ((lastPass limit fuel pass).advanced = true ∧
      ((lastPass limit fuel pass).picked.length : Int) < limit) := by
  induction fuel generalizing pass with
  | zero => omega
  | succ fuel inductionHypothesis =>
    rw [lastPass]
    split
    case isFalse stopped => exact stopped
    case isTrue =>
      by_cases advanced : (passOver limit pass.picked pass.groups).advanced = true
      · have more := passOver_advances advanced
        have kept := (passOver_perm limit pass.picked pass.groups).length_eq
        rw [List.length_append, List.length_append] at kept
        apply inductionHypothesis
        omega
      · obtain ⟨fuel, rfl⟩ : ∃ smaller, fuel = smaller + 1 := ⟨fuel - 1, by omega⟩
        rw [lastPass, if_neg fun further => advanced further.1]
        exact fun further => advanced further.1

/-! ## The contributions -/

/-- The first `k + 1` elements of the first groups and the first `k` of the other ones. -/
def contributed (k split : Nat) (groups : List (List Nat)) : List (List Nat) :=
  (groups.take split).map (List.take (k + 1)) ++ (groups.drop split).map (List.take k)

theorem take_drop_joined (count : Nat) (groups : List (List Nat)) :
    List.zipWith (· ++ ·) (groups.map (List.take count)) (groups.map (List.drop count)) = groups := by
  induction groups with
  | nil => rfl
  | cons group groups inductionHypothesis =>
    simp only [List.map_cons, List.zipWith_cons_cons, List.take_append_drop, inductionHypothesis]

theorem contributed_remaining (k split : Nat) (groups : List (List Nat)) :
    List.zipWith (· ++ ·) (contributed k split groups) (remaining k split groups) = groups := by
  have sizes : ((groups.take split).map (List.take (k + 1))).length =
      ((groups.take split).map (List.drop (k + 1))).length := by simp
  rw [contributed, remaining, List.zipWith_append sizes, take_drop_joined, take_drop_joined,
    List.take_append_drop]

theorem contributed_getElem? {k split number : Nat} {groups : List (List Nat)} {group : List Nat}
    (there : groups[number]? = some group) :
    (contributed k split groups)[number]? =
      some (group.take (if number < split then k + 1 else k)) := by
  obtain ⟨inside, -⟩ := List.getElem?_eq_some_iff.mp there
  rw [contributed]
  by_cases early : number < split
  · rw [List.getElem?_append_left (by simp; omega), List.getElem?_map, List.getElem?_take,
      if_pos early, if_pos early, there]
    rfl
  · have before : (groups.take split).length = split := by
      rw [List.length_take]
      omega
    rw [List.getElem?_append_right (by simp; omega), List.getElem?_map, List.length_map, before,
      List.getElem?_drop, Nat.add_sub_cancel' (by omega), if_neg early, there]
    rfl

/-- What is joined element by element is joined as a whole, up to the order. -/
theorem zipWith_flatten_perm {parts rests : List (List Nat)} (sizes : parts.length = rests.length) :
    (List.zipWith (· ++ ·) parts rests).flatten.Perm (parts.flatten ++ rests.flatten) := by
  induction parts generalizing rests with
  | nil =>
    obtain rfl := List.length_eq_zero_iff.mp sizes.symm
    exact List.Perm.refl _
  | cons part parts inductionHypothesis =>
    obtain ⟨rest, rests, rfl⟩ := List.exists_cons_of_length_eq_add_one sizes.symm
    have later := inductionHypothesis (Nat.succ.inj sizes)
    simp only [List.zipWith_cons_cons, List.flatten_cons, List.append_assoc]
    apply List.Perm.append_left
    apply (List.Perm.append_left _ later).trans
    rw [← List.append_assoc, ← List.append_assoc]
    exact List.perm_append_comm.append_right _

/-- Taking turns reads the enumeration of the groups by place and group up to the limit. Each
group contributes a prefix; the contributions have `k` elements or all, and those of the first
groups have one more. -/
theorem roundRobin_columnMajor (groups : List (List Nat)) (limit : Int) :
    ¬ ((roundRobinEnd groups limit).advanced = true ∧
        ((roundRobinEnd groups limit).picked.length : Int) < limit) ∧
      (roundRobinEnd groups limit).picked = roundRobin groups limit ∧
      roundRobin groups limit = (columnMajor groups).take limit.toNat ∧
      (roundRobin groups limit).length = min limit.toNat groups.flatten.length ∧
      (∃ (k split : Nat) (parts : List (List Nat)), parts.flatten.Perm (roundRobin groups limit) ∧
        List.zipWith (· ++ ·) parts (roundRobinEnd groups limit).groups = groups ∧
        ∀ number group, groups[number]? = some group →
          ∃ part, parts[number]? = some part ∧ part <+: group ∧
            part.length = min group.length (if number < split then k + 1 else k)) ∧
      ∀ more, limit ≤ more → roundRobin groups limit <+: roundRobin groups more := by
  have last : (roundRobinEnd groups limit).picked = roundRobin groups limit :=
    (passes_lastPass limit _ _).symm
  refine ⟨lastPass_halts limit _ (Nat.le_refl _), last, ?_, roundRobin_length groups limit, ?_, ?_⟩
  · rw [roundRobin_eq, columnMajor_eq]
  · have started : (⟨[], groups, true⟩ : Pass).groups = groups.map (List.drop 0) :=
      (List.map_id groups).symm
    obtain ⟨k, split, rests⟩ := lastPass_cursors limit groups (groups.flatten.length + 2) started
    have joined := contributed_remaining k split groups
    have sizes : (contributed k split groups).length = (remaining k split groups).length := by
      simp [contributed, remaining]
    have whole := lastPass_perm limit (groups.flatten.length + 2) ⟨[], groups, true⟩
    rw [rests] at whole
    have parted := zipWith_flatten_perm sizes
    rw [joined] at parted
    refine ⟨k, split, contributed k split groups, ?_, ?_, ?_⟩
    · rw [← last]
      exact (List.perm_append_right_iff _).mp (parted.symm.trans whole.symm)
    · rw [roundRobinEnd, rests, joined]
    · intro number group there
      refine ⟨_, contributed_getElem? there, List.take_prefix _ _, ?_⟩
      rw [List.length_take, Nat.min_comm]
  · intro more further
    have shorter : min limit.toNat more.toNat = limit.toNat := by omega
    rw [roundRobin_eq, roundRobin_eq, ← shorter, ← List.take_take]
    exact List.take_prefix _ _

end RcaBackend
