import RcaBackend.SignalSelector

/-!
# What the selection takes from its groups

Taking turns reads a prefix of the groups' columns. So the selection has the size that
the limit allows, and no position twice; and if no group is empty, a group contributes
exactly if it is among the first `limit` ones, and then its first item is taken.
-/

namespace RcaBackend

open Columns

theorem passOver_picked (limit : Int) (picked : List Nat) (groups : List (List Nat))
    (below : (picked.length : Int) < limit) :
    (passOver limit picked groups).picked =
      picked ++ (heads groups).take (limit.toNat - picked.length) := by
  induction groups generalizing picked with
  | nil => simp [passOver, heads]
  | cons group groups inductionHypothesis =>
    cases group with
    | nil =>
      rw [passOver]
      exact inductionHypothesis picked below
    | cons position group =>
      have room : limit.toNat - picked.length = limit.toNat - (picked.length + 1) + 1 := by omega
      rw [passOver, heads, List.filterMap_cons, List.head?_cons, room, List.take_succ_cons]
      by_cases full : limit ≤ (picked ++ [position]).length
      · have none : limit.toNat - (picked.length + 1) = 0 := by
          simp only [List.length_append, List.length_cons, List.length_nil] at full
          omega
        rw [if_pos full, none, List.take_zero]
      · have next := inductionHypothesis (picked ++ [position]) (by omega)
        rw [if_neg full]
        simp only [List.length_append, List.length_cons, List.length_nil] at next
        rw [next, heads, List.append_assoc, List.singleton_append]

theorem passOver_rest (limit : Int) (picked : List Nat) (groups : List (List Nat))
    (below : ((picked.length + (heads groups).length : Nat) : Int) < limit) :
    (passOver limit picked groups).groups = tails groups ∧
      ((passOver limit picked groups).advanced = true ↔ heads groups ≠ []) := by
  induction groups generalizing picked with
  | nil => simp [passOver, heads, tails]
  | cons group groups inductionHypothesis =>
    cases group with
    | nil =>
      obtain ⟨rest, advanced⟩ := inductionHypothesis picked below
      constructor
      · simp [passOver, rest, tails]
      · simpa [passOver, heads] using advanced
    | cons position group =>
      simp only [heads, List.filterMap_cons, List.head?_cons, List.length_cons] at below
      have room : ¬ limit ≤ (picked ++ [position]).length := by
        simp only [List.length_append, List.length_cons, List.length_nil]
        omega
      have next := inductionHypothesis (picked ++ [position]) (by
        simp only [heads, List.length_append, List.length_cons, List.length_nil]
        omega)
      rw [passOver, if_neg room]
      constructor
      · simp [next.1, tails]
      · simp [heads]

/-- Without heads there is nothing left. -/
theorem columns_of_no_heads {groups : List (List Nat)} (none : heads groups = []) :
    groups.flatten = [] ∧ columns groups = [] := by
  have empty : groups.flatten = [] := by
    rw [List.flatten_eq_nil_iff]
    intro group member
    rw [heads, List.filterMap_eq_nil_iff] at none
    exact List.head?_eq_none_iff.mp (none group member)
  constructor
  · exact empty
  · have same := columns_perm groups
    rw [empty] at same
    exact same.eq_nil

/-- The loop reads the columns up to the limit. Each pass that takes something leaves
fewer items; the pass that takes nothing, or reaches the limit, is the last. -/
theorem passes_eq (limit : Int) (fuel : Nat) (pass : Pass)
    (enough : pass.groups.flatten.length + 2 ≤ fuel)
    (stopped : pass.advanced = false → pass.groups.flatten = []) :
    passes limit fuel pass =
      pass.picked ++ (columns pass.groups).take (limit.toNat - pass.picked.length) := by
  induction fuel generalizing pass with
  | zero => omega
  | succ fuel inductionHypothesis =>
    rw [passes]
    by_cases continues : pass.advanced = true ∧ (pass.picked.length : Int) < limit
    · rw [if_pos continues]
      have picked := passOver_picked limit pass.picked pass.groups continues.2
      have split := columns_eq pass.groups
      have sizes := (heads_tails_perm pass.groups).length_eq
      rw [List.length_append] at sizes
      by_cases reached : limit ≤ ((pass.picked.length + (heads pass.groups).length : Nat) : Int)
      · -- the limit is reached within this pass
        have done : ¬ ((passOver limit pass.picked pass.groups).picked.length : Int) < limit := by
          rw [picked, List.length_append, List.length_take]
          omega
        obtain ⟨fuel, rfl⟩ : ∃ smaller, fuel = smaller + 1 := ⟨fuel - 1, by omega⟩
        rw [passes, if_neg (fun further => done further.2), picked, split,
          List.take_append_of_le_length]
        omega
      · obtain ⟨rest, advanced⟩ := passOver_rest limit pass.picked pass.groups (by omega)
        have all : (heads pass.groups).take (limit.toNat - pass.picked.length) =
            heads pass.groups := List.take_of_length_le (by omega)
        rw [all] at picked
        by_cases none : heads pass.groups = []
        · obtain ⟨-, empty⟩ := columns_of_no_heads none
          have halted : ¬ (passOver limit pass.picked pass.groups).advanced = true :=
            fun moved => advanced.mp moved none
          obtain ⟨fuel, rfl⟩ : ∃ smaller, fuel = smaller + 1 := ⟨fuel - 1, by omega⟩
          rw [passes, if_neg (fun further => halted further.1), picked, none, empty]
          simp
        · have positive : 0 < (heads pass.groups).length := List.length_pos_iff.mpr none
          have next := inductionHypothesis (passOver limit pass.picked pass.groups)
            (by rw [rest]; omega)
            (fun idle => absurd (advanced.mpr none) (by simp [idle]))
          have remaining : limit.toNat - pass.picked.length =
              (heads pass.groups).length +
                (limit.toNat - (pass.picked.length + (heads pass.groups).length)) := by omega
          rw [next, rest, picked, split, List.append_assoc, remaining, List.take_length_add_append,
            List.length_append]
    · rw [if_neg continues]
      cases moved : pass.advanced with
      | true =>
        have full : limit.toNat - pass.picked.length = 0 := by
          have reached : ¬ (pass.picked.length : Int) < limit := fun below =>
            continues ⟨moved, below⟩
          omega
        rw [full, List.take_zero, List.append_nil]
      | false =>
        have same := columns_perm pass.groups
        rw [stopped moved] at same
        rw [same.eq_nil, List.take_nil, List.append_nil]

/-- Taking turns reads the columns of the groups up to the limit. -/
theorem roundRobin_eq (groups : List (List Nat)) (limit : Int) :
    roundRobin groups limit = (columns groups).take limit.toNat := by
  have known := passes_eq limit (groups.flatten.length + 2) ⟨[], groups, true⟩ (Nat.le_refl _)
    (fun impossible => by simp at impossible)
  simpa [roundRobin] using known

theorem roundRobin_length (groups : List (List Nat)) (limit : Int) :
    (roundRobin groups limit).length = min limit.toNat groups.flatten.length := by
  rw [roundRobin_eq, List.length_take, (columns_perm groups).length_eq]

/-- What is picked is picked as often as the groups hold it. -/
theorem roundRobin_sublist (groups : List (List Nat)) (limit : Int) :
    (roundRobin groups limit).Subperm groups.flatten := by
  rw [roundRobin_eq]
  exact (List.take_sublist _ _).subperm.trans (columns_perm groups).subperm

/-! ## Which groups contribute -/

/-- The head of a group that is early enough is picked. -/
theorem head_picked {groups : List (List Nat)} (inhabited : ∀ group ∈ groups, group ≠ [])
    {limit : Int} {place : Nat} {group : List Nat} (there : groups[place]? = some group)
    (early : (place : Int) < limit) {position : Nat} (head : group.head? = some position) :
    position ∈ roundRobin groups limit := by
  have found : (heads groups)[place]? = some position := by
    rw [heads_getElem? inhabited, there, Option.bind_some, head]
  obtain ⟨inside, value⟩ := List.getElem?_eq_some_iff.mp found
  rw [roundRobin_eq, columns_eq, List.take_append]
  apply List.mem_append_left
  rw [List.mem_take_iff_getElem]
  exact ⟨place, by omega, value⟩

/-- Nothing of a group that is not early enough is picked. -/
theorem late_not_picked {groups : List (List Nat)} (inhabited : ∀ group ∈ groups, group ≠ [])
    (distinct : groups.flatten.Nodup) {limit : Int} {place : Nat} {group : List Nat}
    (there : groups[place]? = some group) (late : limit ≤ (place : Int)) {position : Nat}
    (member : position ∈ group) : position ∉ roundRobin groups limit := by
  intro picked
  have many := heads_length inhabited
  obtain ⟨within, -⟩ := List.getElem?_eq_some_iff.mp there
  rw [roundRobin_eq, columns_eq, List.take_append_of_le_length (by omega),
    List.mem_take_iff_getElem] at picked
  obtain ⟨other, earlier, value⟩ := picked
  have bound : other < (heads groups).length := by omega
  have found : (heads groups)[other]? = some position := by
    rw [List.getElem?_eq_getElem bound, value]
  rw [heads_getElem? inhabited, Option.bind_eq_some_iff] at found
  obtain ⟨first, here, head⟩ := found
  have apart := (List.nodup_flatten.mp distinct).2
  have ordered := List.pairwise_iff_getElem.mp apart other place (by omega) within (by omega)
  rw [List.getElem?_eq_getElem (by omega)] at here
  rw [List.getElem?_eq_getElem within] at there
  rw [Option.some.inj here, Option.some.inj there] at ordered
  exact ordered (List.mem_of_mem_head? head) member

/-- A group contributes exactly if it is among the first `limit` ones. -/
theorem contributes_iff {groups : List (List Nat)} (inhabited : ∀ group ∈ groups, group ≠ [])
    (distinct : groups.flatten.Nodup) {limit : Int} {place : Nat} {group : List Nat}
    (there : groups[place]? = some group) :
    (∃ position ∈ group, position ∈ roundRobin groups limit) ↔ (place : Int) < limit := by
  constructor
  · rintro ⟨position, member, picked⟩
    by_contra late
    exact late_not_picked inhabited distinct there (by omega) member picked
  · intro early
    obtain ⟨position, rest, rfl⟩ :=
      List.exists_cons_of_ne_nil (inhabited group (List.mem_of_getElem? there))
    exact ⟨position, List.mem_cons_self, head_picked inhabited there early rfl⟩

end RcaBackend
