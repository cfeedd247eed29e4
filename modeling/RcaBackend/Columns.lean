import Mathlib.Data.List.Basic
import Mathlib.Data.List.Perm.Basic
import Mathlib.Data.Prod.Lex

/-!
# Reading a family of lists column by column

The columns of a family of lists are its first elements, then its second elements,
and so on, each column from the first list to the last one. Lists that are exhausted
are skipped. A reader that takes one column at a time from what is left and stops
after a given number of elements reads a prefix of this enumeration; what it has
read of each list is a prefix of the list.
-/

namespace Columns

variable {α : Type}

/-- The first element of each list that has one. -/
def heads (groups : List (List α)) : List α := groups.filterMap List.head?

/-- What is left of each list. -/
def tails (groups : List (List α)) : List (List α) := groups.map List.tail

/-- The length of the longest list. -/
def longest (groups : List (List α)) : Nat := (groups.map List.length).foldr max 0

/-- Column after column, of a number of columns. -/
def columnsFor : Nat → List (List α) → List α
  | 0, _ => []
  | count + 1, groups => heads groups ++ columnsFor count (tails groups)

/-- All columns. -/
def columns (groups : List (List α)) : List α := columnsFor (longest groups) groups

theorem length_le_longest {groups : List (List α)} {group : List α} (member : group ∈ groups) :
    group.length ≤ longest groups := by
  induction groups with
  | nil => simp at member
  | cons first rest inductionHypothesis =>
    simp only [longest, List.map_cons, List.foldr_cons]
    obtain rfl | later := List.mem_cons.mp member
    · exact Nat.le_max_left _ _
    · exact Nat.le_trans (inductionHypothesis later) (Nat.le_max_right _ _)

theorem longest_tails (groups : List (List α)) : longest (tails groups) = longest groups - 1 := by
  induction groups with
  | nil => rfl
  | cons first rest inductionHypothesis =>
    simp only [longest, tails, List.map_cons, List.foldr_cons, List.length_tail] at *
    omega

/-- Columns past the longest list are empty. -/
theorem columnsFor_enough {groups : List (List α)} {count : Nat}
    (enough : longest groups ≤ count) : columnsFor count groups = columns groups := by
  induction count generalizing groups with
  | zero =>
    have none : longest groups = 0 := by omega
    rw [columns, none]
  | succ count inductionHypothesis =>
    have shorter : longest (tails groups) ≤ count := by
      rw [longest_tails]
      omega
    rw [columns, columnsFor, inductionHypothesis shorter]
    cases size : longest groups with
    | zero =>
      have empty : ∀ group ∈ groups, group = [] := by
        intro group member
        have bound := length_le_longest member
        exact List.length_eq_zero_iff.mp (by omega)
      have noHeads : heads groups = [] := by
        rw [heads, List.filterMap_eq_nil_iff]
        intro group member
        rw [empty group member]
        rfl
      rw [noHeads, columns, longest_tails, size]
      rfl
    | succ more =>
      have rest : longest (tails groups) = more := by
        rw [longest_tails, size]
        omega
      rw [columnsFor, columns, rest]

/-- The columns are the heads and then the columns of what is left. -/
theorem columns_eq (groups : List (List α)) :
    columns groups = heads groups ++ columns (tails groups) := by
  rw [← columnsFor_enough (Nat.le_succ (longest groups)), columnsFor, columnsFor_enough]
  rw [longest_tails]
  omega

/-- An enumeration by columns has the elements of the lists. -/
theorem heads_tails_perm (groups : List (List α)) :
    (heads groups ++ (tails groups).flatten).Perm groups.flatten := by
  induction groups with
  | nil => exact List.Perm.refl _
  | cons first rest inductionHypothesis =>
    cases first with
    | nil => exact inductionHypothesis
    | cons a others =>
      simp only [heads, tails, List.filterMap_cons, List.head?_cons, List.map_cons, List.tail_cons,
        List.flatten_cons, List.cons_append] at inductionHypothesis ⊢
      apply List.Perm.cons a
      have moved : (rest.filterMap List.head? ++ (others ++ (rest.map List.tail).flatten)).Perm
          (others ++ (rest.filterMap List.head? ++ (rest.map List.tail).flatten)) := by
        rw [← List.append_assoc, ← List.append_assoc]
        exact List.Perm.append_right _ List.perm_append_comm
      exact moved.trans (List.Perm.append_left _ inductionHypothesis)

theorem columnsFor_perm {groups : List (List α)} {count : Nat} (enough : longest groups ≤ count) :
    (columnsFor count groups).Perm groups.flatten := by
  induction count generalizing groups with
  | zero =>
    have empty : groups.flatten = [] := by
      rw [List.flatten_eq_nil_iff]
      intro group member
      have bound := length_le_longest member
      exact List.length_eq_zero_iff.mp (by omega)
    rw [empty]
    exact List.Perm.refl _
  | succ count inductionHypothesis =>
    have shorter : longest (tails groups) ≤ count := by
      rw [longest_tails]
      omega
    rw [columnsFor]
    exact (List.Perm.append_left _ (inductionHypothesis shorter)).trans (heads_tails_perm groups)

/-- The columns are the elements of the lists, each as often as it occurs. -/
theorem columns_perm (groups : List (List α)) : (columns groups).Perm groups.flatten :=
  columnsFor_perm (Nat.le_refl _)

/-- A family without empty lists has one head for each list. -/
theorem heads_length {groups : List (List α)} (inhabited : ∀ group ∈ groups, group ≠ []) :
    (heads groups).length = groups.length := by
  induction groups with
  | nil => rfl
  | cons first rest inductionHypothesis =>
    have tail := inductionHypothesis fun group member =>
      inhabited group (List.mem_cons_of_mem _ member)
    cases first with
    | nil => exact absurd rfl (inhabited [] List.mem_cons_self)
    | cons a others =>
      simp only [heads, List.filterMap_cons, List.head?_cons, List.length_cons] at tail ⊢
      omega

/-- The head of a list stands among the heads where the list stands in the family. -/
theorem heads_getElem? {groups : List (List α)} (inhabited : ∀ group ∈ groups, group ≠ [])
    (place : Nat) : (heads groups)[place]? = groups[place]?.bind List.head? := by
  induction groups generalizing place with
  | nil => simp [heads]
  | cons first rest inductionHypothesis =>
    have tail := inductionHypothesis fun group member =>
      inhabited group (List.mem_cons_of_mem _ member)
    cases first with
    | nil => exact absurd rfl (inhabited [] List.mem_cons_self)
    | cons a others =>
      cases place with
      | zero => simp [heads]
      | succ place => simpa [heads] using tail place

/-! ## Cells

An element is found by its place within its list and the number of the list. -/

/-- The elements with their cells, the places of a list counted from a first one. -/
def labels (first : Nat) (groups : List (List α)) : List (List ((Nat ×ₗ Nat) × α)) :=
  groups.zipIdx.map fun numbered =>
    (numbered.1.zipIdx first).map fun placed => (toLex (placed.2, numbered.2), placed.1)

theorem labels_values (first : Nat) (groups : List (List α)) :
    (labels first groups).map (List.map Prod.snd) = groups := by
  apply List.ext_getElem
  · simp [labels]
  · intro number inside _
    simp only [labels, List.getElem_map, List.getElem_zipIdx, List.map_map, Function.comp_def]
    exact List.zipIdx_map_fst ..

/-- A mapped family has mapped columns. -/
theorem columnsFor_map {β : Type} (f : α → β) (count : Nat) (groups : List (List α)) :
    columnsFor count (groups.map (List.map f)) = (columnsFor count groups).map f := by
  induction count generalizing groups with
  | zero => rfl
  | succ count inductionHypothesis =>
    have rest : tails (groups.map (List.map f)) = (tails groups).map (List.map f) := by
      simp [tails]
    have first : heads (groups.map (List.map f)) = (heads groups).map f := by
      simp [heads, List.filterMap_map, List.map_filterMap]
    rw [columnsFor, columnsFor, rest, first, inductionHypothesis, List.map_append]

theorem columns_map {β : Type} (f : α → β) (groups : List (List α)) :
    columns (groups.map (List.map f)) = (columns groups).map f := by
  have same : longest (groups.map (List.map f)) = longest groups := by
    simp [longest, Function.comp_def]
  rw [columns, same, columnsFor_map, columns]

theorem tails_labels (first : Nat) (groups : List (List α)) :
    tails (labels first groups) = labels (first + 1) (tails groups) := by
  apply List.ext_getElem
  · simp [tails, labels]
  · intro number inside _
    have there : number < groups.length := by simpa [tails, labels] using inside
    simp only [tails, labels, List.getElem_map, List.getElem_zipIdx]
    cases groups[number] <;> rfl

/-- The heads are labelled by the first place and by increasing numbers. -/
theorem heads_labels_sorted (first : Nat) (groups : List (List α)) :
    (heads (labels first groups)).Pairwise (fun a b => a.1 < b.1) ∧
      ∀ a ∈ heads (labels first groups), (ofLex a.1).1 = first := by
  constructor
  · rw [heads, List.pairwise_filterMap, labels, List.pairwise_map]
    have increasing : groups.zipIdx.Pairwise fun a b => a.2 < b.2 := by
      rw [List.pairwise_iff_getElem]
      intro i j _ _ before
      simpa using before
    apply increasing.imp
    intro a b before x foundHere y foundThere
    cases one : a.1 with
    | nil => simp [one] at foundHere
    | cons here _ =>
      cases two : b.1 with
      | nil => simp [two] at foundThere
      | cons there _ =>
        simp only [one, List.zipIdx_cons, List.map_cons, List.head?_cons, Option.some.injEq]
          at foundHere
        simp only [two, List.zipIdx_cons, List.map_cons, List.head?_cons, Option.some.injEq]
          at foundThere
        rw [← foundHere, ← foundThere]
        exact Prod.Lex.toLex_lt_toLex.mpr (Or.inr ⟨rfl, before⟩)
  · intro a member
    rw [heads, List.mem_filterMap] at member
    obtain ⟨row, labelled, found⟩ := member
    obtain ⟨numbered, -, rfl⟩ := List.mem_map.mp labelled
    cases one : numbered.1 with
    | nil => simp [one] at found
    | cons here _ =>
      simp only [one, List.zipIdx_cons, List.map_cons, List.head?_cons, Option.some.injEq] at found
      rw [← found]
      rfl

theorem columnsFor_labels_sorted (count first : Nat) (groups : List (List α)) :
    (columnsFor count (labels first groups)).Pairwise (fun a b => a.1 < b.1) ∧
      ∀ a ∈ columnsFor count (labels first groups), first ≤ (ofLex a.1).1 := by
  induction count generalizing first groups with
  | zero => simp [columnsFor]
  | succ count inductionHypothesis =>
    obtain ⟨sorted, placed⟩ := heads_labels_sorted first groups
    obtain ⟨later, beyond⟩ := inductionHypothesis (first + 1) (tails groups)
    rw [columnsFor, tails_labels]
    constructor
    · rw [List.pairwise_append]
      refine ⟨sorted, later, ?_⟩
      intro a here b there
      have below := placed a here
      have above := beyond b there
      exact Prod.Lex.lt_iff.mpr (Or.inl (by omega))
    · intro a member
      obtain here | there := List.mem_append.mp member
      · exact (placed a here).ge
      · exact Nat.le_of_succ_le (beyond a there)

/-- The columns are in the order of their cells. -/
theorem columns_labels_sorted (groups : List (List α)) :
    (columns (labels 0 groups)).Pairwise fun a b => a.1 < b.1 :=
  (columnsFor_labels_sorted _ 0 groups).1

end Columns
