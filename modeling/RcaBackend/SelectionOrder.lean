import RcaBackend.SelectionCapacity

/-!
# The order of the selected items

A list longer than the limit is selected from in the order of the items' instants, equal
instants in the order of the list. A list within the limit is returned as it is, so it is
in that order exactly if it was so already.
-/

namespace RcaBackend

open Attempts

/-- The selected items stand at positions in the order of their instants, and of the list
where the instants are equal. -/
def InOrder (items selected : List Dict) : Prop :=
  ∃ places : List Nat,
    List.Forall₂ (fun place item => items[place]? = some item) places selected ∧
      places.Pairwise fun i j => chronKey (items.map signalOf) i < chronKey (items.map signalOf) j

/-- All items in the order in which the selection would return them if it kept them all. -/
def allInOrder [PyRuntime] (items : List Dict) : List Dict :=
  (sortBy (chronKey (items.map signalOf)) (List.range items.length)).filterMap fun place =>
    items[place]?

/-- Items whose instants do not decrease. -/
def Chronological (items : List Signal) : Prop :=
  items.Pairwise fun earlier later => chron earlier.timestamp ≤ chron later.timestamp

theorem chronKey_inj (items : List Signal) {i j : Nat}
    (same : chronKey items i = chronKey items j) : i = j :=
  (Prod.mk.inj (toLex.injective same)).2

/-- The instant in the key of a position. -/
theorem chronKey_eq {items : List Signal} {i : Nat} {item : Signal} (found : items[i]? = some item) :
    chronKey items i = toLex (chron item.timestamp, i) := by
  simp [chronKey, found]

/-- Positions in their own order are in the order of their keys exactly if the instants
do not decrease. -/
theorem range_sorted_iff (items : List Signal) :
    ((List.range items.length).Pairwise fun i j => chronKey items i < chronKey items j) ↔
      Chronological items := by
  rw [Chronological, List.pairwise_iff_getElem, List.pairwise_iff_getElem]
  simp only [List.length_range, List.getElem_range]
  constructor
  · intro sorted i j first second before
    have less := sorted i j first second before
    rw [chronKey_eq (List.getElem?_eq_getElem first), chronKey_eq (List.getElem?_eq_getElem second),
      Prod.Lex.toLex_lt_toLex] at less
    rcases less with less | same
    · exact le_of_lt less
    · exact le_of_eq same.1
  · intro sorted i j first second before
    have least := sorted i j first second before
    rw [chronKey_eq (List.getElem?_eq_getElem first), chronKey_eq (List.getElem?_eq_getElem second),
      Prod.Lex.toLex_lt_toLex]
    rcases lt_or_eq_of_le least with less | same
    · exact Or.inl less
    · exact Or.inr ⟨same, before⟩

/-- A list that stands at positions in order is chronological. -/
theorem chronological_of_inOrder {items selected : List Dict} (ordered : InOrder items selected) :
    Chronological (selected.map signalOf) := by
  obtain ⟨places, taken, sorted⟩ := ordered
  have key : ∀ place item, items[place]? = some item →
      chronKey (items.map signalOf) place = toLex (chron (signalOf item).timestamp, place) := by
    intro place item found
    exact chronKey_eq (by rw [List.getElem?_map, found, Option.map_some])
  rw [Chronological, List.pairwise_map]
  induction taken with
  | nil => exact List.Pairwise.nil
  | cons found others inductionHypothesis =>
    obtain ⟨least, tail⟩ := List.pairwise_cons.mp sorted
    rw [List.pairwise_cons]
    constructor
    · intro later member
      obtain ⟨place, present, here⟩ := exists_left others member
      have less := least place present
      rw [key _ _ found, key _ _ here, Prod.Lex.toLex_lt_toLex] at less
      rcases less with less | same
      · exact le_of_lt less
      · exact le_of_eq same.1
    · exact inductionHypothesis tail

/-- The items at all positions are the items. -/
theorem items_at_range {α : Type} (items : List α) :
    ((List.range items.length).filterMap fun place => items[place]?) = items := by
  have related := items_at fun place (member : place ∈ List.range items.length) =>
    List.mem_range.mp member
  apply List.ext_getElem
  · rw [← related.length_eq, List.length_range]
  · intro place first second
    have here := (List.forall₂_iff_get.mp related).2 place (by simpa using second) first
    simp only [List.get_eq_getElem, List.getElem_range] at here
    rw [List.getElem?_eq_getElem second] at here
    exact (Option.some.inj here).symm

section Selection

variable [PyRuntime]

/-- Distinct positions sorted by their keys are strictly sorted. -/
theorem sorted_strictly (items : List Signal) {places : List Nat} (distinct : places.Nodup) :
    (sortBy (chronKey items) places).Pairwise fun i j => chronKey items i < chronKey items j := by
  have sorted := sortBy_sorted (chronKey items) places
  have different : (sortBy (chronKey items) places).Nodup :=
    (sortBy_perm (chronKey items) places).nodup_iff.mpr distinct
  apply (sorted.and different).imp
  rintro i j ⟨least, other⟩
  apply lt_of_le_of_ne least
  intro same
  exact other (chronKey_inj items same)

/-- Chronological items are returned by either path as they are. -/
theorem allInOrder_of_chronological {items : List Dict}
    (sorted : Chronological (items.map signalOf)) : allInOrder items = items := by
  have strict := (range_sorted_iff (items.map signalOf)).mpr sorted
  rw [List.length_map] at strict
  have moved := sorted_strictly (items.map signalOf) (List.nodup_range (n := items.length))
  have antisymmetric : ∀ i j, i ∈ sortBy (chronKey (items.map signalOf)) (List.range items.length) →
      j ∈ List.range items.length →
      chronKey (items.map signalOf) i < chronKey (items.map signalOf) j →
      chronKey (items.map signalOf) j < chronKey (items.map signalOf) i → i = j := by
    intro i j _ _ forward backward
    exact absurd forward (lt_asymm backward)
  rw [allInOrder, List.Perm.eq_of_pairwise antisymmetric moved strict (sortBy_perm _ _)]
  exact items_at_range items

variable {F : Type} [PyFloat F] [Drain]

/-- The result is in the order of the instants, and within the limit it is what the
selecting path would return, exactly if the list is longer than the limit or was in that
order already. -/
theorem selection_ordered (modality : Modality) (items : List Dict) (triggerTime : PyStr)
    (limit : Int) (selection : Selection)
    (returned : selectSignals F modality items triggerTime limit = .ok selection) :
    (InOrder items selection.items ∧
        ((items.length : Int) ≤ limit → selection.items = allInOrder items)) ↔
      (limit < items.length ∨ Chronological (items.map signalOf)) := by
  by_cases within : (items.length : Int) ≤ limit
  · rw [selectSignals, if_pos within] at returned
    obtain rfl := Except.ok.inj returned
    constructor
    · rintro ⟨ordered, -⟩
      exact Or.inr (chronological_of_inOrder ordered)
    · intro condition
      have sorted := condition.resolve_left (by omega)
      have strict := (range_sorted_iff (items.map signalOf)).mpr sorted
      rw [List.length_map] at strict
      constructor
      · have related := items_at fun place (member : place ∈ List.range items.length) =>
          List.mem_range.mp member
        rw [items_at_range] at related
        exact ⟨List.range items.length, related, strict⟩
      · intro _
        exact (allInOrder_of_chronological sorted).symm
  · rw [selectSignals, if_neg within] at returned
    obtain ⟨picked, picking, same⟩ := bind_ok_iff.mp returned
    obtain rfl := Except.ok.inj same
    have longer : limit < items.length := by omega
    simp only [within, longer, false_implies, and_true, true_or, iff_true]
    obtain ⟨inside, -⟩ := pickedPositions_spec picking
    rw [List.length_map] at inside
    obtain ⟨distinct, bound⟩ := places_distinct inside
    obtain ⟨buckets, -, sorted⟩ := bind_ok_iff.mp picking
    have order := Except.ok.inj sorted
    have unsorted : (roundRobin (orderedGroups buckets) limit).Nodup := by
      rw [← order] at distinct
      exact (sortBy_perm _ _).nodup_iff.mp distinct
    refine ⟨picked, items_at bound, ?_⟩
    rw [← order]
    exact sorted_strictly _ unsorted

end Selection

/-! ## Two lines out of order -/

/-- Two lines of which the later one comes first. -/
def reversedItems : List Dict :=
  [Signal.item ⟨py "2026-01-15T10:00:01Z", [], py "b"⟩,
    Signal.item ⟨py "2026-01-15T10:00:00Z", [], py "a"⟩]

open ReferenceInterpreter in
/-- Within the limit they are returned out of order. -/
theorem order_not_restored :
    @selectSignals asciiRuntime FloatLit exactDecimals oneCluster .log reversedItems [] 2 =
        .ok ⟨reversedItems, 2⟩ ∧ ¬ InOrder reversedItems reversedItems := by
  constructor
  · decide +kernel
  · intro ordered
    have sorted := chronological_of_inOrder ordered
    have unsorted : ¬ Chronological (reversedItems.map signalOf) := by
      unfold Chronological
      decide +kernel
    exact unsorted sorted

open ReferenceInterpreter in
theorem selection_ordered_reversed :
    (InOrder reversedItems reversedItems ∧
        (((2 : Nat) : Int) ≤ 2 → reversedItems = @allInOrder asciiRuntime reversedItems)) ↔
      ((2 : Int) < (2 : Nat) ∨ Chronological (reversedItems.map signalOf)) :=
  @selection_ordered asciiRuntime FloatLit exactDecimals oneCluster .log reversedItems [] 2
    ⟨reversedItems, 2⟩ (by decide +kernel)

end RcaBackend
