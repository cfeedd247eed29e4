import Mathlib.Data.List.Forall2

/-!
# Computations that may fail

A sequence of attempts returns exactly if each of them does, and then what they
return one by one. The laws are stated once for one attempt after another and for
an attempt per element of a list.
-/

namespace Attempts

variable {ε α β γ : Type}

/-- An attempt returns. -/
def Returns (attempt : Except ε α) : Prop := ∃ value, attempt = .ok value

/-- A value returns. -/
@[simp] theorem returns_ok (value : α) : Returns (.ok value : Except ε α) := ⟨value, rfl⟩

/-- An exception does not return. -/
@[simp] theorem not_returns_error (error : ε) : ¬ Returns (.error error : Except ε α) := by
  rintro ⟨value, same⟩
  simp at same

instance (attempt : Except ε α) : Decidable (Returns attempt) :=
  match attempt with
  | .ok value => isTrue (returns_ok value)
  | .error error => isFalse (not_returns_error error)

/-- Two attempts in a row succeed where the first one does and then the second one on its
value. -/
theorem bind_ok_iff {first : Except ε α} {next : α → Except ε β} {result : β} :
    (first >>= next) = .ok result ↔ ∃ value, first = .ok value ∧ next value = .ok result := by
  cases first with
  | error error => simp [bind, Except.bind]
  | ok value => simp [bind, Except.bind]

/-- A result is made of the value of an attempt that succeeds. -/
theorem map_ok_iff {first : Except ε α} {f : α → β} {result : β} :
    first.map f = .ok result ↔ ∃ value, first = .ok value ∧ f value = result := by
  cases first with
  | error error => simp [Except.map]
  | ok value => simp [Except.map]

/-- What follows an attempt matters only where it returns. -/
theorem bind_congr_ok {first : Except ε α} {next other : α → Except ε β}
    (same : ∀ value, first = .ok value → next value = other value) :
    first >>= next = first >>= other := by
  cases first with
  | error error => rfl
  | ok value => exact same value rfl

/-- Two attempts in a row return where the first one does and then the second one on its value.
-/
theorem returns_bind_iff {first : Except ε α} {next : α → Except ε β} :
    Returns (first >>= next) ↔ ∃ value, first = .ok value ∧ Returns (next value) := by
  cases first with
  | error error => simp [bind, Except.bind]
  | ok value => simp [bind, Except.bind]

/-- What is made of the value does not matter to returning. -/
@[simp] theorem returns_map_iff {first : Except ε α} {f : α → β} :
    Returns (first.map f) ↔ Returns first := by
  cases first with
  | error error => simp [Except.map]
  | ok value => simp [Except.map]

/-- What is made of a result adds no way to raise. -/
theorem returns_bind_ok_iff {first : Except ε α} {f : α → β} :
    Returns (first >>= fun value => .ok (f value)) ↔ Returns first := by
  cases first with
  | error error => simp [bind, Except.bind]
  | ok value => simp [bind, Except.bind]

/-! ## What is raised -/

/-- What the attempt raises is among the allowed errors. -/
def RaisesOnly (allowed : ε → Prop) (attempt : Except ε α) : Prop :=
  ∀ error, attempt = .error error → allowed error

section Raising

variable {allowed : ε → Prop}

/-- A value raises nothing. -/
@[simp] theorem raisesOnly_ok (value : α) : RaisesOnly allowed (.ok value : Except ε α) := nofun

/-- An exception is one of the allowed ones. -/
@[simp] theorem raisesOnly_error {error : ε} :
    RaisesOnly allowed (.error error : Except ε α) ↔ allowed error := by
  constructor
  · intro raises
    exact raises error rfl
  · rintro holds _ ⟨⟩
    exact holds

/-- Two attempts in a row raise what either raises. -/
theorem raisesOnly_bind {first : Except ε α} {next : α → Except ε β}
    (raises : RaisesOnly allowed first)
    (later : ∀ value, first = .ok value → RaisesOnly allowed (next value)) :
    RaisesOnly allowed (first >>= next) := by
  cases first with
  | error error => exact raisesOnly_error.mpr (raises error rfl)
  | ok value => exact later value rfl

/-- What is made of the value does not matter to raising. -/
@[simp] theorem raisesOnly_map {first : Except ε α} {f : α → β} :
    RaisesOnly allowed (first.map f) ↔ RaisesOnly allowed first := by
  cases first with
  | error error => simp [Except.map]
  | ok value => simp [Except.map]

/-- A list of attempts raises what one of them raises. -/
theorem raisesOnly_mapM {f : α → Except ε β} {items : List α}
    (raises : ∀ item ∈ items, RaisesOnly allowed (f item)) : RaisesOnly allowed (items.mapM f) := by
  induction items with
  | nil => exact raisesOnly_ok []
  | cons item rest inductionHypothesis =>
    rw [List.mapM_cons]
    apply raisesOnly_bind (raises item List.mem_cons_self)
    intro first _
    apply raisesOnly_bind
    · exact inductionHypothesis fun other member => raises other (List.mem_cons_of_mem _ member)
    · intro others _
      exact raisesOnly_ok (first :: others)

end Raising

/-! ## Sequences -/

/-- One attempt for each element returns what the attempts return. -/
theorem mapM_ok_iff {f : α → Except ε β} {items : List α} {results : List β} :
    items.mapM f = .ok results ↔ List.Forall₂ (fun item result => f item = .ok result) items results := by
  induction items generalizing results with
  | nil =>
    simp only [List.mapM_nil, List.forall₂_nil_left_iff]
    exact ⟨fun same => (Except.ok.inj same).symm, fun same => congrArg Except.ok same.symm⟩
  | cons item rest inductionHypothesis =>
    rw [List.mapM_cons, bind_ok_iff]
    constructor
    · rintro ⟨first, attempted, later⟩
      obtain ⟨others, followed, same⟩ := bind_ok_iff.mp later
      obtain rfl := Except.ok.inj same
      exact List.Forall₂.cons attempted (inductionHypothesis.mp followed)
    · intro related
      obtain ⟨first, others, attempted, followed, rfl⟩ := List.forall₂_cons_left_iff.mp related
      exact ⟨first, attempted, bind_ok_iff.mpr ⟨others, inductionHypothesis.mpr followed, rfl⟩⟩

/-- All attempts return, or the sequence of them does not. -/
theorem returns_mapM_iff {f : α → Except ε β} {items : List α} :
    Returns (items.mapM f) ↔ ∀ item ∈ items, Returns (f item) := by
  induction items with
  | nil =>
    simp only [List.mapM_nil, List.not_mem_nil, false_implies, implies_true, iff_true]
    exact ⟨[], rfl⟩
  | cons item rest inductionHypothesis =>
    rw [List.mapM_cons, returns_bind_iff, List.forall_mem_cons, ← inductionHypothesis]
    constructor
    · rintro ⟨first, attempted, later⟩
      obtain ⟨others, followed, -⟩ := returns_bind_iff.mp later
      exact ⟨⟨first, attempted⟩, ⟨others, followed⟩⟩
    · rintro ⟨⟨first, attempted⟩, ⟨others, followed⟩⟩
      exact ⟨first, attempted, returns_bind_iff.mpr ⟨others, followed, ⟨_, rfl⟩⟩⟩

/-- Attempts that return a function of their element return its values. -/
theorem mapM_eq_map {f : α → Except ε β} {g : α → β} {items : List α}
    (each : ∀ item ∈ items, f item = .ok (g item)) : items.mapM f = .ok (items.map g) := by
  rw [mapM_ok_iff, List.forall₂_map_right_iff, List.forall₂_same]
  exact each

/-- A function of every result is one of the results. -/
theorem mapM_map_result (f : α → Except ε β) (g : β → γ) (items : List α) :
    (items.mapM fun item => (f item).map g) = (items.mapM f).map (List.map g) := by
  induction items with
  | nil => rfl
  | cons item rest inductionHypothesis =>
    rw [List.mapM_cons, List.mapM_cons, inductionHypothesis]
    cases f item with
    | error raised => rfl
    | ok result => cases rest.mapM f <;> rfl

/-- A function of the results is the list of this function of the elements, if each
attempt says so of its result. -/
theorem map_of_mapM {f : α → Except ε β} {g : β → γ} {h : α → γ} {items : List α}
    {results : List β} (returned : items.mapM f = .ok results)
    (each : ∀ item ∈ items, ∀ result, f item = .ok result → g result = h item) :
    results.map g = items.map h := by
  have related := mapM_ok_iff.mp returned
  clear returned
  induction related with
  | nil => rfl
  | cons attempted _ inductionHypothesis =>
    rw [List.map_cons, List.map_cons, each _ List.mem_cons_self _ attempted]
    rw [inductionHypothesis fun item member => each item (List.mem_cons_of_mem _ member)]

/-- A related list has a partner for each element. -/
theorem exists_left {relation : α → β → Prop} {items : List α} {results : List β} {result : β}
    (related : List.Forall₂ relation items results) (member : result ∈ results) :
    ∃ item ∈ items, relation item result := by
  induction related with
  | nil => simp at member
  | cons here _ inductionHypothesis =>
    obtain rfl | later := List.mem_cons.mp member
    · exact ⟨_, List.mem_cons_self, here⟩
    · obtain ⟨item, present, found⟩ := inductionHypothesis later
      exact ⟨item, List.mem_cons_of_mem _ present, found⟩

/-- Each item of the first list is related to one of the second. -/
theorem exists_right {relation : α → β → Prop} {items : List α} {results : List β} {item : α}
    (related : List.Forall₂ relation items results) (member : item ∈ items) :
    ∃ result ∈ results, relation item result :=
  exists_left related.flip member

/-- Relations of lists compose element by element. -/
theorem forall₂_trans {first : α → β → Prop} {second : β → γ → Prop} {both : α → γ → Prop}
    (compose : ∀ x y z, first x y → second y z → both x z) {items : List α} {middle : List β}
    {results : List γ} (left : List.Forall₂ first items middle)
    (right : List.Forall₂ second middle results) : List.Forall₂ both items results := by
  induction left generalizing results with
  | nil =>
    cases right
    exact List.Forall₂.nil
  | cons here _ inductionHypothesis =>
    cases right with
    | cons there rest => exact List.Forall₂.cons (compose _ _ _ here there) (inductionHypothesis rest)

/-- A result comes from an item. -/
theorem mem_of_mapM {f : α → Except ε β} {items : List α} {results : List β} {result : β}
    (returned : items.mapM f = .ok results) (member : result ∈ results) :
    ∃ item ∈ items, f item = .ok result := by
  have found := exists_left (mapM_ok_iff.mp returned) member
  exact found

/-- An item has a result. -/
theorem mapM_of_mem {f : α → Except ε β} {items : List α} {results : List β} {item : α}
    (returned : items.mapM f = .ok results) (member : item ∈ items) :
    ∃ result ∈ results, f item = .ok result := by
  have found := exists_right (mapM_ok_iff.mp returned) member
  exact found

end Attempts
