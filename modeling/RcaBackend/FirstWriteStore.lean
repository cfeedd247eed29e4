import Mathlib.Logic.Function.Basic

/-!
# Stores where the first write of a key wins

A store keyed by an idempotency key keeps the first value written under a key and
ignores later ones. The history of all writes, newest first, determines what the
store holds: whoever finds its key taken learns only that somebody wrote first.
-/

namespace FirstWriteStore

variable {K V : Type} [DecidableEq K]

/-- Write a value unless the key is taken. -/
def put (store : K → Option V) (key : K) (value : V) : K → Option V :=
  if (store key).isSome then store else Function.update store key (some value)

/-- The oldest value that the history records under a key. -/
def first : List (K × V) → K → Option V
  | [], _ => none
  | (written, value) :: earlier, key =>
    (first earlier key).or (if written = key then some value else none)

/-- The store holds the oldest value of every key. -/
def Records (store : K → Option V) (history : List (K × V)) : Prop :=
  ∀ key, store key = first history key

theorem Records.put {store : K → Option V} {history : List (K × V)}
    (records : Records store history) (key : K) (value : V) :
    Records (FirstWriteStore.put store key value) ((key, value) :: history) := by
  intro other
  have known := records other
  by_cases same : key = other
  · subst same
    cases held : store key with
    | none => simp [FirstWriteStore.put, first, ← known, held]
    | some older => simp [FirstWriteStore.put, first, ← known, held]
  · cases held : store key with
    | none => simp [FirstWriteStore.put, first, ← known, held, same, Ne.symm same]
    | some older => simp [FirstWriteStore.put, first, ← known, held, same]

/-- A recorded key is taken. -/
theorem first_of_mem {history : List (K × V)} {key : K} {value : V}
    (recorded : (key, value) ∈ history) : ∃ oldest, first history key = some oldest := by
  induction history with
  | nil => cases recorded
  | cons entry earlier inductionHypothesis =>
    obtain ⟨written, latest⟩ := entry
    cases older : first earlier key with
    | some oldest => exact ⟨oldest, by simp [first, older]⟩
    | none =>
      rcases List.mem_cons.mp recorded with here | before
      · cases here
        exact ⟨value, by simp [first, older]⟩
      · obtain ⟨oldest, found⟩ := inductionHypothesis before
        rw [older] at found
        cases found

/-- A key that no earlier write has used belongs to the first write after. -/
theorem first_after {later earlier : List (K × V)} {key : K} {value : V}
    (unused : ∀ other, (key, other) ∉ earlier) :
    first (later ++ (key, value) :: earlier) key = some value := by
  have none : first earlier key = none := by
    induction earlier with
    | nil => rfl
    | cons entry rest inductionHypothesis =>
      obtain ⟨written, latest⟩ := entry
      have other : written ≠ key := fun same => unused latest (same ▸ List.mem_cons_self)
      have before := inductionHypothesis fun other member =>
        unused other (List.mem_cons_of_mem _ member)
      simp [first, before, other]
  induction later with
  | nil => simp [first, none]
  | cons entry rest inductionHypothesis => simp [first, inductionHypothesis]

end FirstWriteStore
