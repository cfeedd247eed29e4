import Mathlib.Analysis.Real.Sqrt
import Mathlib.Data.List.Basic
import Mathlib.Data.List.Induction
import Mathlib.Data.List.Nodup
import Mathlib.Data.List.Perm.Basic

/-!
# Folding a list into a dictionary

A dictionary keeps its keys in the order of their first assignment. A loop that
updates one entry per element, under a key computed from the element, leaves
under each key what folding that key's elements alone would leave: the loop is a
family of independent folds. Collecting the elements themselves is the case in
which the dictionary is a partition of the list.
-/

namespace KeyedFold

variable {K V A : Type} [DecidableEq K]

/-- `d[key] = update(d.get(key))`: a present key keeps its place. -/
def upsert (key : K) (update : Option V → V) : List (K × V) → List (K × V)
  | [] => [(key, update none)]
  | (k, v) :: rest =>
    if k = key then (k, update (some v)) :: rest else (k, v) :: upsert key update rest

/-- One update per element, from a given dictionary on. -/
def foldFrom (key : A → K) (step : Option V → A → V) (entries : List (K × V)) (items : List A) :
    List (K × V) :=
  items.foldl (fun entries item => upsert (key item) (fun old => step old item) entries) entries

/-- One update per element of a list. -/
def keyedFold (key : A → K) (step : Option V → A → V) (items : List A) : List (K × V) :=
  foldFrom key step [] items

/-- The elements of each key, in their order. -/
def collect (key : A → K) (value : A → V) (items : List A) : List (K × List V) :=
  keyedFold key (fun old item => old.getD [] ++ [value item]) items

/-! ## One update -/

/-- An updated key has the new value, and other keys have theirs. -/
theorem lookup_upsert [BEq K] [LawfulBEq K] (key other : K) (update : Option V → V) (entries : List (K × V)) :
    (upsert key update entries).lookup other =
      if other = key then some (update (entries.lookup key)) else entries.lookup other := by
  induction entries with
  | nil =>
    by_cases same : other = key
    · simp [upsert, same]
    · simp [upsert, List.lookup_cons, List.lookup_nil, beq_false_of_ne same, same]
  | cons entry rest inductionHypothesis =>
    obtain ⟨k, v⟩ := entry
    by_cases here : k = key
    · subst here
      by_cases same : other = k
      · simp [upsert, same]
      · simp [upsert, List.lookup_cons, beq_false_of_ne same, same]
    · have later : (key == k) = false := beq_false_of_ne (Ne.symm here)
      by_cases same : other = k
      · subst same
        simp [upsert, here]
      · simp [upsert, here, List.lookup_cons, beq_false_of_ne same, later, inductionHypothesis]

/-- An update adds its key and no other. -/
theorem mem_keys_upsert (key other : K) (update : Option V → V) (entries : List (K × V)) :
    other ∈ (upsert key update entries).map Prod.fst ↔
      other = key ∨ other ∈ entries.map Prod.fst := by
  induction entries with
  | nil => simp [upsert]
  | cons entry rest inductionHypothesis =>
    by_cases here : entry.1 = key
    · simp [upsert, here]
    · simp only [upsert, here, if_false, List.map_cons, List.mem_cons, inductionHypothesis]
      constructor
      · rintro (first | same | later)
        · exact Or.inr (Or.inl first)
        · exact Or.inl same
        · exact Or.inr (Or.inr later)
      · rintro (same | first | later)
        · exact Or.inr (Or.inl same)
        · exact Or.inl first
        · exact Or.inr (Or.inr later)

/-- An update keeps the keys distinct. -/
theorem keys_nodup_upsert (key : K) (update : Option V → V) {entries : List (K × V)}
    (distinct : (entries.map Prod.fst).Nodup) :
    ((upsert key update entries).map Prod.fst).Nodup := by
  induction entries with
  | nil => simp [upsert]
  | cons entry rest inductionHypothesis =>
    obtain ⟨fresh, tail⟩ := List.nodup_cons.mp distinct
    by_cases here : entry.1 = key
    · simpa [upsert, here] using distinct
    · simp only [upsert, here, if_false, List.map_cons, List.nodup_cons, mem_keys_upsert]
      constructor
      · rintro (same | present)
        · exact same
        · exact fresh present
      · exact inductionHypothesis tail

/-- A new key goes to the end. -/
theorem upsert_of_not_mem {key : K} (update : Option V → V) {entries : List (K × V)}
    (fresh : key ∉ entries.map Prod.fst) :
    upsert key update entries = entries ++ [(key, update none)] := by
  induction entries with
  | nil => rfl
  | cons entry rest inductionHypothesis =>
    rw [List.map_cons, List.mem_cons, not_or] at fresh
    have other : ¬ entry.1 = key := fun same => fresh.1 same.symm
    simp [upsert, other, inductionHypothesis fresh.2]

/-- A present key keeps its place. -/
theorem upsert_of_mem {key : K} (update : Option V → V) {entries : List (K × V)}
    (present : key ∈ entries.map Prod.fst) :
    ∃ before old after, entries = before ++ (key, old) :: after ∧
      upsert key update entries = before ++ (key, update (some old)) :: after := by
  induction entries with
  | nil => simp at present
  | cons entry rest inductionHypothesis =>
    obtain ⟨label, value⟩ := entry
    by_cases here : label = key
    · subst here
      exact ⟨[], value, rest, rfl, by simp [upsert]⟩
    · rw [List.map_cons, List.mem_cons] at present
      have later : key ∈ rest.map Prod.fst := by
        apply present.resolve_left
        exact Ne.symm here
      obtain ⟨before, old, after, split, updated⟩ := inductionHypothesis later
      exact ⟨(label, value) :: before, old, after, by rw [split, List.cons_append],
        by simp [upsert, here, updated]⟩

/-- A value that is put under a present key takes the place of the old one. -/
theorem upsert_replaces {key : K} (value : V) {entries : List (K × V)}
    (present : key ∈ entries.map Prod.fst) :
    ∃ old, (key, old) ∈ entries ∧ (entries.map Prod.snd ++ [value]).Perm
      (old :: (upsert key (fun _ => value) entries).map Prod.snd) := by
  obtain ⟨before, old, after, split, updated⟩ := upsert_of_mem (fun _ => value) present
  refine ⟨old, by simp [split], ?_⟩
  rw [updated, split, List.map_append, List.map_append, List.map_cons, List.map_cons]
  refine (List.perm_middle.append_right _).trans ?_
  rw [List.cons_append]
  apply List.Perm.cons
  exact (List.perm_append_singleton _ _).trans List.perm_middle.symm

/-- What stands in the table afterwards stood there before or is the updated entry. -/
theorem mem_upsert {key : K} {update : Option V → V} {entries : List (K × V)} {entry : K × V}
    (member : entry ∈ upsert key update entries) :
    entry ∈ entries ∨ ∃ old, entry = (key, update old) := by
  by_cases present : key ∈ entries.map Prod.fst
  · obtain ⟨before, old, after, split, updated⟩ := upsert_of_mem update present
    rw [updated, List.mem_append, List.mem_cons] at member
    obtain earlier | here | later := member
    · left
      simp [split, earlier]
    · right
      exact ⟨some old, here⟩
    · left
      simp [split, later]
  · rw [upsert_of_not_mem update present, List.mem_append, List.mem_singleton] at member
    obtain earlier | here := member
    · exact Or.inl earlier
    · exact Or.inr ⟨none, here⟩

/-! ## The loop -/

/-- Under each key the loop leaves the fold of that key's elements. -/
theorem lookup_foldFrom [BEq K] [LawfulBEq K] (key : A → K) (step : Option V → A → V) (entries : List (K × V))
    (items : List A) (k : K) :
    (foldFrom key step entries items).lookup k =
      (items.filter fun item => key item = k).foldl (fun old item => some (step old item))
        (entries.lookup k) := by
  induction items generalizing entries with
  | nil => simp [foldFrom]
  | cons item rest inductionHypothesis =>
    have next := inductionHypothesis (upsert (key item) (fun old => step old item) entries)
    simp only [foldFrom, List.foldl_cons] at next ⊢
    rw [next, lookup_upsert]
    by_cases here : key item = k
    · subst here
      simp
    · have other : ¬ k = key item := fun same => here same.symm
      simp [here, other]

/-- A key has what its items fold to. -/
theorem lookup_keyedFold [BEq K] [LawfulBEq K] (key : A → K) (step : Option V → A → V) (items : List A) (k : K) :
    (keyedFold key step items).lookup k =
      (items.filter fun item => key item = k).foldl (fun old item => some (step old item)) none :=
  lookup_foldFrom key step [] items k

/-- Where each element overwrites, the last one of a key remains. -/
theorem lookup_overwrite [BEq K] [LawfulBEq K] (key : A → K) (value : A → V) (items : List A)
    (k : K) :
    (keyedFold key (fun _ item => value item) items).lookup k =
      (items.filter fun item => key item = k).getLast?.map value := by
  rw [lookup_keyedFold]
  induction items.filter (fun item => decide (key item = k)) using List.reverseRecOn with
  | nil => rfl
  | append_singleton before last _ => simp

/-- A fold keeps the keys distinct. -/
theorem keys_nodup_foldFrom (key : A → K) (step : Option V → A → V) {entries : List (K × V)}
    (items : List A) (distinct : (entries.map Prod.fst).Nodup) :
    ((foldFrom key step entries items).map Prod.fst).Nodup := by
  induction items generalizing entries with
  | nil => exact distinct
  | cons item rest inductionHypothesis =>
    exact inductionHypothesis (keys_nodup_upsert _ _ distinct)

/-- The keys of a fold are distinct. -/
theorem keys_nodup (key : A → K) (step : Option V → A → V) (items : List A) :
    ((keyedFold key step items).map Prod.fst).Nodup :=
  keys_nodup_foldFrom key step items List.nodup_nil

/-- The keys of a fold are the old ones and those of the items. -/
theorem mem_keys_foldFrom (key : A → K) (step : Option V → A → V) (entries : List (K × V))
    (items : List A) (k : K) :
    k ∈ (foldFrom key step entries items).map Prod.fst ↔
      k ∈ entries.map Prod.fst ∨ ∃ item ∈ items, key item = k := by
  induction items generalizing entries with
  | nil => simp [foldFrom]
  | cons item rest inductionHypothesis =>
    have next := inductionHypothesis (upsert (key item) (fun old => step old item) entries)
    rw [mem_keys_upsert] at next
    simp only [foldFrom, List.foldl_cons, List.mem_cons, exists_eq_or_imp] at next ⊢
    rw [next]
    constructor
    · rintro ((same | present) | later)
      · exact Or.inr (Or.inl same.symm)
      · exact Or.inl present
      · exact Or.inr (Or.inr later)
    · rintro (present | same | later)
      · exact Or.inl (Or.inr present)
      · exact Or.inl (Or.inl same.symm)
      · exact Or.inr later

/-- The keys are those of the elements. -/
theorem mem_keys (key : A → K) (step : Option V → A → V) (items : List A) (k : K) :
    k ∈ (keyedFold key step items).map Prod.fst ↔ ∃ item ∈ items, key item = k := by
  have known := mem_keys_foldFrom key step [] items k
  simpa [keyedFold] using known

/-- With distinct keys, the entries are the lookups. -/
theorem mem_iff_lookup [BEq K] [LawfulBEq K] {entries : List (K × V)} (distinct : (entries.map Prod.fst).Nodup)
    (k : K) (v : V) : (k, v) ∈ entries ↔ entries.lookup k = some v := by
  induction entries with
  | nil => simp
  | cons entry rest inductionHypothesis =>
    obtain ⟨label, value⟩ := entry
    obtain ⟨fresh, tail⟩ := List.nodup_cons.mp distinct
    by_cases here : k = label
    · subst here
      have absent : (k, v) ∉ rest := by
        intro member
        apply fresh
        exact List.mem_map.mpr ⟨(k, v), member, rfl⟩
      simp only [List.mem_cons, absent, or_false, List.lookup_cons_self, Prod.mk.injEq, true_and,
        Option.some.injEq]
      exact eq_comm
    · have differ : (k == label) = false := beq_false_of_ne here
      simp [List.lookup_cons, differ, here, inductionHypothesis tail]

/-- An entry of the loop holds the fold of its key's elements. -/
theorem mem_keyedFold (key : A → K) (step : Option V → A → V) (items : List A) (k : K) (v : V) :
    (k, v) ∈ keyedFold key step items ↔
      (items.filter fun item => key item = k).foldl (fun old item => some (step old item)) none =
        some v := by
  rw [mem_iff_lookup (keys_nodup key step items), lookup_keyedFold]

/-- Where an element is kept against the later ones, the first one of a key remains. -/
theorem mem_keepFirst (key : A → K) (items : List A) (k : K) (first : A) :
    (k, first) ∈ keyedFold key (fun old item => old.getD item) items ↔
      (items.filter fun item => key item = k).head? = some first := by
  rw [mem_keyedFold]
  have kept (rest : List A) (old : A) :
      rest.foldl (fun old item => some (old.getD item)) (some old) = some old := by
    induction rest with
    | nil => rfl
    | cons item rest inductionHypothesis => exact inductionHypothesis
  cases items.filter fun item => decide (key item = k) with
  | nil => simp
  | cons item rest => rw [List.foldl_cons, Option.getD_none, kept, List.head?_cons]

/-! ## Changed values -/

section Changed

variable {W : Type} (change : K → V → W)

/-- An update of changed values is a change of updated values. -/
theorem upsert_changed {key : K} {update : Option V → V} {updated : Option W → W}
    (same : ∀ old, updated (old.map (change key)) = change key (update old))
    (entries : List (K × V)) :
    upsert key updated (entries.map fun entry => (entry.1, change entry.1 entry.2)) =
      (upsert key update entries).map fun entry => (entry.1, change entry.1 entry.2) := by
  induction entries with
  | nil => exact congrArg (fun value => [(key, value)]) (same none)
  | cons entry rest inductionHypothesis =>
    obtain ⟨k, v⟩ := entry
    rw [List.map_cons, upsert, upsert]
    by_cases here : k = key
    · subst here
      simp only [if_true, List.map_cons]
      exact congrArg (fun value => (k, value) :: _) (same (some v))
    · simp only [if_neg here, List.map_cons, inductionHypothesis]

/-- A fold over changed elements has the changed values under the same keys. -/
theorem keyedFold_changed {key : A → K} {step : Option V → A → V} {stepped : Option W → A → W}
    {h : A → A} (keys : ∀ item, key (h item) = key item)
    (same : ∀ old item, stepped (old.map (change (key item))) (h item) =
      change (key item) (step old item)) (items : List A) :
    keyedFold key stepped (items.map h) =
      (keyedFold key step items).map fun entry => (entry.1, change entry.1 entry.2) := by
  have folded (entries : List (K × V)) :
      foldFrom key stepped (entries.map fun entry => (entry.1, change entry.1 entry.2))
          (items.map h) =
        (foldFrom key step entries items).map fun entry => (entry.1, change entry.1 entry.2) := by
    induction items generalizing entries with
    | nil => rfl
    | cons item rest inductionHypothesis =>
      have first := @upsert_changed K V _ W change (key item) (fun old => step old item)
        (fun old => stepped old (h item)) (fun old => same old item) entries
      rw [List.map_cons, foldFrom, List.foldl_cons, keys, first]
      exact inductionHypothesis _
  exact folded []

end Changed

/-! ## Measures

A measure that every update raises by the weight of its element is conserved. -/

/-- An update adds its weight to the sum. -/
theorem sum_upsert (key : K) (update : Option V → V) (measure : V → Nat) {weight : Nat}
    (fresh : measure (update none) = weight)
    (raised : ∀ old, measure (update (some old)) = measure old + weight) (entries : List (K × V)) :
    ((upsert key update entries).map fun entry => measure entry.2).sum =
      (entries.map fun entry => measure entry.2).sum + weight := by
  induction entries with
  | nil => simp [upsert, fresh]
  | cons entry rest inductionHypothesis =>
    by_cases here : entry.1 = key
    · simp only [upsert, here, if_true, List.map_cons, List.sum_cons, raised]
      omega
    · simp only [upsert, here, if_false, List.map_cons, List.sum_cons, inductionHypothesis]
      omega

/-- A fold adds the weights of its items to the sum. -/
theorem sum_foldFrom (key : A → K) (step : Option V → A → V) (measure : V → Nat) (weight : A → Nat)
    (fresh : ∀ item, measure (step none item) = weight item)
    (raised : ∀ old item, measure (step (some old) item) = measure old + weight item)
    (entries : List (K × V)) (items : List A) :
    ((foldFrom key step entries items).map fun entry => measure entry.2).sum =
      (entries.map fun entry => measure entry.2).sum + (items.map weight).sum := by
  induction items generalizing entries with
  | nil => simp [foldFrom]
  | cons item rest inductionHypothesis =>
    have next := inductionHypothesis (upsert (key item) (fun old => step old item) entries)
    have one := sum_upsert (key item) (fun old => step old item) measure (fresh item)
      (fun old => raised old item) entries
    simp only [foldFrom, List.foldl_cons, List.map_cons, List.sum_cons] at next ⊢
    rw [next, one]
    omega

/-- The measures of the entries sum to the weights of the elements. -/
theorem sum_keyedFold (key : A → K) (step : Option V → A → V) (measure : V → Nat)
    (weight : A → Nat) (fresh : ∀ item, measure (step none item) = weight item)
    (raised : ∀ old item, measure (step (some old) item) = measure old + weight item)
    (items : List A) :
    ((keyedFold key step items).map fun entry => measure entry.2).sum = (items.map weight).sum := by
  have known := sum_foldFrom key step measure weight fresh raised [] items
  simpa [keyedFold] using known

/-! ## Collecting -/

/-- Collecting the values of items appends them. -/
theorem foldl_collect (value : A → V) (items : List A) (old : Option (List V)) :
    items.foldl (fun old item => some (old.getD [] ++ [value item])) old =
      if items = [] then old else some (old.getD [] ++ items.map value) := by
  induction items generalizing old with
  | nil => rfl
  | cons item rest inductionHypothesis =>
    rw [List.foldl_cons, inductionHypothesis]
    by_cases last : rest = []
    · simp [last]
    · simp [last]

/-- A group is the nonempty list of its key's elements. -/
theorem mem_collect (key : A → K) (value : A → V) (items : List A) (k : K) (members : List V) :
    (k, members) ∈ collect key value items ↔
      members ≠ [] ∧ members = (items.filter fun item => key item = k).map value := by
  rw [collect, mem_keyedFold, foldl_collect]
  by_cases empty : (items.filter fun item => decide (key item = k)) = []
  · rw [if_pos empty, empty]
    simp
  · rw [if_neg empty]
    simp only [Option.getD_none, List.nil_append, Option.some.injEq]
    constructor
    · intro same
      constructor
      · rw [← same]
        simpa using empty
      · exact same.symm
    · rintro ⟨-, same⟩
      exact same.symm

/-- What is collected under all keys is all values. -/
theorem collect_foldFrom_perm (key : A → K) (value : A → V) (entries : List (K × List V))
    (items : List A) :
    ((foldFrom key (fun old item => old.getD [] ++ [value item]) entries items).flatMap
      Prod.snd).Perm (entries.flatMap Prod.snd ++ items.map value) := by
  induction items generalizing entries with
  | nil => simp [foldFrom]
  | cons item rest inductionHypothesis =>
    have one : ∀ entries : List (K × List V),
        ((upsert (key item) (fun old => old.getD [] ++ [value item]) entries).flatMap
          Prod.snd).Perm (entries.flatMap Prod.snd ++ [value item]) := by
      intro entries
      induction entries with
      | nil => simp [upsert]
      | cons entry others tail =>
        by_cases here : entry.1 = key item
        · simp only [upsert, here, if_true, List.flatMap_cons, Option.getD_some,
            List.append_assoc]
          exact List.Perm.append_left _ List.perm_append_comm
        · simp only [upsert, here, if_false, List.flatMap_cons, List.append_assoc]
          exact tail.append_left _
    have next := inductionHypothesis
      (upsert (key item) (fun old => old.getD [] ++ [value item]) entries)
    simp only [foldFrom, List.foldl_cons, List.map_cons] at next ⊢
    apply next.trans
    have swapped := (one entries).append_right (rest.map value)
    simpa using swapped

/-- The groups partition the list. -/
theorem collect_perm (key : A → K) (value : A → V) (items : List A) :
    ((collect key value items).flatMap Prod.snd).Perm (items.map value) := by
  have known := collect_foldFrom_perm key value [] items
  simpa [collect, keyedFold] using known

end KeyedFold
