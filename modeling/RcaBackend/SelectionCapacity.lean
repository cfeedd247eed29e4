import RcaBackend.Attempts
import RcaBackend.ReferenceInterpreter
import RcaBackend.SelectionTurns

/-!
# The selection neither loses nor repeats a position

Each bucketer puts every position of the list into one bucket. The metric bucketer
stores the positions of the lines without a pair under a key that a series can have as
well, and then loses the positions of that series. Otherwise the selection from a list
longer than the limit has exactly as many items as the limit allows, from distinct
positions.
-/

namespace RcaBackend

open KeyedFold Attempts

/-- The positions in the buckets, bucket after bucket. -/
def positions (buckets : List (List Entry)) : List Nat := buckets.flatten.map Prod.snd

/-- Every position is in exactly one bucket, exactly once. -/
def Partitions (buckets : List (List Entry)) (count : Nat) : Prop :=
  (positions buckets).Perm (List.range count)

/-- A list has been taken from distinct positions of another. -/
def TakenFrom {α : Type} (items selected : List α) : Prop :=
  ∃ places : List Nat, places.Nodup ∧
    List.Forall₂ (fun place item => items[place]? = some item) places selected

theorem zipIdx_positions {α : Type} (items : List α) :
    items.zipIdx.map Prod.snd = List.range items.length := by
  rw [List.zipIdx_map_snd, List.range_eq_range']

/-- Sorting within the parts of a list moves nothing between them. -/
theorem flatten_map_perm {α : Type} (parts : List (List α)) (reorder : List α → List α)
    (moves : ∀ part, (reorder part).Perm part) : (parts.map reorder).flatten.Perm parts.flatten := by
  induction parts with
  | nil => exact List.Perm.refl _
  | cons part rest inductionHypothesis =>
    rw [List.map_cons, List.flatten_cons, List.flatten_cons]
    exact (moves part).append inductionHypothesis

/-- Results that stand under the positions at which they were made. -/
theorem some_positions {P : Type} (index : P → Nat) {results : List (Option P)} {start : Nat}
    (placed : ∀ place result, results[place]? = some (some result) →
      index result = start + place) :
    (results.filterMap id).map index =
      ((results.zipIdx start).filter fun entry => entry.1.isSome).map Prod.snd := by
  induction results generalizing start with
  | nil => rfl
  | cons first rest inductionHypothesis =>
    have tail := @inductionHypothesis (start + 1) fun place result found => by
      have known := placed (place + 1) result (by simpa using found)
      omega
    cases first with
    | none => simpa [List.zipIdx_cons] using tail
    | some result =>
      have here := placed 0 result (by simp)
      simp only [Nat.add_zero] at here
      simpa [List.zipIdx_cons, here] using tail

theorem collect_positions {K : Type} [DecidableEq K] (graded : List (K × Entry)) :
    (positions ((collect Prod.fst Prod.snd graded).map Prod.snd)).Perm
      (graded.map fun entry => entry.2.2) := by
  have known := (collect_perm Prod.fst Prod.snd graded).map Prod.snd
  simpa [positions, List.flatMap_def, Function.comp_def] using known

section Laws

variable [PyRuntime]

theorem orderedGroups_perm (buckets : List (List Entry)) :
    (orderedGroups buckets).flatten.Perm (positions buckets) := by
  have sorted := (sortBy_perm groupKey (buckets.map (sortBy fun entry => toLex entry))).flatten
  have inner := flatten_map_perm buckets (sortBy fun entry => toLex entry) (sortBy_perm _)
  rw [orderedGroups, ← List.map_flatten, positions]
  exact (sorted.trans inner).map Prod.snd

/-! ## Logs and traces -/

theorem logBuckets_partitions [Drain] (items : List Signal) :
    Partitions (logBuckets items) items.length := by
  have known := collect_positions (items.zipIdx.map fun placed =>
    (Drain.clusterId ((items.take (placed.2 + 1)).map Signal.raw),
      ((levelOrder (levelOf placed.1.raw), placed.2) : Entry)))
  rw [Partitions, ← zipIdx_positions]
  simpa [logBuckets, Function.comp_def] using known

variable {F : Type} [PyFloat F]

/-- A span keeps its position through its bucket. -/
theorem gradedSpan_index {item : Signal} {idx : Nat} {graded : (PyStr × PyStr) × GradedSpan F}
    (returned : gradedSpan item idx = .ok graded) : graded.2.2.2 = idx := by
  obtain ⟨fields, -, same⟩ := bind_ok_iff.mp returned
  obtain rfl := Except.ok.inj same
  rfl

omit [PyRuntime] [PyFloat F] in
@[simp] theorem rankSpans_positions (spans : List (GradedSpan F)) :
    (rankSpans spans).map Prod.snd = spans.map fun span => span.2.2 := by
  rw [rankSpans, List.map_map]
  conv_rhs => rw [← List.zipIdx_map_fst 0 spans, List.map_map]
  rfl

/-- Every position is in one of the groups of spans, once. -/
theorem spanGroups_positions {items : List Signal} {groups : List (List (GradedSpan F))}
    (returned : spanGroups F items = .ok groups) :
    (groups.flatten.map fun span => span.2.2).Perm (List.range items.length) := by
  obtain ⟨graded, attempted, same⟩ := bind_ok_iff.mp returned
  obtain rfl := Except.ok.inj same
  have places : graded.map (fun entry => entry.2.2.2) = items.zipIdx.map Prod.snd := by
    apply map_of_mapM attempted
    intro item _ result found
    exact gradedSpan_index found
  have collected := (collect_perm Prod.fst Prod.snd graded).map fun span => span.2.2
  have sorted := (flatten_map_perm ((collect Prod.fst Prod.snd graded).map Prod.snd)
    (PyRuntime.sort spanLt) (PyRuntime.sort_perm spanLt)).map fun span => span.2.2
  rw [← zipIdx_positions, ← places]
  rw [List.map_map] at sorted
  apply sorted.trans
  simpa [List.flatMap_def, Function.comp_def] using collected

theorem traceBuckets_partitions {items : List Signal} {buckets : List (List Entry)}
    (returned : traceBuckets F items = .ok buckets) : Partitions buckets items.length := by
  obtain ⟨groups, grouped, rfl⟩ := map_ok_iff.mp returned
  have known := spanGroups_positions grouped
  rw [List.map_flatten] at known
  simpa [Partitions, positions, List.map_flatten, Function.comp_def] using known

/-! ## Metrics -/

theorem metricPoint_some {trigger : Option DateTime} {item : Signal} {idx : Nat}
    {point : MetricPoint F} (returned : metricPoint trigger item idx = .ok (some point)) :
    point.index = idx ∧ point.series.1 = item.service ∧
      (∃ rest, metricPairs item.raw = .ok ((point.series.2, point.value) :: rest)) ∧
      beforeTrigger trigger (parseTs item.timestamp) = .ok point.isBase := by
  obtain ⟨pairs, parsed, rest⟩ := bind_ok_iff.mp returned
  cases pairs with
  | nil => simp [pure, Except.pure] at rest
  | cons pair others =>
    obtain ⟨isBase, compared, same⟩ := bind_ok_iff.mp rest
    obtain rfl := Option.some.inj (Except.ok.inj same)
    exact ⟨rfl, rfl, ⟨others, parsed⟩, compared⟩

theorem metricPoint_none {trigger : Option DateTime} {item : Signal} {idx : Nat} :
    metricPoint (F := F) trigger item idx = .ok none ↔
      metricPairs item.raw = .ok ([] : List (PyStr × F)) := by
  constructor
  · intro returned
    obtain ⟨pairs, parsed, rest⟩ := bind_ok_iff.mp returned
    cases pairs with
    | nil => exact parsed
    | cons pair others =>
      obtain ⟨isBase, -, same⟩ := bind_ok_iff.mp rest
      simp [pure, Except.pure] at same
  · intro parsed
    simp [metricPoint, parsed, bind, Except.bind, pure, Except.pure]

/-- Each position has a point or is among the positions without one. -/
theorem metricPoints_positions {items : List Signal} {triggerTime : PyStr}
    {points : List (MetricPoint F)} {unparsed : List Nat}
    (returned : metricPoints items triggerTime = .ok (points, unparsed)) :
    (points.map MetricPoint.index ++ unparsed).Perm (List.range items.length) := by
  obtain ⟨attempts, attempted, same⟩ := bind_ok_iff.mp returned
  obtain ⟨rfl, rfl⟩ := Prod.mk.inj (Except.ok.inj same)
  have related := mapM_ok_iff.mp attempted
  have size : attempts.length = items.length := by
    rw [← related.length_eq, List.length_zipIdx]
  have placed : ∀ place point, attempts[place]? = some (some point) → point.index = 0 + place := by
    intro place point found
    obtain ⟨inside, value⟩ := List.getElem?_eq_some_iff.mp found
    have here := List.forall₂_iff_get.mp related
    have made := here.2 place (by rw [here.1]; exact inside) inside
    simp only [List.get_eq_getElem, List.getElem_zipIdx, value] at made
    exact (metricPoint_some made).1
  rw [some_positions MetricPoint.index placed, ← List.map_append, ← size, ← zipIdx_positions]
  have parts := List.filter_append_perm (fun entry : Option (MetricPoint F) × Nat =>
    entry.1.isSome) attempts.zipIdx
  have without : (fun entry : Option (MetricPoint F) × Nat => entry.1.isNone) =
      fun entry => !entry.1.isSome := by
    funext entry
    cases entry.1 <;> rfl
  rw [without]
  exact parts.map Prod.snd

omit [PyRuntime] in
/-- Grading keeps the points of a series. -/
theorem gradeSeries_positions {points : List (MetricPoint F)} {entries : List Entry}
    (returned : gradeSeries points = .ok entries) :
    entries.map Prod.snd = points.map MetricPoint.index := by
  dsimp only [gradeSeries] at returned
  obtain ⟨mu, -, rest⟩ := bind_ok_iff.mp returned
  obtain ⟨sigma, -, same⟩ := bind_ok_iff.mp rest
  obtain rfl := Except.ok.inj same
  simp

omit [PyRuntime] in
/-- Before the positions without a pair are added, the buckets are the series. -/
theorem gradedSeries_positions {points : List (MetricPoint F)}
    {buckets : List ((PyStr × PyStr) × List Entry)}
    (returned : (collect MetricPoint.series id points).mapM
      (fun series => do return (series.1, ← gradeSeries series.2)) = .ok buckets) :
    (positions (buckets.map Prod.snd)).Perm (points.map MetricPoint.index) ∧
      buckets.map Prod.fst = (collect MetricPoint.series id points).map Prod.fst := by
  constructor
  · have same : buckets.map (fun bucket => bucket.2.map Prod.snd) =
        (collect MetricPoint.series id points).map fun series =>
          series.2.map MetricPoint.index := by
      apply map_of_mapM returned
      intro series _ bucket found
      obtain ⟨entries, graded, same⟩ := bind_ok_iff.mp found
      obtain rfl := Except.ok.inj same
      exact gradeSeries_positions graded
    have collected := (collect_perm MetricPoint.series id points).map MetricPoint.index
    rw [positions, List.map_flatten, List.map_map]
    rw [Function.comp_def, same]
    simpa [List.flatMap_def, Function.comp_def] using collected
  · apply map_of_mapM returned
    intro series _ bucket found
    obtain ⟨entries, -, same⟩ := bind_ok_iff.mp found
    obtain rfl := Except.ok.inj same
    rfl

omit [PyRuntime] in
theorem gradedSeries_inhabited {points : List (MetricPoint F)}
    {buckets : List ((PyStr × PyStr) × List Entry)}
    (returned : (collect MetricPoint.series id points).mapM
      (fun series => do return (series.1, ← gradeSeries series.2)) = .ok buckets) :
    ∀ bucket ∈ buckets, bucket.2 ≠ [] := by
  intro bucket member
  obtain ⟨⟨key, members⟩, present, found⟩ := mem_of_mapM returned member
  obtain ⟨entries, graded, same⟩ := bind_ok_iff.mp found
  obtain rfl := Except.ok.inj same
  obtain ⟨inhabited, -⟩ := (mem_collect _ _ _ _ _).mp present
  intro empty
  have kept := gradeSeries_positions graded
  have none : entries = [] := empty
  rw [none] at kept
  exact inhabited (List.map_eq_nil_iff.mp kept.symm)

/-- Some position is without a point exactly if some raw line has no pair. -/
theorem metricPoints_unparsed {items : List Signal} {triggerTime : PyStr}
    {points : List (MetricPoint F)} {unparsed : List Nat}
    (returned : metricPoints items triggerTime = .ok (points, unparsed)) :
    unparsed ≠ [] ↔ ∃ item ∈ items, metricPairs item.raw = .ok ([] : List (PyStr × F)) := by
  obtain ⟨attempts, attempted, same⟩ := bind_ok_iff.mp returned
  obtain ⟨rfl, rfl⟩ := Prod.mk.inj (Except.ok.inj same)
  constructor
  · intro some
    obtain ⟨idx, found⟩ := List.exists_mem_of_ne_nil _ some
    obtain ⟨⟨attempt, place⟩, listed, -⟩ := List.mem_map.mp found
    obtain ⟨member, missing⟩ := List.mem_filter.mp listed
    have present : attempt ∈ attempts := List.fst_mem_of_mem_zipIdx member
    obtain ⟨⟨item, idx⟩, inside, made⟩ := mem_of_mapM attempted present
    obtain rfl := Option.isNone_iff_eq_none.mp missing
    exact ⟨item, List.fst_mem_of_mem_zipIdx inside, metricPoint_none.mp made⟩
  · rintro ⟨item, member, parsed⟩ empty
    obtain ⟨idx, inside, found⟩ := List.mem_iff_getElem.mp member
    have listed : (item, idx) ∈ items.zipIdx := by
      rw [List.mem_zipIdx_iff_getElem?, List.getElem?_eq_getElem inside, found]
    obtain ⟨attempt, present, made⟩ := mapM_of_mem attempted listed
    have missing : metricPoint (F := F) (triggerDt triggerTime) item idx = .ok none :=
      metricPoint_none.mpr parsed
    obtain rfl := Except.ok.inj (made.symm.trans missing)
    obtain ⟨place, within, here⟩ := List.mem_iff_getElem.mp present
    have counted : (none, place) ∈ attempts.zipIdx.filter fun entry => entry.1.isNone := by
      rw [List.mem_filter, List.mem_zipIdx_iff_getElem?, List.getElem?_eq_getElem within, here]
      exact ⟨rfl, rfl⟩
    have listedPlace := List.mem_map_of_mem (f := Prod.snd) counted
    rw [empty] at listedPlace
    simp at listedPlace

/-- The series of a point is that of the first pair of its item. -/
theorem metricPoints_at {items : List Signal} {triggerTime : PyStr}
    {points : List (MetricPoint F)} {unparsed : List Nat}
    (returned : metricPoints items triggerTime = .ok (points, unparsed)) (service label : PyStr)
    (idx : Nat) :
    (∃ point ∈ points, point.index = idx ∧ point.series = (service, label)) ↔
      ∃ item, items[idx]? = some item ∧ item.service = service ∧
        ∃ value rest, metricPairs item.raw = .ok ((label, (value : F)) :: rest) := by
  obtain ⟨attempts, attempted, same⟩ := bind_ok_iff.mp returned
  obtain ⟨rfl, rfl⟩ := Prod.mk.inj (Except.ok.inj same)
  constructor
  · rintro ⟨point, listed, rfl, series⟩
    obtain ⟨attempt, present, kept⟩ := List.mem_filterMap.mp listed
    obtain rfl : attempt = some point := kept
    obtain ⟨⟨item, idx⟩, inside, made⟩ := mem_of_mapM attempted present
    obtain ⟨placed, owner, ⟨rest, parsed⟩, -⟩ := metricPoint_some made
    rw [series] at owner parsed
    rw [List.mem_zipIdx_iff_getElem?] at inside
    exact ⟨item, placed ▸ inside, owner.symm, point.value, rest, parsed⟩
  · rintro ⟨item, found, owner, value, rest, parsed⟩
    have listed : (item, idx) ∈ items.zipIdx := List.mem_zipIdx_iff_getElem?.mpr found
    obtain ⟨attempt, present, made⟩ := mapM_of_mem attempted listed
    cases attempt with
    | none =>
      rw [metricPoint_none, parsed] at made
      simp at made
    | some point =>
      obtain ⟨placed, own, ⟨others, again⟩, -⟩ := metricPoint_some made
      obtain ⟨first, -⟩ := List.cons.inj (Except.ok.inj (again.symm.trans parsed))
      obtain ⟨named, -⟩ := Prod.mk.inj first
      exact ⟨point, List.mem_filterMap.mpr ⟨some point, present, rfl⟩, placed,
        Prod.ext (own.trans owner) named⟩

/-- The series are those of the first pairs. -/
theorem metricPoints_series {items : List Signal} {triggerTime : PyStr}
    {points : List (MetricPoint F)} {unparsed : List Nat}
    (returned : metricPoints items triggerTime = .ok (points, unparsed)) (service label : PyStr) :
    (∃ point ∈ points, point.series = (service, label)) ↔
      ∃ item ∈ items, item.service = service ∧
        ∃ value rest, metricPairs item.raw = .ok ((label, (value : F)) :: rest) := by
  have placed := metricPoints_at returned service label
  constructor
  · rintro ⟨point, listed, series⟩
    obtain ⟨item, found, owned⟩ := (placed point.index).mp ⟨point, listed, rfl, series⟩
    exact ⟨item, List.mem_of_getElem? found, owned⟩
  · rintro ⟨item, member, owned⟩
    obtain ⟨idx, found⟩ := List.mem_iff_getElem?.mp member
    obtain ⟨point, listed, -, series⟩ := (placed idx).mpr ⟨item, found, owned⟩
    exact ⟨point, listed, series⟩

/-- A raw line without a pair, and a series under the key that is reserved for such
lines. -/
def ReservedCollision (F : Type) [PyFloat F] (items : List Signal) : Prop :=
  (∃ item ∈ items, metricPairs item.raw = .ok ([] : List (PyStr × F))) ∧
    ∃ item ∈ items, item.service = [] ∧
      ∃ value rest, metricPairs item.raw = .ok ((py "(미파싱)", (value : F)) :: rest)

theorem metricBuckets_partitions_iff {items : List Signal} {triggerTime : PyStr}
    {buckets : List ((PyStr × PyStr) × List Entry)}
    (returned : metricBuckets F items triggerTime = .ok buckets) :
    Partitions (buckets.map Prod.snd) items.length ↔ ¬ ReservedCollision F items := by
  obtain ⟨⟨points, unparsed⟩, read, rest⟩ := bind_ok_iff.mp returned
  obtain ⟨graded, grading, same⟩ := bind_ok_iff.mp rest
  obtain rfl := Except.ok.inj same
  obtain ⟨placed, keys⟩ := gradedSeries_positions grading
  have all := metricPoints_positions read
  have missing := metricPoints_unparsed read
  have series : unparsedKey ∈ graded.map Prod.fst ↔
      ∃ item ∈ items, item.service = [] ∧
        ∃ value rest, metricPairs item.raw = .ok ((py "(미파싱)", (value : F)) :: rest) := by
    rw [keys, collect, mem_keys]
    exact metricPoints_series read [] (py "(미파싱)")
  rw [ReservedCollision, ← missing, ← series, Partitions]
  by_cases none : unparsed = []
  · subst none
    simpa using placed.trans (by simpa using all)
  · rw [if_neg none]
    have size := all.length_eq
    rw [List.length_append, ← placed.length_eq, List.length_range] at size
    by_cases used : unparsedKey ∈ graded.map Prod.fst
    · simp only [none, used, ne_eq, not_false_eq_true, and_self, not_true_eq_false, iff_false]
      intro partition
      obtain ⟨before, old, after, split, updated⟩ := upsert_of_mem
        (fun _ => unparsed.map fun idx => ((normalGrade, idx) : Entry)) used
      -- the series that is replaced is not empty, so positions are missing
      have inhabited : old ≠ [] :=
        gradedSeries_inhabited grading (unparsedKey, old) (by simp [split])
      have positive : 0 < old.length := List.length_pos_iff.mpr inhabited
      have count := partition.length_eq
      rw [updated, List.length_range] at count
      rw [split] at size
      simp only [positions, List.map_append, List.map_cons, List.flatten_append, List.flatten_cons,
        List.length_append, List.length_map] at count size
      omega
    · simp only [used, and_false, not_false_eq_true, iff_true]
      rw [upsert_of_not_mem _ used]
      have appended : positions ((graded ++ [(unparsedKey,
          unparsed.map fun idx => ((normalGrade, idx) : Entry))]).map Prod.snd) =
          positions (graded.map Prod.snd) ++ unparsed := by
        simp [positions, Function.comp_def]
      rw [appended]
      exact (placed.append_right unparsed).trans all

/-- With a collision or without, no position is repeated. -/
theorem metricBuckets_subperm {items : List Signal} {triggerTime : PyStr}
    {buckets : List ((PyStr × PyStr) × List Entry)}
    (returned : metricBuckets F items triggerTime = .ok buckets) :
    (positions (buckets.map Prod.snd)).Subperm (List.range items.length) := by
  obtain ⟨⟨points, unparsed⟩, read, rest⟩ := bind_ok_iff.mp returned
  obtain ⟨graded, grading, same⟩ := bind_ok_iff.mp rest
  obtain rfl := Except.ok.inj same
  obtain ⟨placed, -⟩ := gradedSeries_positions grading
  have all := (placed.append_right unparsed).trans (metricPoints_positions read)
  refine List.Subperm.trans ?_ all.subperm
  by_cases none : unparsed = []
  · simp only [none, if_true, List.append_nil]
    exact List.Subperm.refl _
  · rw [if_neg none]
    by_cases used : unparsedKey ∈ graded.map Prod.fst
    · obtain ⟨before, old, after, split, updated⟩ := upsert_of_mem
        (fun _ => unparsed.map fun idx => ((normalGrade, idx) : Entry)) used
      rw [updated, split]
      simp only [positions, List.map_append, List.map_cons, List.flatten_append, List.flatten_cons,
        List.map_map, Function.comp_def, List.map_id', List.append_assoc]
      apply (List.subperm_append_left _).mpr
      have swapped : (unparsed ++ (after.map Prod.snd).flatten.map Prod.snd).Perm
          ((after.map Prod.snd).flatten.map Prod.snd ++ unparsed) := List.perm_append_comm
      exact swapped.subperm.trans (List.sublist_append_right _ _).subperm
    · rw [upsert_of_not_mem _ used]
      simp only [positions, List.map_append, List.map_cons, List.map_nil, List.flatten_append,
        List.flatten_cons, List.flatten_nil, List.append_nil, List.map_map, Function.comp_def,
        List.map_id']
      exact List.Subperm.refl _

/-! ## The selection -/

/-- The bucketer of every modality partitions the positions, except where the reserved
key collides. -/
theorem bucketsOf_partitions_iff [Drain] {modality : Modality} {items : List Signal}
    {triggerTime : PyStr} {buckets : List (List Entry)}
    (returned : bucketsOf F modality items triggerTime = .ok buckets) :
    Partitions buckets items.length ↔ ¬ (modality = .metric ∧ ReservedCollision F items) := by
  cases modality with
  | log =>
    obtain rfl := Except.ok.inj returned
    simpa using logBuckets_partitions items
  | metric =>
    obtain ⟨keyed, bucketed, rfl⟩ := map_ok_iff.mp returned
    simpa using metricBuckets_partitions_iff bucketed
  | trace => simpa using traceBuckets_partitions returned

/-- The positions in the buckets are distinct, in any case. -/
theorem bucketsOf_subperm [Drain] {modality : Modality} {items : List Signal}
    {triggerTime : PyStr} {buckets : List (List Entry)}
    (returned : bucketsOf F modality items triggerTime = .ok buckets) :
    (positions buckets).Subperm (List.range items.length) := by
  cases modality with
  | log =>
    obtain rfl := Except.ok.inj returned
    exact (logBuckets_partitions items).subperm
  | metric =>
    obtain ⟨keyed, bucketed, rfl⟩ := map_ok_iff.mp returned
    exact metricBuckets_subperm bucketed
  | trace => exact (traceBuckets_partitions returned).subperm

/-- The picked positions are distinct positions of the list, as many as the limit and the
buckets allow. -/
theorem pickedPositions_spec [Drain] {modality : Modality} {items : List Signal}
    {triggerTime : PyStr} {cap : Int} {picked : List Nat}
    (returned : pickedPositions F modality items triggerTime cap = .ok picked) :
    picked.Subperm (List.range items.length) ∧
      ∃ buckets, bucketsOf F modality items triggerTime = .ok buckets ∧
        picked.length = min cap.toNat (positions buckets).length := by
  obtain ⟨buckets, bucketed, same⟩ := bind_ok_iff.mp returned
  obtain rfl := Except.ok.inj same
  have sorted := sortBy_perm (chronKey items) (roundRobin (orderedGroups buckets) cap)
  have ordered := orderedGroups_perm buckets
  constructor
  · have taken := roundRobin_sublist (orderedGroups buckets) cap
    exact (sorted.subperm.trans (taken.trans ordered.subperm)).trans (bucketsOf_subperm bucketed)
  · refine ⟨buckets, bucketed, ?_⟩
    rw [sorted.length_eq, roundRobin_length, ordered.length_eq]

omit [PyRuntime] in
/-- The items at positions of a list, one by one. -/
theorem items_at {α : Type} {items : List α} {places : List Nat}
    (within : ∀ place ∈ places, place < items.length) :
    List.Forall₂ (fun place item => items[place]? = some item) places
      (places.filterMap fun place => items[place]?) := by
  induction places with
  | nil => exact List.Forall₂.nil
  | cons place rest inductionHypothesis =>
    have found := List.getElem?_eq_getElem (within place List.mem_cons_self)
    rw [List.filterMap_cons, found]
    exact List.Forall₂.cons found
      (inductionHypothesis fun other member => within other (List.mem_cons_of_mem _ member))

omit [PyRuntime] in
/-- Distinct positions of a list. -/
theorem places_distinct {places : List Nat} {count : Nat}
    (inside : places.Subperm (List.range count)) :
    places.Nodup ∧ ∀ place ∈ places, place < count := by
  constructor
  · obtain ⟨sorted, same, sublist⟩ := inside
    exact same.nodup_iff.mp (List.nodup_range.sublist sublist)
  · intro place member
    exact List.mem_range.mp (inside.subset member)

/-- From a list longer than the limit, exactly as many items as the limit are selected,
and each bucketer partitions the positions, except exactly where the reserved key of the
metric bucketer collides with a series. -/
theorem selection_capacity [Drain] (modality : Modality) (items : List Dict)
    (triggerTime : PyStr) (limit : Int) (nonneg : 0 ≤ limit) (longer : limit < items.length)
    (selection : Selection)
    (returned : selectSignals F modality items triggerTime limit = .ok selection) :
    ((selection.items.length : Int) = limit ∧ TakenFrom items selection.items ∧
        ∃ buckets, bucketsOf F modality (items.map signalOf) triggerTime = .ok buckets ∧
          Partitions buckets items.length) ↔
      ¬ (modality = .metric ∧ ReservedCollision F (items.map signalOf)) := by
  rw [selectSignals, if_neg (by omega)] at returned
  obtain ⟨picked, picking, same⟩ := bind_ok_iff.mp returned
  obtain rfl := Except.ok.inj same
  obtain ⟨inside, buckets, bucketed, size⟩ := pickedPositions_spec picking
  have decided := bucketsOf_partitions_iff bucketed
  rw [List.length_map] at inside decided
  obtain ⟨distinct, within⟩ := places_distinct inside
  have related := items_at within
  rw [← decided]
  constructor
  · rintro ⟨-, -, others, again, partition⟩
    obtain rfl := Except.ok.inj (bucketed.symm.trans again)
    exact partition
  · intro partition
    have full := partition.length_eq
    rw [List.length_range] at full
    refine ⟨?_, ⟨picked, distinct, related⟩, buckets, bucketed, partition⟩
    rw [← related.length_eq, size, full]
    omega

end Laws

/-! ## Three lines without a service -/

/-- A miner that puts every line into one cluster. -/
@[reducible] def oneCluster : Drain := ⟨fun _ => 1, fun lines => lines.getLast?.getD []⟩

/-- An item at one fixed time. -/
def sampleItem (service raw : String) : Dict :=
  Signal.item ⟨py "2026-01-15T10:00:00Z", py service, py raw⟩

/-- Two points of a series with the reserved key, and a line without a pair. -/
def collidingItems : List Dict :=
  [sampleItem "" "\x7b\"(미파싱)\": 1\x7d", sampleItem "" "\x7b\"(미파싱)\": 1\x7d", sampleItem "" "?"]

open ReferenceInterpreter in
/-- With room for two of the three, one is selected. -/
theorem capacity_lost : ∃ selection,
    @selectSignals asciiRuntime FloatLit exactDecimals oneCluster .metric collidingItems [] 2 =
      .ok selection ∧ selection.items.length = 1 ∧ selection.total = 3 :=
  ⟨⟨[sampleItem "" "?"], 3⟩, by decide +kernel, rfl, rfl⟩

open ReferenceInterpreter in
theorem selection_capacity_steady :
    let items := [sampleItem "a" "cpu=1", sampleItem "a" "cpu=1", sampleItem "" "?"]
    (((2 : Nat) : Int) = 2 ∧ TakenFrom items [sampleItem "a" "cpu=1", sampleItem "" "?"] ∧
        ∃ buckets, @bucketsOf asciiRuntime FloatLit exactDecimals oneCluster .metric
            (items.map signalOf) [] = .ok buckets ∧ Partitions buckets items.length) ↔
      ¬ (Modality.metric = .metric ∧
        @ReservedCollision asciiRuntime FloatLit exactDecimals (items.map signalOf)) :=
  @selection_capacity asciiRuntime FloatLit exactDecimals oneCluster .metric
    [sampleItem "a" "cpu=1", sampleItem "a" "cpu=1", sampleItem "" "?"] [] 2 (by decide)
    (by decide) ⟨[sampleItem "a" "cpu=1", sampleItem "" "?"], 3⟩ (by decide +kernel)

end RcaBackend
