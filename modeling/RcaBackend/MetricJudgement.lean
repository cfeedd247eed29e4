import RcaBackend.SelectionPriority
import RcaBackend.TriggerSplit

/-!
# The judgement on metrics in analysis and selection

`compress_metrics` judges every pair of a line in the series of all pairs. The selection
takes the first pair of a line for the line, and judges it, by the same test, in the
series of the first pairs. So the two agree on the lines whose series have first pairs
only; a line with several pairs can have a deviant pair that the selection does not see.
-/

namespace RcaBackend

open Attempts KeyedFold

section Judgement

variable {F : Type} [PyFloat F] [PyRuntime]

/-! ## The test -/

/-- A point is after the trigger and deviates from the points of its series before it. -/
def DeviantIn (trigger : Option DateTime) (points : List (SeriesPoint F)) (point : SeriesPoint F) :
    Prop :=
  ∃ base incid mu sigma, splitPoints trigger points = .ok (base, incid) ∧ base ≠ [] ∧
    PyFloat.mean (base.map SeriesPoint.value) = .ok mu ∧
    deviation (base.map SeriesPoint.value) = .ok sigma ∧ point ∈ deviantPoints mu sigma incid

/-- The point of a pair of an item. -/
def ModalityItem.point (item : ModalityItem) (pair : PyStr × F) : SeriesPoint F :=
  ⟨parseTs item.timestamp.text, item.timestamp.text, pair.2⟩

/-- An item has a pair that `compress_metrics` lists among the deviant points of its
series. -/
def ContributesDeviant (F : Type) [PyFloat F] (items : List ModalityItem) (triggerTime : PyStr)
    (item : ModalityItem) : Prop :=
  ∃ series unparsed, metricSeries (F := F) items = .ok (series, unparsed) ∧
    ∃ pair ∈ pairsOf F item.raw, ∃ points, ((item.service, pair.1), points) ∈ series ∧
      DeviantIn (parseTs triggerTime) points (item.point pair)

/-- The position has the prior grade in its bucket. -/
def GradedPrior (buckets : List ((PyStr × PyStr) × List Entry)) (place : Nat) : Prop :=
  ∃ bucket ∈ buckets, (priorGrade, place) ∈ bucket.2

/-- All pairs of a series are the first pairs of their items. -/
def FirstOnly (F : Type) [PyFloat F] (items : List ModalityItem) (key : PyStr × PyStr) : Prop :=
  ∀ item ∈ items, ∀ pair ∈ (pairsOf F item.raw).tail, (item.service, pair.1) ≠ key

/-! ## Grades -/

omit [PyRuntime] in
/-- A graded series has the prior grade where the test succeeds. -/
theorem gradeSeries_prior_iff {points : List (MetricPoint F)} {entries : List Entry}
    (graded : gradeSeries points = .ok entries) (place : Nat) :
    (priorGrade, place) ∈ entries ↔ ∃ point ∈ points, point.index = place ∧
      point.isBase = false ∧ ∃ mu sigma,
        (points.filter MetricPoint.isBase).map MetricPoint.value ≠ [] ∧
        PyFloat.mean ((points.filter MetricPoint.isBase).map MetricPoint.value) = .ok mu ∧
        deviation ((points.filter MetricPoint.isBase).map MetricPoint.value) = .ok sigma ∧
        isDeviant mu sigma point.value = true := by
  dsimp only [gradeSeries] at graded
  obtain ⟨average, averaged, later⟩ := bind_ok_iff.mp graded
  obtain ⟨sigma, measured, same⟩ := bind_ok_iff.mp later
  obtain rfl := Except.ok.inj same
  rw [List.mem_map]
  constructor
  · rintro ⟨point, member, made⟩
    obtain ⟨marked, own⟩ := Prod.mk.inj made
    have judged : average.any (fun mu => !point.isBase && isDeviant mu sigma point.value) = true := by
      by_contra plain
      rw [if_neg plain] at marked
      simp [priorGrade, normalGrade] at marked
    obtain ⟨mu, rfl, deviant⟩ := (Option.any_eq_true _ _).mp judged
    rw [Bool.and_eq_true, Bool.not_eq_true'] at deviant
    have some : (points.filter MetricPoint.isBase).map MetricPoint.value ≠ [] := by
      intro none
      rw [meanOrNone, if_pos none] at averaged
      simp at averaged
    rw [meanOrNone, if_neg some] at averaged
    obtain ⟨value, known, same⟩ := map_ok_iff.mp averaged
    obtain rfl := Option.some.inj same
    exact ⟨point, member, own, deviant.1, value, sigma, some, known, measured, deviant.2⟩
  · rintro ⟨point, member, own, after, mu, other, some, known, knownToo, deviant⟩
    obtain rfl := Except.ok.inj (measured.symm.trans knownToo)
    rw [meanOrNone, if_neg some, known] at averaged
    obtain rfl := Except.ok.inj averaged
    refine ⟨point, member, ?_⟩
    simp [after, deviant, own]

/-! ## Two lists of the points of a series -/

/-- A point of the selection and one of a series that tell of the same pair. -/
def SamePoint (trigger : Option DateTime) (left : MetricPoint F) (right : SeriesPoint F) : Prop :=
  left.value = right.value ∧ beforeTrigger trigger right.dt = .ok left.isBase

/-- The points of the selection in a series are the first pairs of this series. -/
theorem selection_points {trigger : Option DateTime} (items : List ModalityItem) (start : Nat)
    {attempts : List (Option (MetricPoint F))}
    (attempted : ((items.map ModalityItem.signal).zipIdx start).mapM (fun entry =>
      metricPoint trigger entry.1 entry.2) = .ok attempts) (key : PyStr × PyStr) :
    List.Forall₂ (SamePoint trigger)
      ((attempts.filterMap id).filter fun point => point.series = key)
      (keyPoints (firstPair F) items key) := by
  induction items generalizing start attempts with
  | nil =>
    obtain rfl := Except.ok.inj attempted
    exact List.Forall₂.nil
  | cons item rest inductionHypothesis =>
    rw [List.map_cons, List.zipIdx_cons, List.mapM_cons] at attempted
    obtain ⟨attempt, made, later⟩ := bind_ok_iff.mp attempted
    obtain ⟨others, followed, same⟩ := bind_ok_iff.mp later
    obtain rfl := Except.ok.inj same
    have tail := inductionHypothesis (start + 1) followed
    rw [keyPoints, List.flatMap_cons]
    cases attempt with
    | none =>
      have none : firstPair F item = [] := by
        rw [firstPair, pairsOf, show metricPairs item.raw = _ from metricPoint_none.mp made]
        rfl
      rw [none]
      exact tail
    | some point =>
      obtain ⟨-, owner, ⟨pairs, parsed⟩, compared⟩ := metricPoint_some made
      have first : firstPair F item = [(point.series.2, point.value)] := by
        rw [firstPair, pairsOf, show metricPairs item.raw = _ from parsed]
        rfl
      have series : (item.service, point.series.2) = point.series := Prod.ext owner.symm rfl
      have listed : (some point :: others).filterMap id = point :: others.filterMap id := rfl
      rw [first, listed]
      by_cases own : point.series = key
      · have kept : ((point :: others.filterMap id).filter fun point => point.series = key) =
            point :: (others.filterMap id).filter fun point => point.series = key :=
          List.filter_cons_of_pos (decide_eq_true own)
        have keptPair : ([(point.series.2, point.value)].filter fun pair =>
            (item.service, pair.1) = key) = [(point.series.2, point.value)] :=
          List.filter_cons_of_pos (decide_eq_true (series.trans own))
        rw [kept, keptPair]
        apply List.Forall₂.cons _ tail
        exact ⟨rfl, compared⟩
      · have other : ¬ decide (point.series = key) = true := fun same => own (of_decide_eq_true same)
        have dropped : ((point :: others.filterMap id).filter fun point => point.series = key) =
            (others.filterMap id).filter fun point => point.series = key :=
          List.filter_cons_of_neg other
        have droppedPair : ([(point.series.2, point.value)].filter fun pair =>
            (item.service, pair.1) = key) = [] :=
          List.filter_cons_of_neg fun same => own (series.symm.trans (of_decide_eq_true same))
        rw [dropped, droppedPair]
        exact tail

omit [PyFloat F] [PyRuntime] in
/-- Lists of the same points split into the same values. -/
theorem samePoint_split {trigger : Option DateTime} {left : List (MetricPoint F)}
    {right : List (SeriesPoint F)} (same : List.Forall₂ (SamePoint trigger) left right) :
    ∃ base incid, splitPoints trigger right = .ok (base, incid) ∧
      base.map SeriesPoint.value = (left.filter MetricPoint.isBase).map MetricPoint.value ∧
      ∀ point, point ∈ incid ↔ point ∈ right ∧ beforeTrigger trigger point.dt = .ok false := by
  have each : ∀ point ∈ right, beforeTrigger trigger point.dt =
      .ok ((beforeTrigger trigger point.dt).toOption.getD false) := by
    intro point member
    obtain ⟨other, -, -, compared⟩ := exists_left same member
    rw [compared]
    rfl
  refine ⟨_, _, splitPoints_eq each, ?_, ?_⟩
  · clear each
    induction same with
    | nil => rfl
    | @cons point other left right here _ inductionHypothesis =>
      obtain ⟨value, compared⟩ := here
      cases side : point.isBase with
      | true =>
        rw [List.filter_cons_of_pos (by simp [compared, side, Except.toOption]),
          List.filter_cons_of_pos side]
        rw [List.map_cons, List.map_cons, inductionHypothesis, value]
      | false =>
        rw [List.filter_cons_of_neg (by simp [compared, side, Except.toOption]),
          List.filter_cons_of_neg (by simp [side]), inductionHypothesis]
  · intro point
    rw [List.mem_filter]
    constructor
    · rintro ⟨member, after⟩
      have compared := each point member
      rw [Bool.not_eq_true'] at after
      rw [after] at compared
      exact ⟨member, compared⟩
    · rintro ⟨member, compared⟩
      rw [compared]
      exact ⟨member, rfl⟩

omit [PyRuntime] in
/-- The test in a series of points, in terms of the same points of the selection. -/
theorem deviantIn_iff {trigger : Option DateTime} {left : List (MetricPoint F)}
    {right : List (SeriesPoint F)} (same : List.Forall₂ (SamePoint trigger) left right)
    (point : SeriesPoint F) :
    DeviantIn trigger right point ↔
      point ∈ right ∧ beforeTrigger trigger point.dt = .ok false ∧ ∃ mu sigma,
        (left.filter MetricPoint.isBase).map MetricPoint.value ≠ [] ∧
        PyFloat.mean ((left.filter MetricPoint.isBase).map MetricPoint.value) = .ok mu ∧
        deviation ((left.filter MetricPoint.isBase).map MetricPoint.value) = .ok sigma ∧
        isDeviant mu sigma point.value = true := by
  obtain ⟨base, incid, split, values, members⟩ := samePoint_split same
  rw [← values]
  constructor
  · rintro ⟨others, rest, mu, sigma, again, some, known, measured, deviant⟩
    obtain ⟨rfl, rfl⟩ := Prod.mk.inj (Except.ok.inj (split.symm.trans again))
    obtain ⟨inside, judged⟩ := List.mem_filter.mp deviant
    obtain ⟨present, after⟩ := (members point).mp inside
    refine ⟨present, after, mu, sigma, ?_, known, measured, judged⟩
    intro none
    exact some (List.map_eq_nil_iff.mp none)
  · rintro ⟨present, after, mu, sigma, some, known, measured, judged⟩
    refine ⟨base, incid, mu, sigma, split, ?_, known, measured, ?_⟩
    · intro none
      exact some (by rw [none, List.map_nil])
    · exact List.mem_filter.mpr ⟨(members point).mpr ⟨present, after⟩, judged⟩

/-! ## The grade of an item -/

/-- The points with the index of an item are the point of this item. -/
theorem point_at {items : List ModalityItem} {triggerTime : PyStr}
    {points : List (MetricPoint F)} {unparsed : List Nat}
    (read : metricPoints (items.map ModalityItem.signal) triggerTime = .ok (points, unparsed))
    {place : Nat} {item : ModalityItem} (there : items[place]? = some item)
    (point : MetricPoint F) :
    point ∈ points ∧ point.index = place ↔
      metricPoint (parseTs triggerTime) item.signal place = .ok (some point) := by
  obtain ⟨attempts, attempted, same⟩ := bind_ok_iff.mp read
  obtain ⟨rfl, rfl⟩ := Prod.mk.inj (Except.ok.inj same)
  rw [triggerDt_eq] at attempted
  have signal : (items.map ModalityItem.signal)[place]? = some item.signal := by
    rw [List.getElem?_map, there, Option.map_some]
  constructor
  · rintro ⟨member, own⟩
    obtain ⟨attempt, present, kept⟩ := List.mem_filterMap.mp member
    obtain rfl : attempt = some point := kept
    obtain ⟨⟨other, idx⟩, inside, made⟩ := mem_of_mapM attempted present
    obtain rfl : idx = place := by
      rw [← own]
      exact (metricPoint_some made).1.symm
    rw [List.mem_zipIdx_iff_getElem?] at inside
    obtain rfl := Option.some.inj (signal.symm.trans inside)
    exact made
  · intro made
    have listed : (item.signal, place) ∈ (items.map ModalityItem.signal).zipIdx :=
      List.mem_zipIdx_iff_getElem?.mpr signal
    obtain ⟨attempt, present, found⟩ := mapM_of_mem attempted listed
    obtain rfl := Except.ok.inj (made.symm.trans found)
    exact ⟨List.mem_filterMap.mpr ⟨_, present, rfl⟩, (metricPoint_some made).1⟩

/-- Only lines that can be read have pairs. -/
theorem metricPairs_of_pairsOf {raw : PyStr} {pair : PyStr × F} {rest : List (PyStr × F)}
    (pairs : pairsOf F raw = pair :: rest) : metricPairs raw = .ok (pair :: rest) := by
  rw [pairsOf] at pairs
  cases parsed : metricPairs (F := F) raw with
  | error error =>
    rw [parsed] at pairs
    simp [Except.toOption] at pairs
  | ok value =>
    rw [parsed] at pairs
    exact congrArg Except.ok pairs

/-- The bucketer judges an item by its first pair, in the series of the first pairs. -/
theorem isPrior_iff_deviant {items : List ModalityItem} {triggerTime : PyStr}
    (returned : Returns (metricBuckets F (items.map ModalityItem.signal) triggerTime))
    {place : Nat} {item : ModalityItem} (there : items[place]? = some item) :
    isPrior F .metric (items.map ModalityItem.signal) triggerTime place = true ↔
      ∃ pair rest, pairsOf F item.raw = pair :: rest ∧
        DeviantIn (parseTs triggerTime) (keyPoints (firstPair F) items (item.service, pair.1))
          (item.point pair) := by
  obtain ⟨buckets, bucketed⟩ := returned
  obtain ⟨⟨points, unparsed⟩, read, later⟩ := bind_ok_iff.mp bucketed
  obtain ⟨series, grading, -⟩ := bind_ok_iff.mp later
  have same : ∀ key, List.Forall₂ (SamePoint (parseTs triggerTime))
      (points.filter fun point => point.series = key) (keyPoints (firstPair F) items key) := by
    intro key
    obtain ⟨attempts, attempted, made⟩ := bind_ok_iff.mp read
    obtain ⟨rfl, -⟩ := Prod.mk.inj (Except.ok.inj made)
    rw [triggerDt_eq] at attempted
    exact selection_points items 0 attempted key
  rw [metric_prior_iff read grading]
  constructor
  · intro marked
    obtain ⟨entries, listed, inside⟩ := List.mem_flatten.mp marked
    obtain ⟨one, present, rfl⟩ := List.mem_map.mp listed
    obtain ⟨⟨key, members⟩, collected, found⟩ := mem_of_mapM grading present
    obtain ⟨entries, graded, made⟩ := bind_ok_iff.mp found
    obtain rfl := Except.ok.inj made
    obtain ⟨-, gathered⟩ := (mem_collect _ _ _ _ _).mp collected
    rw [List.map_id] at gathered
    obtain ⟨point, member, own, after, judged⟩ := (gradeSeries_prior_iff graded place).mp inside
    rw [gathered] at member judged
    obtain ⟨taken, named⟩ := List.mem_filter.mp member
    obtain rfl : point.series = key := of_decide_eq_true named
    have attempt := (point_at read there point).mp ⟨taken, own⟩
    obtain ⟨-, owner, ⟨rest, parsed⟩, compared⟩ := metricPoint_some attempt
    have pairs : pairsOf F item.raw = (point.series.2, point.value) :: rest := by
      rw [pairsOf, show metricPairs item.raw = _ from parsed]
      rfl
    have key : (item.service, point.series.2) = point.series := Prod.ext owner.symm rfl
    refine ⟨(point.series.2, point.value), rest, pairs, ?_⟩
    rw [key, deviantIn_iff (same point.series)]
    refine ⟨?_, ?_, judged⟩
    · apply mem_keyPoints.mpr
      exact ⟨item, List.mem_of_getElem? there, _, by simp [firstPair, pairs], key, rfl⟩
    · rw [← after]
      exact compared
  · rintro ⟨pair, rest, pairs, deviant⟩
    obtain ⟨-, after, judged⟩ := (deviantIn_iff (same (item.service, pair.1)) _).mp deviant
    have parsed := metricPairs_of_pairsOf pairs
    have attempt : metricPoint (parseTs triggerTime) item.signal place =
        .ok (some ⟨place, (item.service, pair.1), pair.2, false⟩) := by
      have compared : beforeTrigger (parseTs triggerTime) (parseTs item.timestamp.text) =
        .ok false := after
      simp only [metricPoint, ModalityItem.signal, parsed, bind, Except.bind, compared, pure,
        Except.pure]
    obtain ⟨taken, own⟩ := (point_at read there _).mpr attempt
    have collected := (mem_collect MetricPoint.series id points (item.service, pair.1)
      (points.filter fun point => point.series = (item.service, pair.1))).mpr
      ⟨List.ne_nil_of_mem (List.mem_filter.mpr ⟨taken, decide_eq_true rfl⟩), by rw [List.map_id]⟩
    obtain ⟨one, present, found⟩ := mapM_of_mem grading collected
    obtain ⟨entries, graded, made⟩ := bind_ok_iff.mp found
    obtain rfl := Except.ok.inj made
    apply List.mem_flatten.mpr
    refine ⟨entries, List.mem_map.mpr ⟨_, present, rfl⟩, ?_⟩
    apply (gradeSeries_prior_iff graded place).mpr
    exact ⟨_, List.mem_filter.mpr ⟨taken, decide_eq_true rfl⟩, own, rfl, judged⟩

/-- Without a collision, the grades of the buckets are the judgements. -/
theorem gradedPrior_iff {items : List Signal} {triggerTime : PyStr}
    {buckets : List ((PyStr × PyStr) × List Entry)}
    (bucketed : metricBuckets F items triggerTime = .ok buckets)
    (apart : ¬ ReservedCollision F items) {place : Nat} (inside : place < items.length) :
    GradedPrior buckets place ↔ isPrior F .metric items triggerTime place = true := by
  have graded := metricBuckets_graded bucketed
  constructor
  · rintro ⟨bucket, member, listed⟩
    exact ((graded bucket member).2 _ listed).mpr rfl
  · intro prior
    have partition := (metricBuckets_partitions_iff bucketed).mpr apart
    have listed : place ∈ positions (buckets.map Prod.snd) :=
      partition.symm.subset (List.mem_range.mpr inside)
    obtain ⟨⟨grade, position⟩, present, own⟩ := List.mem_map.mp listed
    obtain rfl : position = place := own
    obtain ⟨entries, found, held⟩ := List.mem_flatten.mp present
    obtain ⟨bucket, member, rfl⟩ := List.mem_map.mp found
    have zero : grade = 0 := ((graded bucket member).2 _ held).mp prior
    refine ⟨bucket, member, ?_⟩
    rw [priorGrade, ← zero]
    exact held

/-! ## Agreement -/

/-- The lines of items that the bucketer has graded can be read. -/
theorem pairs_returned {items : List ModalityItem} {triggerTime : PyStr}
    (returned : Returns (metricBuckets F (items.map ModalityItem.signal) triggerTime)) :
    ∀ item ∈ items, Returns (metricPairs (F := F) item.raw) := by
  obtain ⟨both, read, -⟩ := returns_bind_iff.mp returned
  obtain ⟨attempts, attempted, -⟩ := bind_ok_iff.mp read
  intro item member
  obtain ⟨place, inside, rfl⟩ := List.mem_iff_getElem.mp member
  have listed : (items[place].signal, place) ∈ (items.map ModalityItem.signal).zipIdx := by
    rw [List.mem_zipIdx_iff_getElem?, List.getElem?_map, List.getElem?_eq_getElem inside]
    rfl
  obtain ⟨point, -, found⟩ := mapM_of_mem attempted listed
  obtain ⟨pairs, parsed, -⟩ := bind_ok_iff.mp found
  exact ⟨pairs, parsed⟩

/-- Of items that can be read, those contribute a deviant point that have one in the series
of all pairs. -/
theorem contributesDeviant_iff {items : List ModalityItem} {triggerTime : PyStr}
    (each : ∀ item ∈ items, Returns (metricPairs (F := F) item.raw)) {item : ModalityItem}
    (member : item ∈ items) :
    ContributesDeviant F items triggerTime item ↔
      ∃ pair ∈ pairsOf F item.raw, DeviantIn (parseTs triggerTime)
        (keyPoints (allPairs F) items (item.service, pair.1)) (item.point pair) := by
  obtain ⟨unparsed, read⟩ : ∃ unparsed, metricSeries items = .ok (collect Prod.fst Prod.snd
      ((items.map fun item => (item, pairsOf F item.raw)).flatMap pointsOf), unparsed) := by
    rw [metricSeries, itemPairs_eq each]
    exact ⟨_, rfl⟩
  constructor
  · rintro ⟨series, others, again, pair, present, points, listed, deviant⟩
    obtain ⟨rfl, -⟩ := Prod.mk.inj (Except.ok.inj (read.symm.trans again))
    obtain ⟨-, rfl⟩ := mem_series.mp listed
    exact ⟨pair, present, deviant⟩
  · rintro ⟨pair, present, deviant⟩
    refine ⟨_, unparsed, read, pair, present, _, ?_, deviant⟩
    apply mem_series.mpr
    refine ⟨?_, rfl⟩
    exact List.ne_nil_of_mem (mem_keyPoints.mpr ⟨item, member, pair, present, rfl, rfl⟩)

/-- A series that has first pairs only is the same in analysis and selection. -/
theorem keyPoints_firstOnly {items : List ModalityItem} {key : PyStr × PyStr}
    (first : FirstOnly F items key) :
    keyPoints (allPairs F) items key = keyPoints (firstPair F) items key := by
  rw [keyPoints, keyPoints]
  apply List.flatMap_congr
  intro item member
  congr 1
  cases shape : pairsOf F item.raw with
  | nil => rw [allPairs, firstPair, shape, List.take_nil]
  | cons pair rest =>
    have none : (rest.filter fun other => decide ((item.service, other.1) = key)) = [] := by
      rw [List.filter_eq_nil_iff]
      intro other present same
      exact first item member other (by simpa [shape] using present) (of_decide_eq_true same)
    rw [allPairs, firstPair, shape, List.take_succ_cons, List.take_zero, List.filter_cons,
      List.filter_cons, none, List.filter_nil]

/-- The selection judges an item by its first pair among first pairs. Where all pairs of
the item's series are first pairs, that is the judgement of the analysis. The key that is
reserved for lines without a pair is left aside. -/
theorem judgement_shared (items : List ModalityItem) (triggerTime : PyStr)
    (buckets : List ((PyStr × PyStr) × List Entry))
    (bucketed : metricBuckets F (items.map ModalityItem.signal) triggerTime = .ok buckets)
    (apart : ¬ ReservedCollision F (items.map ModalityItem.signal)) (place : Nat)
    (item : ModalityItem) (there : items[place]? = some item) :
    (GradedPrior buckets place ↔ ∃ pair rest, pairsOf F item.raw = pair :: rest ∧
        DeviantIn (parseTs triggerTime) (keyPoints (firstPair F) items (item.service, pair.1))
          (item.point pair)) ∧
      ((∀ pair ∈ pairsOf F item.raw, FirstOnly F items (item.service, pair.1)) →
        (ContributesDeviant F items triggerTime item ↔ GradedPrior buckets place)) := by
  have inside : place < (items.map ModalityItem.signal).length := by
    rw [List.length_map]
    exact (List.getElem?_eq_some_iff.mp there).1
  have member := List.mem_of_getElem? there
  have judged : GradedPrior buckets place ↔ ∃ pair rest, pairsOf F item.raw = pair :: rest ∧
      DeviantIn (parseTs triggerTime) (keyPoints (firstPair F) items (item.service, pair.1))
        (item.point pair) := by
    rw [gradedPrior_iff bucketed apart inside, isPrior_iff_deviant ⟨_, bucketed⟩ there]
  refine ⟨judged, ?_⟩
  intro first
  rw [judged, contributesDeviant_iff (pairs_returned ⟨_, bucketed⟩) member]
  constructor
  · rintro ⟨pair, present, deviant⟩
    obtain ⟨lead, rest, shape⟩ := List.exists_cons_of_ne_nil (List.ne_nil_of_mem present)
    have alone : pair = lead := by
      rw [shape] at present
      obtain same | later := List.mem_cons.mp present
      · exact same
      · -- a later pair would be in a series of first pairs
        exfalso
        exact first pair (by rw [shape]; exact List.mem_cons_of_mem _ later) item member pair
          (by rw [shape]; exact later) rfl
    subst alone
    rw [keyPoints_firstOnly (first pair present)] at deviant
    exact ⟨pair, rest, shape, deviant⟩
  · rintro ⟨pair, rest, shape, deviant⟩
    have present : pair ∈ pairsOf F item.raw := by
      rw [shape]
      exact List.mem_cons_self
    rw [← keyPoints_firstOnly (first pair present)] at deviant
    exact ⟨pair, present, deviant⟩

end Judgement

/-! ## A line with two pairs -/

/-- A metric line of the service `db`. -/
def metricLine (time : Iso8601) (raw : String) : ModalityItem := ⟨time, py "db", py raw⟩

/-- One second before the epoch. -/
def beforeEpoch : Iso8601 := ⟨py "1969-12-31T23:59:59Z", by decide⟩

/-- Two lines of two pairs, of which the second one changes after the trigger. -/
def twoPairLines : List ModalityItem :=
  [metricLine beforeEpoch "a=1 b=2", metricLine .epoch "a=1 b=9"]

set_option synthInstance.maxSize 512 in
open ReferenceInterpreter in
/-- The second pair is deviant in the analysis; the selection does not look at it. -/
theorem second_pair_unseen :
    @ContributesDeviant asciiRuntime FloatLit exactDecimals twoPairLines Iso8601.epoch.text
        (metricLine .epoch "a=1 b=9") ∧
      ∃ buckets, @metricBuckets asciiRuntime FloatLit exactDecimals
        (twoPairLines.map ModalityItem.signal) Iso8601.epoch.text = .ok buckets ∧
          ¬ GradedPrior buckets 1 := by
  constructor
  · refine ⟨[((py "db", py "a"), [⟨parseTs beforeEpoch.text, beforeEpoch.text, wholeLit 1⟩,
        ⟨parseTs Iso8601.epoch.text, Iso8601.epoch.text, wholeLit 1⟩]),
      ((py "db", py "b"), [⟨parseTs beforeEpoch.text, beforeEpoch.text, wholeLit 2⟩,
        ⟨parseTs Iso8601.epoch.text, Iso8601.epoch.text, wholeLit 9⟩])], [], by decide +kernel,
      (py "b", wholeLit 9), by decide +kernel, _, List.mem_cons_of_mem _ List.mem_cons_self,
      [⟨parseTs beforeEpoch.text, beforeEpoch.text, wholeLit 2⟩],
      [⟨parseTs Iso8601.epoch.text, Iso8601.epoch.text, wholeLit 9⟩],
      .decimal false 2000000000000000000 (-18), wholeLit 0, by decide +kernel, by simp,
      by decide +kernel, by decide +kernel, by decide +kernel⟩
  · refine ⟨[((py "db", py "a"), [(1, 0), (1, 1)])], by decide +kernel, ?_⟩
    rintro ⟨bucket, member, listed⟩
    obtain rfl := List.mem_singleton.mp member
    simp [priorGrade] at listed

/-- Two lines of one pair each. -/
def onePairLines : List ModalityItem := [metricLine beforeEpoch "b=2", metricLine .epoch "b=9"]

open ReferenceInterpreter in
theorem judgement_shared_one_pair :
    (GradedPrior [((py "db", py "b"), [(1, 0), (0, 1)])] 1 ↔
        ∃ pair rest, @pairsOf FloatLit exactDecimals asciiRuntime (py "b=9") = pair :: rest ∧
          @DeviantIn FloatLit exactDecimals (parseTs Iso8601.epoch.text)
            (keyPoints (@firstPair FloatLit exactDecimals asciiRuntime) onePairLines
              (py "db", pair.1))
            ((metricLine .epoch "b=9").point pair)) ∧
      ((∀ pair ∈ @pairsOf FloatLit exactDecimals asciiRuntime (py "b=9"),
          @FirstOnly asciiRuntime FloatLit exactDecimals onePairLines (py "db", pair.1)) →
        (@ContributesDeviant asciiRuntime FloatLit exactDecimals onePairLines Iso8601.epoch.text
            (metricLine .epoch "b=9") ↔
          GradedPrior [((py "db", py "b"), [(1, 0), (0, 1)])] 1)) := by
  have apart : ¬ @ReservedCollision asciiRuntime FloatLit exactDecimals
      (onePairLines.map ModalityItem.signal) := by
    rintro ⟨⟨item, member, none⟩, -⟩
    have some : ∀ item ∈ onePairLines.map ModalityItem.signal,
        @metricPairs FloatLit exactDecimals asciiRuntime item.raw ≠ .ok [] := by decide +kernel
    exact some item member none
  exact @judgement_shared FloatLit exactDecimals asciiRuntime onePairLines Iso8601.epoch.text
    [((py "db", py "b"), [(1, 0), (0, 1)])] (by decide +kernel) apart 1
    (metricLine .epoch "b=9") rfl

end RcaBackend
