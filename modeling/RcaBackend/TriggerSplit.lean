import RcaBackend.MetricCompression
import RcaBackend.SelectionCapacity

/-!
# Before and after the trigger

Four places compare the time of an item with that of the trigger. Each compares the
values as `fromisoformat` returns them, so a naive and an aware one raise. Where all
compared values are naive, or all are aware, an item is before the trigger exactly if
its instant is.
-/

namespace RcaBackend

open Attempts KeyedFold

/-! ## Comparison -/

/-- Both values are naive, or both are aware. -/
def DateTime.comparable (left right : DateTime) : Bool :=
  left.offset.isSome = right.offset.isSome

theorem DateTime.lt_eq (left right : DateTime) :
    left.lt right =
      if left.comparable right then .ok (decide (left.instant < right.instant))
      else .error .typeError := by
  cases mine : left.offset <;> cases other : right.offset <;>
    simp [DateTime.lt, DateTime.comparable, mine, other]

theorem DateTime.sub_eq (left right : DateTime) :
    left.sub right =
      if left.comparable right then .ok (left.instant - right.instant) else .error .typeError := by
  cases mine : left.offset <;> cases other : right.offset <;>
    simp [DateTime.sub, DateTime.comparable, mine, other]

/-- The time of an item can be compared with the trigger. -/
def ModalityItem.comparable (item : ModalityItem) (trigger : Iso8601) : Bool :=
  item.timestamp.value.comparable trigger.value

/-- The instant of an item is before that of the trigger. -/
def ModalityItem.precedes (item : ModalityItem) (trigger : Iso8601) : Bool :=
  item.timestamp.value.instant < trigger.value.instant

/-- The instant of an item is in the window around that of the trigger. -/
def ModalityItem.near (item : ModalityItem) (trigger : Iso8601) : Bool :=
  (item.timestamp.value.instant - trigger.value.instant).natAbs ≤ triggerWindow

/-- The comparison with the trigger of an accepted bundle. -/
theorem beforeTrigger_item (item : ModalityItem) (trigger : Iso8601) :
    beforeTrigger (some trigger.value) (parseTs item.timestamp.text) =
      if item.comparable trigger then .ok (item.precedes trigger) else .error .typeError := by
  rw [parseTs_text]
  exact DateTime.lt_eq _ _

theorem triggerDt_text (trigger : Iso8601) : triggerDt trigger.text = some trigger.value := by
  rw [triggerDt, parseTs_text]
  split
  · next empty =>
    have accepted := trigger.accepted
    rw [empty] at accepted
    exact absurd accepted (by decide)
  · rfl

/-! ## Logs -/

/-- A line stands on the side of its instant. -/
def OnItsSide (trigger : Iso8601) (item : ModalityItem) (line : LogRecord) : Prop :=
  line.tsDt = some item.timestamp.value ∧ line.raw = item.raw ∧
    line.isBase = item.precedes trigger

/-- A line that was compared with the trigger is near it exactly if its instant is. -/
theorem nearTrigger_item {trigger : Iso8601} {item : ModalityItem} {line : LogRecord}
    (sided : OnItsSide trigger item line) (comparable : item.comparable trigger = true) :
    nearTrigger trigger.value line = .ok (item.near trigger) := by
  have compared : item.timestamp.value.comparable trigger.value = true := comparable
  rw [nearTrigger, sided.1]
  simp only [DateTime.sub_eq, compared, if_true]
  rfl

section Logs

variable [PyRuntime] [Drain]

theorem readLines_ok_iff {trigger : Iso8601} {miners : Miners} {items : List ModalityItem} :
    Returns (readLines (some trigger.value) miners items) ↔
      ∀ item ∈ items, item.comparable trigger = true := by
  induction items generalizing miners with
  | nil => simp [readLines]
  | cons item rest inductionHypothesis =>
    rw [readLines, returns_bind_iff, List.forall_mem_cons]
    constructor
    · rintro ⟨line, read, later⟩
      obtain ⟨others, readOthers, -⟩ := returns_bind_iff.mp later
      constructor
      · obtain ⟨isBase, compared, -⟩ := bind_ok_iff.mp read
        rw [beforeTrigger_item] at compared
        by_contra incomparable
        rw [if_neg incomparable] at compared
        simp at compared
      · exact inductionHypothesis.mp ⟨others, readOthers⟩
    · rintro ⟨here, later⟩
      have compared := beforeTrigger_item item trigger
      rw [if_pos here] at compared
      obtain ⟨others, readOthers⟩ := (@inductionHypothesis (miners.add item)).mpr later
      refine ⟨_, bind_ok_iff.mpr ⟨_, compared, rfl⟩, ?_⟩
      exact returns_bind_iff.mpr ⟨others, readOthers, returns_ok _⟩

theorem readLines_sides {trigger : Iso8601} {miners : Miners} {items : List ModalityItem}
    {lines : List LogRecord} (returned : readLines (some trigger.value) miners items = .ok lines) :
    List.Forall₂ (OnItsSide trigger) items lines := by
  induction items generalizing miners lines with
  | nil =>
    obtain rfl := Except.ok.inj returned
    exact List.Forall₂.nil
  | cons item rest inductionHypothesis =>
    obtain ⟨line, read, later⟩ := bind_ok_iff.mp returned
    obtain ⟨others, readOthers, same⟩ := bind_ok_iff.mp later
    obtain rfl := Except.ok.inj same
    obtain ⟨isBase, compared, made⟩ := bind_ok_iff.mp read
    obtain rfl := Except.ok.inj made
    apply List.Forall₂.cons _ (inductionHypothesis readOthers)
    rw [beforeTrigger_item] at compared
    by_cases here : item.comparable trigger = true
    · rw [if_pos here] at compared
      exact ⟨parseTs_text _, rfl, (Except.ok.inj compared).symm⟩
    · rw [if_neg here] at compared
      simp at compared

omit [Drain] in
/-- The highlights return if each line can be compared with the trigger. -/
theorem buildHighlight_returns {F : Type} (groups : List (RankedGroup F)) {lines : List LogRecord}
    {trigger : DateTime} (near : ∀ line ∈ lines, Returns (nearTrigger trigger line))
    (triggeredBy : List PyStr) (hasProfile : Bool) :
    Returns (buildHighlight groups lines (some trigger) triggeredBy hasProfile) := by
  have returned : Returns (triggerLines trigger triggeredBy lines) := by
    rw [triggerLines]
    by_cases byLog : py "log" ∈ triggeredBy
    · rw [if_pos byLog, nearLines, returns_bind_iff]
      have judged : Returns (lines.mapM fun line => do
          return (line, ← nearTrigger trigger line)) := by
        rw [returns_mapM_iff]
        intro line member
        obtain ⟨answer, found⟩ := near line member
        exact returns_bind_iff.mpr ⟨answer, found, returns_ok _⟩
      obtain ⟨answers, found⟩ := judged
      exact ⟨answers, found, returns_ok _⟩
    · rw [if_neg byLog]
      exact returns_ok _
  obtain ⟨found, known⟩ := returned
  exact returns_bind_iff.mpr ⟨found, known, returns_ok _⟩

/-- What `compress_logs` promises for the lines of a bundle: it returns, each line stands on
the side of its instant and is near the trigger exactly if its instant is, and each group
counts its lines on either side. -/
def LogsSplit (F : Type) [PyFloat F] (profile : BaselineProfile) (items : List ModalityItem)
    (trigger : Iso8601) (triggeredBy : List PyStr) : Prop :=
  Returns (compressLogs F profile items trigger.text triggeredBy) ∧
    ∃ lines groups, analyzeLogs items trigger.text = .ok (lines, groups) ∧
      List.Forall₂ (fun item line => OnItsSide trigger item line ∧
        nearTrigger trigger.value line = .ok (item.near trigger)) items lines ∧
      ∀ key group, (key, group) ∈ groups →
        group.base = (lines.filter fun line => line.key = key).countP LogRecord.isBase ∧
        group.incid = (lines.filter fun line => line.key = key).countP fun line => !line.isBase

theorem logsSplit_iff (F : Type) [PyFloat F] (profile : BaselineProfile)
    (items : List ModalityItem) (trigger : Iso8601) (triggeredBy : List PyStr) :
    LogsSplit F profile items trigger triggeredBy ↔
      ∀ item ∈ items, item.comparable trigger = true := by
  constructor
  · rintro ⟨-, lines, groups, analyzed, -⟩
    obtain ⟨read, returned, -⟩ := bind_ok_iff.mp analyzed
    rw [triggerDt_text] at returned
    exact readLines_ok_iff.mp ⟨read, returned⟩
  · intro comparable
    obtain ⟨lines, read⟩ :=
      (@readLines_ok_iff _ _ trigger (fun _ => []) items).mpr comparable
    have sides := readLines_sides read
    have analyzed : analyzeLogs items trigger.text = .ok (lines, logGroups lines) := by
      rw [analyzeLogs, triggerDt_text, read]
      rfl
    have placed : List.Forall₂ (fun item line => OnItsSide trigger item line ∧
        nearTrigger trigger.value line = .ok (item.near trigger)) items lines := by
      rw [List.forall₂_iff_get] at sides ⊢
      obtain ⟨size, each⟩ := sides
      refine ⟨size, ?_⟩
      intro place first second
      have sided := each place first second
      exact ⟨sided, nearTrigger_item sided (comparable _ (List.get_mem _ _))⟩
    constructor
    · rw [compressLogs]
      by_cases empty : items = []
      · rw [if_pos empty]
        exact returns_ok _
      · have near : ∀ line ∈ lines, Returns (nearTrigger trigger.value line) := by
          intro line member
          obtain ⟨item, -, -, judged⟩ := exists_left placed member
          exact ⟨_, judged⟩
        obtain ⟨highlight, built⟩ := buildHighlight_returns
          ((logGroups lines).map (rankGroup (F := F) profile)) near triggeredBy (profile ≠ [])
        rw [if_neg empty]
        apply returns_bind_iff.mpr
        refine ⟨(lines, logGroups lines), analyzed, ?_⟩
        rw [triggerDt_text]
        exact returns_bind_iff.mpr ⟨highlight, built, returns_ok _⟩
    · refine ⟨lines, logGroups lines, analyzed, placed, ?_⟩
      intro key group member
      obtain ⟨first, rest, shape, rfl⟩ := mem_logGroups.mp member
      rw [shape]
      exact ⟨rfl, rfl⟩

end Logs

/-! ## Metrics -/

/-- The values that the items of one side give to a series. -/
def seriesValues {F : Type} (read : ModalityItem → List (PyStr × F)) (items : List ModalityItem)
    (side : ModalityItem → Bool) (key : PyStr × PyStr) : List F :=
  (items.filter side).flatMap fun item =>
    ((read item).filter fun pair => (item.service, pair.1) = key).map Prod.snd

section Metrics

variable (F : Type) [PyFloat F] [PyRuntime]

/-- The pairs of a raw line, where reading it returns. -/
def pairsOf (raw : PyStr) : List (PyStr × F) := (metricPairs raw).toOption.getD []

/-- The pairs of an item. -/
def allPairs (item : ModalityItem) : List (PyStr × F) := pairsOf F item.raw

/-- The first pair of an item, which stands for the item in the selection. -/
def firstPair (item : ModalityItem) : List (PyStr × F) := (pairsOf F item.raw).take 1

variable {F}

omit [PyFloat F] [PyRuntime] in
/-- The side of a point of a series. -/
def SeriesPoint.precedes (trigger : Iso8601) (point : SeriesPoint F) : Bool :=
  point.dt.any fun dt => dt.instant < trigger.value.instant

theorem metricPairs_pairsOf {raw : PyStr} (returned : Returns (metricPairs (F := F) raw)) :
    metricPairs raw = .ok (pairsOf F raw) := by
  obtain ⟨pairs, found⟩ := returned
  rw [pairsOf, found]
  rfl

omit [PyFloat F] [PyRuntime] in
theorem splitPoints_returns_iff {trigger : Option DateTime} {points : List (SeriesPoint F)} :
    Returns (splitPoints trigger points) ↔
      ∀ point ∈ points, Returns (beforeTrigger trigger point.dt) := by
  rw [splitPoints, returns_bind_iff]
  constructor
  · rintro ⟨judged, attempted, -⟩ point member
    obtain ⟨answer, -, found⟩ := mapM_of_mem attempted member
    obtain ⟨side, compared, -⟩ := bind_ok_iff.mp found
    exact ⟨side, compared⟩
  · intro each
    have judged : Returns (points.mapM fun point => do
        return (point, ← beforeTrigger trigger point.dt)) := by
      rw [returns_mapM_iff]
      intro point member
      obtain ⟨side, compared⟩ := each point member
      exact returns_bind_iff.mpr ⟨side, compared, returns_ok _⟩
    obtain ⟨answers, found⟩ := judged
    exact ⟨answers, found, returns_ok _⟩

omit [PyFloat F] [PyRuntime] in
theorem splitPoints_eq {trigger : Option DateTime} {points : List (SeriesPoint F)}
    {side : SeriesPoint F → Bool}
    (each : ∀ point ∈ points, beforeTrigger trigger point.dt = .ok (side point)) :
    splitPoints trigger points =
      .ok (points.filter side, points.filter fun point => !side point) := by
  have judged : (points.mapM fun point => do
      return (point, ← beforeTrigger trigger point.dt)) =
      .ok (points.map fun point => (point, side point)) := by
    apply mapM_eq_map
    intro point member
    rw [each point member]
    rfl
  rw [splitPoints, judged]
  simp only [bind, Except.bind, pure, Except.pure, List.filter_map, List.map_map]
  simp [Function.comp_def]

/-! ### Statistics -/

/-- The statistics of a series return. -/
def Measured (base incid : List F) : Prop :=
  (base ≠ [] → Returns (PyFloat.mean base)) ∧ (incid ≠ [] → Returns (PyFloat.mean incid)) ∧
    (base ≠ [] → incid ≠ [] → Returns (deviation base))

omit [PyRuntime] in
theorem seriesStats_returns_iff (values : List F) :
    Returns (seriesStats values) ↔ (values ≠ [] → Returns (PyFloat.mean values)) := by
  cases values with
  | nil => simp [seriesStats]
  | cons first rest =>
    rw [seriesStats, returns_bind_iff]
    constructor
    · rintro ⟨average, found, -⟩ -
      exact ⟨average, found⟩
    · intro measured
      obtain ⟨average, found⟩ := measured (List.cons_ne_nil _ _)
      exact ⟨average, found, returns_ok _⟩

theorem anomalyOf_returns_iff (base incid : List (SeriesPoint F)) :
    Returns (anomalyOf base incid) ↔
      (base ≠ [] → incid ≠ [] → Returns (PyFloat.mean (base.map SeriesPoint.value)) ∧
        Returns (deviation (base.map SeriesPoint.value))) := by
  rw [anomalyOf]
  by_cases without : base = [] ∨ incid = []
  · rw [if_pos without]
    simp only [returns_ok, true_iff]
    intro some other
    exact absurd without (not_or.mpr ⟨some, other⟩)
  · obtain ⟨some, other⟩ := not_or.mp without
    rw [if_neg without, returns_bind_iff]
    constructor
    · rintro ⟨mu, found, later⟩ - -
      obtain ⟨sigma, measured, -⟩ := returns_bind_iff.mp later
      exact ⟨⟨mu, found⟩, ⟨sigma, measured⟩⟩
    · intro measured
      obtain ⟨⟨mu, found⟩, ⟨sigma, known⟩⟩ := measured some other
      refine ⟨mu, found, returns_bind_iff.mpr ⟨sigma, known, ?_⟩⟩
      cases deviantPoints mu sigma incid <;> exact returns_ok _

/-- The row of a series whose sides are known. -/
theorem seriesRow_returns_iff {trigger : Option DateTime} {series : Series F}
    {base incid : List (SeriesPoint F)}
    (split : splitPoints trigger series.2 = .ok (base, incid)) :
    Returns (seriesRow trigger series) ↔
      Measured (base.map SeriesPoint.value) (incid.map SeriesPoint.value) := by
  have stats := seriesStats_returns_iff (base.map SeriesPoint.value)
  have others := seriesStats_returns_iff (incid.map SeriesPoint.value)
  have anomaly := anomalyOf_returns_iff base incid
  simp only [ne_eq, List.map_eq_nil_iff] at stats others
  rw [Measured]
  simp only [ne_eq, List.map_eq_nil_iff]
  rw [seriesRow, returns_bind_iff]
  constructor
  · rintro ⟨sides, found, later⟩
    obtain rfl := Except.ok.inj (split.symm.trans found)
    obtain ⟨baseText, written, later⟩ := returns_bind_iff.mp later
    obtain ⟨incidText, writtenToo, later⟩ := returns_bind_iff.mp later
    obtain ⟨judged, known, -⟩ := returns_bind_iff.mp later
    refine ⟨stats.mp ⟨_, written⟩, others.mp ⟨_, writtenToo⟩, ?_⟩
    intro some other
    exact (anomaly.mp ⟨_, known⟩ some other).2
  · rintro ⟨first, second, third⟩
    obtain ⟨baseText, written⟩ := stats.mpr first
    obtain ⟨incidText, writtenToo⟩ := others.mpr second
    obtain ⟨judged, known⟩ := anomaly.mpr fun some other => ⟨first some, third some other⟩
    refine ⟨(base, incid), split, ?_⟩
    apply returns_bind_iff.mpr
    refine ⟨baseText, written, returns_bind_iff.mpr ⟨incidText, writtenToo, ?_⟩⟩
    exact returns_bind_iff.mpr ⟨judged, known, returns_ok _⟩

/-! ### Series -/

omit [PyFloat F] [PyRuntime] in
/-- The points that the items give to a series. -/
def keyPoints (read : ModalityItem → List (PyStr × F)) (items : List ModalityItem)
    (key : PyStr × PyStr) : List (SeriesPoint F) :=
  items.flatMap fun item =>
    ((read item).filter fun pair => (item.service, pair.1) = key).map fun pair =>
      { dt := parseTs item.timestamp.text, ts := item.timestamp.text, value := pair.2 }

theorem itemPairs_returns_iff {items : List ModalityItem} :
    Returns (itemPairs (F := F) items) ↔
      ∀ item ∈ items, Returns (metricPairs (F := F) item.raw) := by
  rw [itemPairs, returns_mapM_iff]
  constructor
  · intro each item member
    obtain ⟨pairs, parsed, -⟩ := returns_bind_iff.mp (each item member)
    exact ⟨pairs, parsed⟩
  · intro each item member
    obtain ⟨pairs, parsed⟩ := each item member
    exact returns_bind_iff.mpr ⟨pairs, parsed, returns_ok _⟩

theorem itemPairs_eq {items : List ModalityItem}
    (each : ∀ item ∈ items, Returns (metricPairs (F := F) item.raw)) :
    itemPairs items = .ok (items.map fun item => (item, pairsOf F item.raw)) := by
  apply mapM_eq_map
  intro item member
  rw [metricPairs_pairsOf (each item member)]
  rfl

/-- The series of items whose lines can be read. -/
theorem mem_series {items : List ModalityItem} {key : PyStr × PyStr}
    {points : List (SeriesPoint F)} :
    (key, points) ∈ collect Prod.fst Prod.snd
        ((items.map fun item => (item, pairsOf F item.raw)).flatMap pointsOf) ↔
      points ≠ [] ∧ points = keyPoints (allPairs F) items key := by
  rw [mem_collect]
  have same : (((items.map fun item => (item, pairsOf F item.raw)).flatMap pointsOf).filter
      fun entry => entry.1 = key).map Prod.snd = keyPoints (allPairs F) items key := by
    rw [List.flatMap_map, List.filter_flatMap, List.map_flatMap, keyPoints]
    congr 1
    funext item
    rw [pointsOf, List.filter_map, List.map_map]
    rfl
  rw [same]

omit [PyFloat F] [PyRuntime] in
/-- The values on one side of a series are those of the items on this side. -/
theorem keyPoints_values {side : ModalityItem → Bool} {pointSide : SeriesPoint F → Bool}
    (agree : ∀ (item : ModalityItem) (value : F),
      pointSide ⟨some item.timestamp.value, item.timestamp.text, value⟩ = side item)
    (read : ModalityItem → List (PyStr × F)) (items : List ModalityItem) (key : PyStr × PyStr) :
    ((keyPoints read items key).filter pointSide).map SeriesPoint.value =
      seriesValues read items side key := by
  induction items with
  | nil => rfl
  | cons item rest inductionHypothesis =>
    rw [keyPoints] at inductionHypothesis
    rw [keyPoints, List.flatMap_cons, List.filter_append, List.map_append, inductionHypothesis,
      List.filter_map, List.map_map]
    by_cases here : side item = true
    · simp [seriesValues, Function.comp_def, agree, here]
    · simp [seriesValues, Function.comp_def, agree, here]

omit [PyFloat F] [PyRuntime] in
theorem mem_keyPoints {read : ModalityItem → List (PyStr × F)} {items : List ModalityItem}
    {key : PyStr × PyStr} {point : SeriesPoint F} :
    point ∈ keyPoints read items key ↔ ∃ item ∈ items, ∃ pair ∈ read item,
      (item.service, pair.1) = key ∧
        point = ⟨parseTs item.timestamp.text, item.timestamp.text, pair.2⟩ := by
  constructor
  · intro member
    obtain ⟨item, inside, listed⟩ := List.mem_flatMap.mp member
    obtain ⟨pair, kept, rfl⟩ := List.mem_map.mp listed
    obtain ⟨present, own⟩ := List.mem_filter.mp kept
    exact ⟨item, inside, pair, present, of_decide_eq_true own, rfl⟩
  · rintro ⟨item, inside, pair, present, own, rfl⟩
    apply List.mem_flatMap.mpr
    exact ⟨item, inside, List.mem_map.mpr
      ⟨pair, List.mem_filter.mpr ⟨present, decide_eq_true own⟩, rfl⟩⟩

/-- What `compress_metrics` promises for the items of a bundle: it returns, and the points
of each series are split by their instants. -/
def MetricsSplit (F : Type) [PyFloat F] (items : List ModalityItem) (trigger : Iso8601) : Prop :=
  Returns (compressMetrics F items trigger.text) ∧
    ∃ series unparsed, metricSeries (F := F) items = .ok (series, unparsed) ∧
      ∀ one ∈ series, splitPoints (some trigger.value) one.2 =
        .ok (one.2.filter (SeriesPoint.precedes trigger),
          one.2.filter fun point => !point.precedes trigger)

/-- The items whose lines give pairs can be compared with the trigger. -/
def PairedComparable (F : Type) [PyFloat F] (items : List ModalityItem) (trigger : Iso8601) :
    Prop :=
  ∀ item ∈ items, pairsOf F item.raw ≠ [] → item.comparable trigger = true

/-- With the series read, the compressor returns if each of their rows does. -/
theorem compressMetrics_returns_iff {items : List ModalityItem} {series : List (Series F)}
    {unparsed : List ModalityItem} (read : metricSeries items = .ok (series, unparsed))
    (triggerTime : PyStr) :
    Returns (compressMetrics F items triggerTime) ↔
      ∀ one ∈ series, Returns (seriesRow (parseTs triggerTime) one) := by
  rw [compressMetrics]
  by_cases empty : items = []
  · subst empty
    obtain ⟨rfl, -⟩ := Prod.mk.inj (Except.ok.inj read)
    simp [collect, keyedFold, foldFrom]
  · rw [if_neg empty]
    constructor
    · intro returned
      obtain ⟨both, found, later⟩ := returns_bind_iff.mp returned
      obtain rfl := Except.ok.inj (read.symm.trans found)
      obtain ⟨scored, attempted, -⟩ := returns_bind_iff.mp later
      exact returns_mapM_iff.mp ⟨scored, attempted⟩
    · intro each
      obtain ⟨scored, attempted⟩ := returns_mapM_iff.mpr each
      apply returns_bind_iff.mpr
      exact ⟨_, read, returns_bind_iff.mpr ⟨scored, attempted, returns_ok _⟩⟩

theorem metricsSplit_iff (items : List ModalityItem) (trigger : Iso8601) :
    MetricsSplit F items trigger ↔
      (∀ item ∈ items, Returns (metricPairs (F := F) item.raw)) ∧
        PairedComparable F items trigger ∧
        ∀ key, Measured
          (seriesValues (allPairs F) items
            (fun item => item.precedes trigger) key)
          (seriesValues (allPairs F) items
            (fun item => !item.precedes trigger) key) := by
  have before : ∀ (item : ModalityItem) (value : F), SeriesPoint.precedes trigger
      ⟨some item.timestamp.value, item.timestamp.text, value⟩ = item.precedes trigger := by
    intro item value
    rfl
  have baseValues := keyPoints_values before (allPairs F) items
  have incidValues := @keyPoints_values F (fun item => !item.precedes trigger)
    (fun point => !point.precedes trigger) (fun item value => by rw [before item value])
    (allPairs F) items
  constructor
  · rintro ⟨compressed, series, unparsed, read, split⟩
    obtain ⟨parsed, found, same⟩ := bind_ok_iff.mp read
    have each := itemPairs_returns_iff.mp ⟨parsed, found⟩
    have rows := (compressMetrics_returns_iff read _).mp compressed
    obtain rfl := Except.ok.inj ((itemPairs_eq each).symm.trans found)
    obtain ⟨rfl, rfl⟩ := Prod.mk.inj (Except.ok.inj same)
    refine ⟨each, ?_, ?_⟩
    · intro item member paired
      obtain ⟨pair, rest, shape⟩ := List.exists_cons_of_ne_nil paired
      have inside := mem_keyPoints.mpr
        ⟨item, member, pair, (by simp [allPairs, shape] : pair ∈ allPairs F item), rfl, rfl⟩
      have listed := mem_series.mpr ⟨List.ne_nil_of_mem inside, rfl⟩
      have returned := splitPoints_returns_iff.mp ⟨_, split _ listed⟩ _ inside
      rw [beforeTrigger_item] at returned
      by_contra incomparable
      rw [if_neg incomparable] at returned
      exact not_returns_error _ returned
    · intro key
      by_cases empty : keyPoints (allPairs F) items key = []
      · rw [← baseValues key, ← incidValues key, empty]
        simp [Measured]
      · have listed := mem_series.mpr ⟨empty, rfl⟩
        have row := rows _ listed
        rw [parseTs_text, seriesRow_returns_iff (split _ listed)] at row
        rw [← baseValues key, ← incidValues key]
        exact row
  · rintro ⟨each, comparable, measured⟩
    obtain ⟨unparsed, read⟩ : ∃ unparsed, metricSeries items = .ok (collect Prod.fst Prod.snd
        ((items.map fun item => (item, pairsOf F item.raw)).flatMap pointsOf), unparsed) := by
      rw [metricSeries, itemPairs_eq each]
      exact ⟨_, rfl⟩
    have split : ∀ one ∈ collect Prod.fst Prod.snd
        ((items.map fun item => (item, pairsOf F item.raw)).flatMap pointsOf),
        splitPoints (some trigger.value) one.2 =
          .ok (one.2.filter (SeriesPoint.precedes trigger),
            one.2.filter fun point => !point.precedes trigger) := by
      rintro ⟨key, points⟩ listed
      obtain ⟨-, rfl⟩ := mem_series.mp listed
      apply splitPoints_eq
      intro point member
      obtain ⟨item, inside, pair, present, -, rfl⟩ := mem_keyPoints.mp member
      rw [beforeTrigger_item, if_pos (comparable item inside (List.ne_nil_of_mem present)),
        parseTs_text, before]
    refine ⟨(compressMetrics_returns_iff read _).mpr ?_, _, _, read, split⟩
    rintro ⟨key, points⟩ listed
    obtain ⟨-, rfl⟩ := mem_series.mp listed
    rw [parseTs_text, seriesRow_returns_iff (split _ listed), baseValues key, incidValues key]
    exact measured key

/-! ## The selection -/

/-- The point of an item that can be read and compared. -/
def itemPoint (F : Type) [PyFloat F] (trigger : Iso8601) (entry : ModalityItem × Nat) :
    Option (MetricPoint F) :=
  (pairsOf F entry.1.raw).head?.map fun pair =>
    { index := entry.2, series := (entry.1.service, pair.1), value := pair.2,
      isBase := entry.1.precedes trigger }

theorem metricPoint_signal {trigger : Iso8601} {item : ModalityItem} (idx : Nat)
    (returned : Returns (metricPairs (F := F) item.raw))
    (comparable : pairsOf F item.raw ≠ [] → item.comparable trigger = true) :
    metricPoint (some trigger.value) item.signal idx = .ok (itemPoint F trigger (item, idx)) := by
  have parsed := metricPairs_pairsOf returned
  have compared := beforeTrigger_item item trigger
  rw [metricPoint, ModalityItem.signal]
  simp only [parsed, bind, Except.bind]
  cases shape : pairsOf F item.raw with
  | nil => simp [itemPoint, shape, pure, Except.pure]
  | cons pair rest =>
    have judged := comparable (by simp [shape])
    rw [if_pos judged, parseTs_text] at compared
    simp [itemPoint, shape, compared, pure, Except.pure]

theorem metricPoint_returns {trigger : Iso8601} {item : ModalityItem} {idx : Nat}
    (returned : Returns (metricPoint (F := F) (some trigger.value) item.signal idx)) :
    Returns (metricPairs (F := F) item.raw) ∧
      (pairsOf F item.raw ≠ [] → item.comparable trigger = true) := by
  obtain ⟨pairs, parsed, later⟩ := returns_bind_iff.mp returned
  have known : pairsOf F item.raw = pairs := by
    rw [pairsOf]
    exact congrArg (fun attempt => attempt.toOption.getD []) parsed
  refine ⟨⟨pairs, parsed⟩, ?_⟩
  intro paired
  rw [known] at paired
  obtain ⟨pair, rest, rfl⟩ := List.exists_cons_of_ne_nil paired
  obtain ⟨isBase, compared, -⟩ := returns_bind_iff.mp later
  have judged := beforeTrigger_item item trigger
  by_contra incomparable
  rw [if_neg incomparable] at judged
  have both := judged.symm.trans compared
  simp at both

/-- The points of the selection, where each item can be read and compared. -/
theorem metricPoints_signals {items : List ModalityItem} {trigger : Iso8601}
    (each : ∀ item ∈ items, Returns (metricPairs (F := F) item.raw))
    (comparable : PairedComparable F items trigger) :
    ∃ unparsed, metricPoints (items.map ModalityItem.signal) trigger.text =
      .ok (items.zipIdx.filterMap (itemPoint F trigger), unparsed) := by
  have attempted : ((items.map ModalityItem.signal).zipIdx.mapM fun entry =>
      metricPoint (some trigger.value) entry.1 entry.2) =
      .ok (items.zipIdx.map (itemPoint F trigger)) := by
    rw [List.zipIdx_map, List.mapM_map]
    apply mapM_eq_map
    rintro ⟨item, idx⟩ member
    have inside := List.fst_mem_of_mem_zipIdx member
    exact metricPoint_signal idx (each item inside) (comparable item inside)
  rw [metricPoints, triggerDt_text]
  simp only [attempted, bind, Except.bind, pure, Except.pure, List.filterMap_map]
  exact ⟨_, rfl⟩

theorem metricPoints_returns {items : List ModalityItem} {trigger : Iso8601}
    (returned : Returns (metricPoints (F := F) (items.map ModalityItem.signal) trigger.text)) :
    (∀ item ∈ items, Returns (metricPairs (F := F) item.raw)) ∧ PairedComparable F items trigger := by
  obtain ⟨attempts, attempted, -⟩ := returns_bind_iff.mp returned
  rw [triggerDt_text] at attempted
  have each : ∀ item ∈ items, Returns (metricPairs (F := F) item.raw) ∧
      (pairsOf F item.raw ≠ [] → item.comparable trigger = true) := by
    intro item member
    obtain ⟨place, inside, rfl⟩ := List.mem_iff_getElem.mp member
    have listed : (items[place].signal, place) ∈ (items.map ModalityItem.signal).zipIdx := by
      rw [List.mem_zipIdx_iff_getElem?, List.getElem?_map, List.getElem?_eq_getElem inside]
      rfl
    obtain ⟨point, -, found⟩ := mapM_of_mem attempted listed
    exact metricPoint_returns ⟨point, found⟩
  exact ⟨fun item member => (each item member).1, fun item member => (each item member).2⟩

/-- The values before the trigger of a series of the selection. -/
theorem itemPoint_values (trigger : Iso8601) (items : List ModalityItem) (start : Nat)
    (key : PyStr × PyStr) :
    ((((items.zipIdx start).filterMap (itemPoint F trigger)).filter fun point =>
        point.series = key).filter MetricPoint.isBase).map MetricPoint.value =
      seriesValues (firstPair F) items
        (fun item => item.precedes trigger) key := by
  induction items generalizing start with
  | nil => rfl
  | cons item rest inductionHypothesis =>
    have tail := inductionHypothesis (start + 1)
    simp only [seriesValues, List.filter_filter] at tail ⊢
    rw [List.zipIdx_cons, List.filterMap_cons]
    cases shape : pairsOf F item.raw with
    | nil =>
      have none : itemPoint F trigger (item, start) = none := by simp [itemPoint, shape]
      simp only [none, tail]
      by_cases before : item.precedes trigger = true <;> simp [before, firstPair, shape]
    | cons pair others =>
      have point : itemPoint F trigger (item, start) =
          some ⟨start, (item.service, pair.1), pair.2, item.precedes trigger⟩ := by
        simp [itemPoint, shape]
      simp only [point]
      by_cases before : item.precedes trigger = true <;>
        by_cases own : (item.service, pair.1) = key <;>
          simp [before, own, firstPair, shape, tail]

/-- Mean and deviation of the values before the trigger return. -/
def Graded (base : List F) : Prop :=
  (base ≠ [] → Returns (PyFloat.mean base)) ∧ Returns (deviation base)

omit [PyRuntime] in
theorem gradeSeries_returns_iff (points : List (MetricPoint F)) :
    Returns (gradeSeries points) ↔
      Graded ((points.filter MetricPoint.isBase).map MetricPoint.value) := by
  dsimp only [gradeSeries, Graded, meanOrNone]
  rw [returns_bind_iff]
  constructor
  · rintro ⟨mu, found, later⟩
    obtain ⟨sigma, measured, -⟩ := returns_bind_iff.mp later
    refine ⟨?_, ⟨sigma, measured⟩⟩
    intro some
    rw [if_neg some] at found
    obtain ⟨average, known, -⟩ := map_ok_iff.mp found
    exact ⟨average, known⟩
  · rintro ⟨averages, ⟨sigma, measured⟩⟩
    by_cases none : (points.filter MetricPoint.isBase).map MetricPoint.value = []
    · rw [if_pos none]
      exact ⟨_, rfl, returns_bind_iff.mpr ⟨sigma, measured, returns_ok _⟩⟩
    · obtain ⟨average, known⟩ := averages none
      rw [if_neg none, known]
      exact ⟨_, rfl, returns_bind_iff.mpr ⟨sigma, measured, returns_ok _⟩⟩

/-- With the points read, the bucketer returns if each series can be graded. -/
theorem metricBuckets_returns_iff {items : List Signal} {triggerTime : PyStr}
    {points : List (MetricPoint F)} {unparsed : List Nat}
    (read : metricPoints items triggerTime = .ok (points, unparsed)) :
    Returns (metricBuckets F items triggerTime) ↔
      ∀ series ∈ collect MetricPoint.series id points, Returns (gradeSeries series.2) := by
  have grades : (∀ series ∈ collect MetricPoint.series id points, Returns (gradeSeries series.2)) ↔
      Returns ((collect MetricPoint.series id points).mapM fun series => do
        return (series.1, ← gradeSeries series.2)) := by
    rw [returns_mapM_iff]
    constructor
    · intro each series member
      obtain ⟨entries, graded⟩ := each series member
      exact returns_bind_iff.mpr ⟨entries, graded, returns_ok _⟩
    · intro each series member
      obtain ⟨entries, graded, -⟩ := returns_bind_iff.mp (each series member)
      exact ⟨entries, graded⟩
  rw [grades, metricBuckets, returns_bind_iff]
  constructor
  · rintro ⟨both, found, later⟩
    obtain rfl := Except.ok.inj (read.symm.trans found)
    obtain ⟨buckets, graded, -⟩ := returns_bind_iff.mp later
    exact ⟨buckets, graded⟩
  · rintro ⟨buckets, graded⟩
    exact ⟨_, read, returns_bind_iff.mpr ⟨buckets, graded, returns_ok _⟩⟩

/-- What the metric bucketer promises for the items of a bundle: it returns, and each point
stands on the side of its instant. -/
def SelectionSplit (F : Type) [PyFloat F] (items : List ModalityItem) (trigger : Iso8601) :
    Prop :=
  Returns (metricBuckets F (items.map ModalityItem.signal) trigger.text) ∧
    ∃ points unparsed,
      metricPoints (F := F) (items.map ModalityItem.signal) trigger.text = .ok (points, unparsed) ∧
      ∀ point ∈ points, ∃ item, items[point.index]? = some item ∧
        point.isBase = item.precedes trigger

theorem selectionSplit_iff (items : List ModalityItem) (trigger : Iso8601) :
    SelectionSplit F items trigger ↔
      (∀ item ∈ items, Returns (metricPairs (F := F) item.raw)) ∧
        PairedComparable F items trigger ∧
        ∀ key, Graded (seriesValues (firstPair F) items
          (fun item => item.precedes trigger) key) := by
  have values := itemPoint_values (F := F) trigger items 0
  constructor
  · rintro ⟨bucketed, points, unparsed, read, -⟩
    obtain ⟨each, comparable⟩ := metricPoints_returns ⟨_, read⟩
    obtain ⟨others, again⟩ := metricPoints_signals each comparable
    obtain ⟨rfl, rfl⟩ := Prod.mk.inj (Except.ok.inj (read.symm.trans again))
    refine ⟨each, comparable, ?_⟩
    intro key
    by_cases empty : ((items.zipIdx.filterMap (itemPoint F trigger)).filter fun point =>
        point.series = key) = []
    · rw [← values key, empty]
      refine ⟨fun some => absurd rfl some, ?_⟩
      exact returns_ok _
    · have listed := (mem_collect MetricPoint.series id
        (items.zipIdx.filterMap (itemPoint F trigger)) key _).mpr ⟨by simpa using empty, rfl⟩
      have graded := (metricBuckets_returns_iff read).mp bucketed _ listed
      rw [gradeSeries_returns_iff, List.map_id, values key] at graded
      exact graded
  · rintro ⟨each, comparable, graded⟩
    obtain ⟨unparsed, read⟩ := metricPoints_signals each comparable
    constructor
    · rw [metricBuckets_returns_iff read]
      rintro ⟨key, points⟩ listed
      obtain ⟨-, same⟩ := (mem_collect _ _ _ _ _).mp listed
      rw [gradeSeries_returns_iff, same, List.map_id, values key]
      exact graded key
    · refine ⟨_, unparsed, read, ?_⟩
      intro point member
      obtain ⟨⟨item, idx⟩, inside, made⟩ := List.mem_filterMap.mp member
      obtain ⟨pair, -, rfl⟩ := Option.map_eq_some_iff.mp made
      exact ⟨item, List.mem_zipIdx_iff_getElem?.mp inside, rfl⟩

end Metrics

/-! ## The bundle -/

section Bundle

variable (F : Type) [PyFloat F] [PyRuntime] [Drain]

/-- All places return, and split the items of a bundle by their instants. -/
def SplitsByInstant (profile : BaselineProfile) (bundle : IngestBundle) : Prop :=
  let trigger := bundle.triggerInfo.triggerTime
  LogsSplit F profile bundle.logs trigger (bundle.triggerInfo.triggeredBy.map Modality.text) ∧
    MetricsSplit F bundle.metrics trigger ∧ SelectionSplit F bundle.metrics trigger

/-- The times that are compared with the trigger are naive or aware as the trigger is, and
lines and statistics of the metrics can be computed. -/
structure Judgeable (bundle : IngestBundle) : Prop where
  logs : ∀ item ∈ bundle.logs, item.comparable bundle.triggerInfo.triggerTime = true
  metrics : PairedComparable F bundle.metrics bundle.triggerInfo.triggerTime
  pairs : ∀ item ∈ bundle.metrics, Returns (metricPairs (F := F) item.raw)
  measured : ∀ key, Measured
    (seriesValues (allPairs F) bundle.metrics
      (fun item => item.precedes bundle.triggerInfo.triggerTime) key)
    (seriesValues (allPairs F) bundle.metrics
      (fun item => !item.precedes bundle.triggerInfo.triggerTime) key)
  graded : ∀ key, Graded (seriesValues (firstPair F) bundle.metrics
    (fun item => item.precedes bundle.triggerInfo.triggerTime) key)

/-- The splits are by instant exactly if all compared times are naive, or all are aware, as
far as the metrics can be read at all. -/
theorem splits_by_instant (profile : BaselineProfile) (bundle : IngestBundle) :
    SplitsByInstant F profile bundle ↔ Judgeable F bundle := by
  dsimp only [SplitsByInstant]
  rw [logsSplit_iff, metricsSplit_iff, selectionSplit_iff]
  constructor
  · rintro ⟨logs, ⟨pairs, metrics, measured⟩, -, -, graded⟩
    exact ⟨logs, metrics, pairs, measured, graded⟩
  · rintro ⟨logs, metrics, pairs, measured, graded⟩
    exact ⟨logs, ⟨pairs, metrics, measured⟩, pairs, metrics, graded⟩

end Bundle

/-! ## A naive line and an aware trigger -/

/-- A log line without offset, one second before the trigger, which has one. -/
def naiveLine : ModalityItem :=
  ⟨⟨py "1969-12-31T23:59:59", by decide⟩, py "user", py "ERROR timeout"⟩

/-- A bundle of this line. -/
def naiveBundle : IngestBundle := { IngestBundle.bare .epoch with logs := [naiveLine] }

open ReferenceInterpreter in
/-- The line is before the trigger, but the comparison raises. -/
theorem naive_line_raises :
    naiveLine.precedes naiveBundle.triggerInfo.triggerTime = true ∧
      @compressLogs asciiRuntime oneCluster FloatLit exactDecimals [] naiveBundle.logs
        naiveBundle.triggerInfo.triggerTime.text [] = .error .typeError ∧
      ¬ @SplitsByInstant FloatLit exactDecimals asciiRuntime oneCluster [] naiveBundle := by
  have raises : @compressLogs asciiRuntime oneCluster FloatLit exactDecimals [] naiveBundle.logs
      naiveBundle.triggerInfo.triggerTime.text [] = .error .typeError := by decide +kernel
  refine ⟨by decide, raises, ?_⟩
  rintro ⟨⟨⟨text, returned⟩, -⟩, -⟩
  have impossible := raises.symm.trans returned
  simp at impossible

end RcaBackend
