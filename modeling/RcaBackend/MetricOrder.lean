import RcaBackend.Attempts
import RcaBackend.ExactReals
import RcaBackend.KeyedFold
import RcaBackend.MetricJudgement
import RcaBackend.ReferenceInterpreter

/-!
# The order of the series and the units of their values

The score of a series is a number of standard deviations, so the unit of its values
cancels. A series that is constant before the trigger has no deviation: its score is the
distance itself, in the unit of the values. With exact arithmetic the order of the rows is
free of units exactly if no two series are compared by such a distance.
-/

namespace RcaBackend

open Attempts KeyedFold ExactReals

/-! ## A sort by comparisons -/

/-- A sort sees its elements through their comparison only. -/
class ComparisonSort [PyRuntime] : Prop where
  sort_map : ∀ {α β : Type} (f : α → β) (lt : β → β → Bool) (items : List α),
    (PyRuntime.sort (fun a b => lt (f a) (f b)) items).map f = PyRuntime.sort lt (items.map f)

section Sorting

variable [PyRuntime] [ComparisonSort]

/-- Comparisons that agree on the elements sort them alike. -/
theorem sort_congr {α : Type} {lt other : α → α → Bool} {items : List α}
    (same : ∀ a ∈ items, ∀ b ∈ items, lt a b = other a b) :
    PyRuntime.sort lt items = PyRuntime.sort other items := by
  have onMembers : (fun a b : {a // a ∈ items} => lt a.1 b.1) =
      fun a b => other a.1 b.1 := by
    funext a b
    exact same a.1 a.2 b.1 b.2
  have first := ComparisonSort.sort_map Subtype.val lt items.attach
  have second := ComparisonSort.sort_map Subtype.val other items.attach
  rw [List.attach_map_subtype_val] at first second
  rw [← first, ← second, onMembers]

/-- Changed elements in an unchanged order are sorted as the elements are. -/
theorem sort_changed {α β : Type} {change : α → β} {lt : α → α → Bool} {other : β → β → Bool}
    {items : List α} (same : ∀ a ∈ items, ∀ b ∈ items, other (change a) (change b) = lt a b) :
    PyRuntime.sort other (items.map change) = (PyRuntime.sort lt items).map change := by
  rw [← ComparisonSort.sort_map change other items, sort_congr same]

end Sorting

/-! ## The listing -/

section Listing

variable {F : Type} [PyFloat F] [PyRuntime]

/-- The series of the pairs. -/
def seriesOf (parsed : List (ModalityItem × List (PyStr × F))) : List (Series F) :=
  collect Prod.fst Prod.snd (parsed.flatMap pointsOf)

/-- The row of a series, under the key of the series. -/
def keyedRow (trigger : Option DateTime) (series : Series F) :
    Except PyExc ((PyStr × PyStr) × ScoredRow F) :=
  (seriesRow trigger series).map fun scored => (series.1, scored)

/-- The rows in the order in which `compress_metrics` lists them. -/
def listedRows (trigger : Option DateTime) (parsed : List (ModalityItem × List (PyStr × F))) :
    Except PyExc (List ((PyStr × PyStr) × ScoredRow F)) :=
  ((seriesOf parsed).mapM (keyedRow trigger)).map
    (PyRuntime.sort fun left right => moreDeviant left.2 right.2)

/-- The series in the order in which `compress_metrics` lists them. -/
def listedSeries (trigger : Option DateTime) (parsed : List (ModalityItem × List (PyStr × F))) :
    Except PyExc (List (PyStr × PyStr)) :=
  (listedRows trigger parsed).map (List.map Prod.fst)

/-- The pairs with all values of one series multiplied. -/
def scaled (key : PyStr × PyStr) (c : F) (parsed : List (ModalityItem × List (PyStr × F))) :
    List (ModalityItem × List (PyStr × F)) :=
  parsed.map fun entry => (entry.1, entry.2.map fun pair =>
    (pair.1, if (entry.1.service, pair.1) = key then PyFloat.mul c pair.2 else pair.2))

/-- The text is that of the rows in this order. -/
theorem compressMetrics_listed [ComparisonSort] {items : List ModalityItem}
    {parsed : List (ModalityItem × List (PyStr × F))} (some : items ≠ [])
    (read : itemPairs items = .ok parsed) (triggerTime : PyStr) :
    compressMetrics F items triggerTime =
      (listedRows (parseTs triggerTime) parsed).map fun rows =>
        joinLines (metricHeader :: (rows.map Prod.snd).map ScoredRow.line ++
          passThrough ((parsed.filter fun entry => entry.2.isEmpty).map Prod.fst)) := by
  have keyed : (seriesOf parsed).mapM (seriesRow (parseTs triggerTime)) =
      ((seriesOf parsed).mapM (keyedRow (parseTs triggerTime))).map (List.map Prod.snd) := by
    rw [← mapM_map_result]
    congr 1
    funext series
    rw [keyedRow]
    cases seriesRow (parseTs triggerTime) series <;> rfl
  rw [compressMetrics, if_neg some, metricSeries, read, listedRows]
  simp only [bind, Except.bind, pure, Except.pure]
  rw [← seriesOf, keyed]
  cases (seriesOf parsed).mapM (keyedRow (parseTs triggerTime)) with
  | error raised => rfl
  | ok rows =>
    simp only [Except.map]
    rw [← ComparisonSort.sort_map Prod.snd moreDeviant rows]

/-! ## Sides -/

/-- A series as its points before the trigger and the others. -/
abbrev SplitSeries (F : Type) := (PyStr × PyStr) × List (SeriesPoint F) × List (SeriesPoint F)

/-- The series, split at the trigger. -/
def sidesOf (trigger : Option DateTime) (parsed : List (ModalityItem × List (PyStr × F))) :
    Except PyExc (List (SplitSeries F)) :=
  (seriesOf parsed).mapM fun series =>
    (splitPoints trigger series.2).map fun sides => (series.1, sides)

omit [PyFloat F] [PyRuntime] in
theorem mem_sidesOf {trigger : Option DateTime} {parsed : List (ModalityItem × List (PyStr × F))}
    {entries : List (SplitSeries F)} (made : sidesOf trigger parsed = .ok entries)
    {entry : SplitSeries F} : entry ∈ entries ↔
      ∃ points, (entry.1, points) ∈ seriesOf parsed ∧ splitPoints trigger points = .ok entry.2 := by
  constructor
  · intro member
    obtain ⟨series, listed, found⟩ := mem_of_mapM made member
    obtain ⟨sides, split, rfl⟩ := map_ok_iff.mp found
    exact ⟨series.2, listed, split⟩
  · rintro ⟨points, listed, split⟩
    obtain ⟨same, member, found⟩ := mapM_of_mem made listed
    obtain ⟨sides, splitToo, rfl⟩ := map_ok_iff.mp found
    obtain rfl := Except.ok.inj (split.symm.trans splitToo)
    exact member

omit [PyFloat F] [PyRuntime] in
theorem keys_sidesOf {trigger : Option DateTime} {parsed : List (ModalityItem × List (PyStr × F))}
    {entries : List (SplitSeries F)} (made : sidesOf trigger parsed = .ok entries) :
    (entries.map Prod.fst).Nodup := by
  have keys : entries.map Prod.fst = (seriesOf parsed).map Prod.fst := by
    apply map_of_mapM made
    intro series _ entry found
    obtain ⟨sides, -, rfl⟩ := map_ok_iff.mp found
    rfl
  rw [keys]
  exact keys_nodup _ _ _

/-- The point with its value multiplied. -/
def SeriesPoint.times (c : F) (point : SeriesPoint F) : SeriesPoint F :=
  { point with value := PyFloat.mul c point.value }

/-- Where the key is that of the series, all its points multiplied. -/
def timesAt (key : PyStr × PyStr) (c : F) (own : PyStr × PyStr) (points : List (SeriesPoint F)) :
    List (SeriesPoint F) :=
  if own = key then points.map (SeriesPoint.times c) else points

omit [PyRuntime] in
theorem seriesOf_scaled (key : PyStr × PyStr) (c : F)
    (parsed : List (ModalityItem × List (PyStr × F))) :
    seriesOf (scaled key c parsed) =
      (seriesOf parsed).map fun series => (series.1, timesAt key c series.1 series.2) := by
  let change (entry : (PyStr × PyStr) × SeriesPoint F) : (PyStr × PyStr) × SeriesPoint F :=
    (entry.1, if entry.1 = key then entry.2.times c else entry.2)
  have points : (scaled key c parsed).flatMap pointsOf = (parsed.flatMap pointsOf).map change := by
    rw [scaled, List.flatMap_map, List.map_flatMap]
    apply List.flatMap_congr
    intro entry _
    simp only [pointsOf, List.map_map]
    apply List.map_congr_left
    intro pair _
    simp only [Function.comp_apply, change, SeriesPoint.times]
    split <;> rfl
  have keys (entry : (PyStr × PyStr) × SeriesPoint F) : (change entry).1 = entry.1 := rfl
  rw [seriesOf, points, collect, seriesOf, collect]
  apply keyedFold_changed (timesAt key c) keys
  intro old entry
  cases old with
  | none =>
    simp only [Option.map_none, Option.getD_none, List.nil_append, change, timesAt]
    split <;> rfl
  | some points =>
    simp only [Option.map_some, Option.getD_some, change, timesAt]
    split <;> simp

omit [PyFloat F] [PyRuntime] in
/-- The sides are those of the times. -/
theorem splitPoints_changed {change : SeriesPoint F → SeriesPoint F}
    (times : ∀ point, (change point).dt = point.dt) (trigger : Option DateTime)
    (points : List (SeriesPoint F)) :
    splitPoints trigger (points.map change) = (splitPoints trigger points).map fun sides =>
      (sides.1.map change, sides.2.map change) := by
  let judge (point : SeriesPoint F) : Except PyExc (SeriesPoint F × Bool) := do
    return (point, ← beforeTrigger trigger point.dt)
  have judged : (points.map change).mapM judge =
      (points.mapM judge).map (List.map fun entry => (change entry.1, entry.2)) := by
    rw [List.mapM_map, ← mapM_map_result]
    congr 1
    funext point
    simp only [Function.comp_apply, judge, times]
    cases beforeTrigger trigger point.dt <;> rfl
  have split (points : List (SeriesPoint F)) : splitPoints trigger points =
      (points.mapM judge).map fun judged => ((judged.filter fun entry => entry.2).map Prod.fst,
        (judged.filter fun entry => !entry.2).map Prod.fst) := by
    rw [splitPoints]
    cases points.mapM judge <;> rfl
  rw [split, judged, split]
  cases points.mapM judge with
  | error raised => rfl
  | ok entries =>
    simp only [Except.map, List.filter_map, List.map_map]
    rfl

omit [PyRuntime] in
theorem splitPoints_timesAt (key : PyStr × PyStr) (c : F) (own : PyStr × PyStr)
    (trigger : Option DateTime) (points : List (SeriesPoint F)) :
    splitPoints trigger (timesAt key c own points) = (splitPoints trigger points).map fun sides =>
      (timesAt key c own sides.1, timesAt key c own sides.2) := by
  by_cases here : own = key
  · simp only [timesAt, if_pos here]
    have times (point : SeriesPoint F) : (point.times c).dt = point.dt := rfl
    exact splitPoints_changed times trigger points
  · simp only [timesAt, if_neg here]
    cases splitPoints trigger points <;> rfl

/-- A series with sides, where the key is its own with all points multiplied. -/
def scaledSides (key : PyStr × PyStr) (c : F) (entry : SplitSeries F) : SplitSeries F :=
  (entry.1, timesAt key c entry.1 entry.2.1, timesAt key c entry.1 entry.2.2)

omit [PyRuntime] in
theorem sidesOf_scaled (key : PyStr × PyStr) (c : F) (trigger : Option DateTime)
    (parsed : List (ModalityItem × List (PyStr × F))) :
    sidesOf trigger (scaled key c parsed) =
      (sidesOf trigger parsed).map (List.map (scaledSides key c)) := by
  rw [sidesOf, seriesOf_scaled, List.mapM_map, sidesOf, ← mapM_map_result]
  congr 1
  funext series
  rw [Function.comp_apply, splitPoints_timesAt]
  cases splitPoints trigger series.2 <;> rfl

/-! ## What decides the order -/

/-- A series has a deviant point. -/
def HasDeviants (trigger : Option DateTime) (points : List (SeriesPoint F)) : Prop :=
  ∃ point, DeviantIn trigger points point

omit [PyFloat F] [PyRuntime] in
/-- The values of a series before the trigger are equal. -/
def SteadyBefore (trigger : Option DateTime) (points : List (SeriesPoint F)) : Prop :=
  ∀ base incid, splitPoints trigger points = .ok (base, incid) →
    ∀ a ∈ base, ∀ b ∈ base, a.value = b.value

/-- The times of the points can be compared with the trigger. -/
def TimesCompare (trigger : Option DateTime) (parsed : List (ModalityItem × List (PyStr × F))) :
    Prop :=
  ∀ series ∈ seriesOf parsed, ∀ point ∈ series.2, Returns (beforeTrigger trigger point.dt)

/-- A series that deviates from equal values is the only one that deviates. -/
def UnitFree (trigger : Option DateTime) (parsed : List (ModalityItem × List (PyStr × F))) :
    Prop :=
  ∀ key points other others, (key, points) ∈ seriesOf parsed → (other, others) ∈ seriesOf parsed →
    HasDeviants trigger points → SteadyBefore trigger points → HasDeviants trigger others →
    other = key

/-- The series of a key has a deviant point. -/
def KeyDeviates (trigger : Option DateTime) (parsed : List (ModalityItem × List (PyStr × F)))
    (key : PyStr × PyStr) : Prop :=
  ∃ points, (key, points) ∈ seriesOf parsed ∧ HasDeviants trigger points

end Listing

/-! ## Exact scores -/

section Exact

variable [NumberTexts]

/-- The values of points. -/
abbrev valuesOf (points : List (SeriesPoint ℝ)) : List ℝ := points.map SeriesPoint.value

theorem deviation_exact {base : List ℝ} (some : base ≠ []) :
    deviation base = .ok (spreadOf base) := by
  rw [deviation]
  by_cases several : base.length > 1
  · rw [if_pos several]
    exact if_neg some
  · obtain ⟨only, rfl⟩ : ∃ only, base = [only] := by
      apply List.length_eq_one_iff.mp
      have positive := List.length_pos_iff.mpr some
      omega
    have zero : spreadOf [only] = 0 := spreadOf_zero_iff.mpr (by simp)
    rw [if_neg several, zero]
    exact congrArg Except.ok (by simp [PyFloat.ofLit, ofLit, wholeLit])

theorem isDeviant_exact {base : List ℝ} {value : ℝ} :
    isDeviant (meanOf base) (spreadOf base) value = true ↔ Deviates base value := by
  have three : PyFloat.ofLit (wholeLit 3) = (3 : ℝ) := by simp [PyFloat.ofLit, ofLit, wholeLit]
  have zero : PyFloat.ofLit (wholeLit 0) = (0 : ℝ) := by simp [PyFloat.ofLit, ofLit, wholeLit]
  simp only [isDeviant, three, zero, PyFloat.lt, PyFloat.mul, PyFloat.abs, PyFloat.sub, PyFloat.eq,
    Bool.or_eq_true, Bool.and_eq_true, Bool.not_eq_true', decide_eq_true_eq, decide_eq_false_iff_not]
  constructor
  · rintro (far | ⟨steady, apart⟩)
    · exact far
    · rw [Deviates, steady, mul_zero]
      exact abs_pos.mpr (sub_ne_zero.mpr apart)
  · exact Or.inl

theorem largestBy_exact (first : ℝ) (rest : List ℝ) : largestBy id first rest = rest.foldl max first := by
  rw [largestBy]
  congr 1
  funext most value
  simp only [PyFloat.lt, id_eq, decide_eq_true_eq]
  split
  · next less => exact (max_eq_right less.le).symm
  · next not => exact (max_eq_left (not_lt.mp not)).symm

/-- The score of a series of which the sides are given. -/
noncomputable def sideScore (sides : List (SeriesPoint ℝ) × List (SeriesPoint ℝ)) : ℝ :=
  if sides.1 = [] then 0 else scoreOf (valuesOf sides.1) (valuesOf sides.2)

theorem deviationScore_exact {base : List ℝ} {onset : SeriesPoint ℝ}
    {others incid : List (SeriesPoint ℝ)}
    (deviants : deviantPoints (meanOf base) (spreadOf base) incid = onset :: others) :
    deviationScore (meanOf base) (spreadOf base) onset others = scoreOf base (valuesOf incid) := by
  let score (value : ℝ) : ℝ :=
    |value - meanOf base| / if spreadOf base = 0 then 1 else spreadOf base
  have own (point : SeriesPoint ℝ) : PyFloat.div (distance (meanOf base) point)
      (if PyFloat.eq (spreadOf base) (PyFloat.ofLit (wholeLit 0)) then
        PyFloat.ofLit (wholeLit 1) else spreadOf base) = score point.value := by
    simp [score, distance, PyFloat.div, PyFloat.eq, PyFloat.ofLit, ofLit, wholeLit, PyFloat.abs,
      PyFloat.sub]
  have kept : (valuesOf incid).filter (fun value => Deviates base value) =
      valuesOf (onset :: others) := by
    rw [← deviants, valuesOf, valuesOf, deviantPoints, List.filter_map]
    congr 1
    apply List.filter_congr
    intro point _
    rw [Function.comp_apply, Bool.eq_iff_iff, decide_eq_true_iff, isDeviant_exact]
  have positive : 0 ≤ score onset.value := by
    apply div_nonneg (abs_nonneg _)
    split
    · exact zero_le_one
    · exact spreadOf_nonneg base
  rw [scoreOf, kept, deviationScore, largestOf]
  simp only [own, largestBy_exact, List.map_cons, List.foldl_cons, List.map_map]
  rw [max_eq_right positive]
  rfl

/-- The score that `compress_metrics` orders by. -/
theorem anomalyOf_exact [PyRuntime] (base incid : List (SeriesPoint ℝ)) :
    ∃ text, anomalyOf base incid = .ok (text, sideScore (base, incid)) := by
  have zero : PyFloat.ofLit (wholeLit 0) = (0 : ℝ) := by simp [PyFloat.ofLit, ofLit, wholeLit]
  rw [anomalyOf, sideScore]
  by_cases without : base = []
  · refine ⟨py "-", ?_⟩
    rw [if_pos (Or.inl without), if_pos without, zero]
  rw [if_neg without]
  by_cases after : incid = []
  · refine ⟨py "-", ?_⟩
    rw [if_pos (Or.inr after), after, zero]
    rfl
  have some : valuesOf base ≠ [] := by simpa using without
  have mean : PyFloat.mean (valuesOf base) = .ok (meanOf (valuesOf base)) := if_neg some
  rw [if_neg (not_or.mpr ⟨without, after⟩), mean, deviation_exact some]
  simp only [bind, Except.bind]
  cases deviants : deviantPoints (meanOf (valuesOf base)) (spreadOf (valuesOf base)) incid with
  | nil =>
    refine ⟨py "-", ?_⟩
    have none : ¬ 0 < scoreOf (valuesOf base) (valuesOf incid) := by
      rw [scoreOf_pos_iff]
      rintro ⟨value, member, deviates⟩
      obtain ⟨point, listed, rfl⟩ := List.mem_map.mp member
      exact List.filter_eq_nil_iff.mp deviants point listed (isDeviant_exact.mpr deviates)
    have least := le_antisymm (not_lt.mp none) (scoreOf_nonneg _ _)
    simp only [zero, least]
    rfl
  | cons onset others =>
    refine ⟨anomalyText (meanOf (valuesOf base)) onset others, ?_⟩
    simp only [← deviationScore_exact deviants]
    rfl

/-- The row of a series whose statistics are exact. -/
theorem seriesRow_exact [PyRuntime] : ∃ outline : SplitSeries ℝ → ScoredRow ℝ,
    (∀ entry, (outline entry).score = sideScore entry.2 ∧
      (outline entry).service = serviceOr entry.1.1 ∧ (outline entry).label = entry.1.2) ∧
    ∀ trigger series, seriesRow trigger series =
      (splitPoints trigger series.2).map fun sides => outline (series.1, sides) := by
  have stats (values : List ℝ) : ∃ text, seriesStats values = .ok text := by
    apply (seriesStats_returns_iff values).mpr
    intro some
    exact ⟨meanOf values, if_neg some⟩
  choose statsOf written using stats
  choose anomalyTextOf judged using anomalyOf_exact
  refine ⟨fun entry =>
    { score := sideScore entry.2, service := serviceOr entry.1.1, label := entry.1.2,
      line := row [serviceOr entry.1.1, entry.1.2, py "base " ++ statsOf (valuesOf entry.2.1),
        py "incid " ++ statsOf (valuesOf entry.2.2), anomalyTextOf entry.2.1 entry.2.2] },
    fun _ => ⟨rfl, rfl, rfl⟩, ?_⟩
  intro trigger series
  rw [seriesRow]
  cases splitPoints trigger series.2 with
  | error raised => rfl
  | ok sides =>
    simp only [bind, Except.bind, written, judged]
    rfl

/-! ## Ranks -/

variable [PyRuntime]

/-- Large scores first, then service and label. -/
noncomputable def rankOf (entry : SplitSeries ℝ) : ℝ ×ₗ PyStr ×ₗ PyStr :=
  toLex (-sideScore entry.2, toLex (serviceOr entry.1.1, entry.1.2))

omit [NumberTexts] [PyRuntime] in
theorem rankOf_lt_iff {left right : SplitSeries ℝ} :
    rankOf left < rankOf right ↔ sideScore right.2 < sideScore left.2 ∨
      sideScore left.2 = sideScore right.2 ∧
        toLex (serviceOr left.1.1, left.1.2) < toLex (serviceOr right.1.1, right.1.2) := by
  rw [rankOf, rankOf, Prod.Lex.toLex_lt_toLex, neg_lt_neg_iff, neg_inj]

/-- The series are listed by their ranks. -/
theorem listedSeries_exact [ComparisonSort] (trigger : Option DateTime)
    (parsed : List (ModalityItem × List (PyStr × ℝ))) :
    listedSeries trigger parsed = (sidesOf trigger parsed).map fun entries =>
      (sortBy rankOf entries).map Prod.fst := by
  obtain ⟨outline, known, rows⟩ := seriesRow_exact
  have keyed : (seriesOf parsed).mapM (keyedRow trigger) =
      (sidesOf trigger parsed).map (List.map fun entry => (entry.1, outline entry)) := by
    rw [sidesOf, ← mapM_map_result]
    congr 1
    funext series
    rw [keyedRow, rows]
    cases splitPoints trigger series.2 <;> rfl
  have order (left right : SplitSeries ℝ) : moreDeviant (outline left) (outline right) =
      decide (rankOf left < rankOf right) := by
    obtain ⟨score, service, label⟩ := known left
    obtain ⟨otherScore, otherService, otherLabel⟩ := known right
    rw [moreDeviant, score, service, label, otherScore, otherService, otherLabel,
      Bool.eq_iff_iff, decide_eq_true_iff, rankOf_lt_iff]
    simp only [PyFloat.eq, PyFloat.neg, PyFloat.lt, neg_inj, neg_lt_neg_iff, decide_eq_true_eq]
    by_cases tied : sideScore left.2 = sideScore right.2
    · simp [tied]
    · simp [tied]
  rw [listedSeries, listedRows, keyed]
  cases sidesOf trigger parsed with
  | error raised => rfl
  | ok entries =>
    have sorted : PyRuntime.sort (fun left right => moreDeviant left.2 right.2)
        (entries.map fun entry => (entry.1, outline entry)) =
          (sortBy rankOf entries).map fun entry => (entry.1, outline entry) := by
      apply sort_changed
      intro left _ right _
      exact order left right
    simp only [Except.map, sorted, List.map_map]
    rfl

/-! ## Scores of multiplied series -/

omit [PyRuntime] in
theorem valuesOf_times (c : ℝ) (points : List (SeriesPoint ℝ)) :
    valuesOf (points.map (SeriesPoint.times c)) = (valuesOf points).map (c * ·) := by
  rw [valuesOf, List.map_map, valuesOf, List.map_map]
  rfl

omit [NumberTexts] [PyRuntime] in
theorem sideScore_nonneg (sides : List (SeriesPoint ℝ) × List (SeriesPoint ℝ)) :
    0 ≤ sideScore sides := by
  rw [sideScore]
  split
  · exact le_rfl
  · exact scoreOf_nonneg _ _

omit [PyRuntime] in
/-- Only the score over a constant baseline is in the unit of the values. -/
theorem sideScore_scaled {c : ℝ} (positive : 0 < c) (key : PyStr × PyStr) (entry : SplitSeries ℝ) :
    sideScore (scaledSides key c entry).2 =
      if entry.1 = key ∧ spreadOf (valuesOf entry.2.1) = 0 then c * sideScore entry.2
      else sideScore entry.2 := by
  obtain ⟨own, base, incid⟩ := entry
  by_cases here : own = key
  · subst here
    have times : (scaledSides own c (own, base, incid)).2 =
        (base.map (SeriesPoint.times c), incid.map (SeriesPoint.times c)) := by
      simp only [scaledSides, timesAt, if_true]
    rw [times]
    simp only [true_and, sideScore, List.map_eq_nil_iff, valuesOf_times]
    by_cases without : base = []
    · simp [without]
    · rw [if_neg without, if_neg without]
      split
      · next steady => exact scoreOf_constant positive steady _
      · next deviating => exact scoreOf_scaled positive deviating _
  · simp only [scaledSides, timesAt, here, false_and, if_false]

/-- A split series deviates from equal values. -/
def InUnits (entry : SplitSeries ℝ) : Prop :=
  spreadOf (valuesOf entry.2.1) = 0 ∧ 0 < sideScore entry.2

omit [PyRuntime] in
theorem sideScore_kept {c : ℝ} (positive : 0 < c) {key : PyStr × PyStr} {entry : SplitSeries ℝ}
    (usual : entry.1 = key → ¬ InUnits entry) :
    sideScore (scaledSides key c entry).2 = sideScore entry.2 := by
  rw [sideScore_scaled positive]
  split
  · next unitful =>
    have none : ¬ 0 < sideScore entry.2 := fun deviates => usual unitful.1 ⟨unitful.2, deviates⟩
    rw [le_antisymm (not_lt.mp none) (sideScore_nonneg _), mul_zero]
  · rfl

omit [PyRuntime] in
theorem hasDeviants_iff {trigger : Option DateTime} {points base incid : List (SeriesPoint ℝ)}
    (split : splitPoints trigger points = .ok (base, incid)) :
    HasDeviants trigger points ↔ 0 < sideScore (base, incid) := by
  rw [sideScore]
  constructor
  · rintro ⟨point, before, after, mu, sigma, found, some, averaged, measured, member⟩
    obtain ⟨rfl, rfl⟩ := Prod.mk.inj (Except.ok.inj (split.symm.trans found))
    have values : valuesOf base ≠ [] := by simpa using some
    have mean : PyFloat.mean (valuesOf base) = .ok (meanOf (valuesOf base)) := if_neg values
    obtain rfl := Except.ok.inj (mean.symm.trans averaged)
    obtain rfl := Except.ok.inj ((deviation_exact values).symm.trans measured)
    obtain ⟨listed, deviant⟩ := List.mem_filter.mp member
    rw [if_neg some, scoreOf_pos_iff]
    exact ⟨point.value, List.mem_map_of_mem listed, isDeviant_exact.mp deviant⟩
  · intro positive
    by_cases without : base = []
    · rw [if_pos without] at positive
      exact absurd positive (lt_irrefl _)
    · rw [if_neg without, scoreOf_pos_iff] at positive
      obtain ⟨value, member, deviates⟩ := positive
      obtain ⟨point, listed, rfl⟩ := List.mem_map.mp member
      have values : valuesOf base ≠ [] := by simpa using without
      exact ⟨point, base, incid, _, _, split, without, if_neg values, deviation_exact values,
        List.mem_filter.mpr ⟨listed, isDeviant_exact.mpr deviates⟩⟩

omit [NumberTexts] [PyRuntime] in
theorem steadyBefore_iff {trigger : Option DateTime} {points base incid : List (SeriesPoint ℝ)}
    (split : splitPoints trigger points = .ok (base, incid)) :
    SteadyBefore trigger points ↔ spreadOf (valuesOf base) = 0 := by
  rw [spreadOf_zero_iff]
  constructor
  · intro steady value first other second
    obtain ⟨a, inside, rfl⟩ := List.mem_map.mp first
    obtain ⟨b, also, rfl⟩ := List.mem_map.mp second
    exact steady base incid split a inside b also
  · intro same before after found a inside b also
    obtain ⟨rfl, rfl⟩ := Prod.mk.inj (Except.ok.inj (split.symm.trans found))
    exact same _ (List.mem_map_of_mem inside) _ (List.mem_map_of_mem also)

/-! ## The order of split series -/

/-- The keys in the order of the ranks. -/
noncomputable def orderedKeys (entries : List (SplitSeries ℝ)) : List (PyStr × PyStr) :=
  (sortBy rankOf entries).map Prod.fst

/-- A split series that deviates from equal values is the only one that deviates. -/
def FreeOf (entries : List (SplitSeries ℝ)) : Prop :=
  ∀ entry ∈ entries, ∀ other ∈ entries, InUnits entry → 0 < sideScore other.2 →
    other.1 = entry.1

omit [NumberTexts] [PyRuntime] in
theorem rankOf_lt_of_deviates {left right : SplitSeries ℝ} (deviates : 0 < sideScore left.2)
    (zero : sideScore right.2 = 0) : rankOf left < rankOf right :=
  rankOf_lt_iff.mpr (Or.inl (zero ▸ deviates))

omit [NumberTexts] in
/-- Of two series with ranks in order the second is not listed first. -/
theorem orderedKeys_pairwise {entries : List (SplitSeries ℝ)}
    (distinct : (entries.map Prod.fst).Nodup) {first second : SplitSeries ℝ}
    (inside : first ∈ entries) (also : second ∈ entries) (less : rankOf first < rankOf second) :
    (orderedKeys entries).Pairwise fun earlier later =>
      ¬ (earlier = second.1 ∧ later = first.1) := by
  rw [orderedKeys, List.pairwise_map]
  apply List.Pairwise.imp_of_mem _ (sortBy_sorted rankOf entries)
  rintro a b listed listedToo ordered ⟨here, there⟩
  have members := (sortBy_perm rankOf entries).subset
  obtain rfl := List.inj_on_of_nodup_map distinct (members listed) also here
  obtain rfl := List.inj_on_of_nodup_map distinct (members listedToo) inside there
  exact absurd less (not_lt.mpr ordered)

omit [PyRuntime] in
/-- The only deviant series stays before the others under a factor. -/
theorem rankOf_alone {entries : List (SplitSeries ℝ)} (distinct : (entries.map Prod.fst).Nodup)
    (free : FreeOf entries) {c : ℝ} (positive : 0 < c) {entry other : SplitSeries ℝ}
    (inside : entry ∈ entries) (also : other ∈ entries) (unitful : InUnits entry)
    (apart : other ≠ entry) :
    rankOf entry < rankOf other ∧
      rankOf (scaledSides entry.1 c entry) < rankOf (scaledSides entry.1 c other) := by
  have differ : other.1 ≠ entry.1 := by
    intro same
    exact apart (List.inj_on_of_nodup_map distinct also inside same)
  have none : ¬ 0 < sideScore other.2 := by
    intro deviates
    exact differ (free entry inside other also unitful deviates)
  have zero := le_antisymm (not_lt.mp none) (sideScore_nonneg _)
  constructor
  · exact rankOf_lt_of_deviates unitful.2 zero
  · apply rankOf_lt_of_deviates
    · rw [sideScore_scaled positive, if_pos ⟨rfl, unitful.1⟩]
      exact mul_pos positive unitful.2
    · rw [sideScore_kept positive fun same => absurd same differ]
      exact zero

omit [PyRuntime] in
theorem rankOf_scaled_iff {entries : List (SplitSeries ℝ)} (distinct : (entries.map Prod.fst).Nodup)
    (free : FreeOf entries) {c : ℝ} (positive : 0 < c) (key : PyStr × PyStr)
    {left right : SplitSeries ℝ} (inside : left ∈ entries) (also : right ∈ entries) :
    rankOf (scaledSides key c left) < rankOf (scaledSides key c right) ↔
      rankOf left < rankOf right := by
  by_cases same : right = left
  · subst same
    simp
  by_cases first : left.1 = key ∧ InUnits left
  · obtain ⟨rfl, unitful⟩ := first
    obtain ⟨before, later⟩ := rankOf_alone distinct free positive inside also unitful same
    exact iff_of_true later before
  by_cases second : right.1 = key ∧ InUnits right
  · obtain ⟨rfl, unitful⟩ := second
    obtain ⟨before, later⟩ :=
      rankOf_alone distinct free positive also inside unitful (Ne.symm same)
    exact iff_of_false (lt_asymm later) (lt_asymm before)
  rw [rankOf_lt_iff, rankOf_lt_iff, sideScore_kept positive fun own unitful => first ⟨own, unitful⟩,
    sideScore_kept positive fun own unitful => second ⟨own, unitful⟩]
  rfl

/-- Where no distance is compared, a factor leaves the order. -/
theorem orderedKeys_scaled [ComparisonSort] {entries : List (SplitSeries ℝ)}
    (distinct : (entries.map Prod.fst).Nodup) (free : FreeOf entries) {c : ℝ} (positive : 0 < c)
    (key : PyStr × PyStr) :
    orderedKeys (entries.map (scaledSides key c)) = orderedKeys entries := by
  have sorted : sortBy rankOf (entries.map (scaledSides key c)) =
      (sortBy rankOf entries).map (scaledSides key c) := by
    apply sort_changed
    intro left inside right also
    exact decide_eq_decide.mpr (rankOf_scaled_iff distinct free positive key inside also)
  rw [orderedKeys, sorted, List.map_map]
  rfl

/-- Where a distance is compared, some factors put it on either side. -/
theorem free_of_kept {entries : List (SplitSeries ℝ)} (distinct : (entries.map Prod.fst).Nodup)
    (kept : ∀ key c, 0 < c → orderedKeys (entries.map (scaledSides key c)) = orderedKeys entries) :
    FreeOf entries := by
  intro entry inside other also unitful deviates
  by_contra differ
  have same (c : ℝ) : (entries.map (scaledSides entry.1 c)).map Prod.fst = entries.map Prod.fst := by
    rw [List.map_map]
    rfl
  have distinctToo (c : ℝ) : ((entries.map (scaledSides entry.1 c)).map Prod.fst).Nodup :=
    (same c).symm ▸ distinct
  have first (c : ℝ) : scaledSides entry.1 c entry ∈ entries.map (scaledSides entry.1 c) :=
    List.mem_map_of_mem inside
  have second (c : ℝ) : scaledSides entry.1 c other ∈ entries.map (scaledSides entry.1 c) :=
    List.mem_map_of_mem also
  have own {c : ℝ} (positive : 0 < c) :
      sideScore (scaledSides entry.1 c entry).2 = c * sideScore entry.2 := by
    rw [sideScore_scaled positive, if_pos ⟨rfl, unitful.1⟩]
  have others {c : ℝ} (positive : 0 < c) :
      sideScore (scaledSides entry.1 c other).2 = sideScore other.2 :=
    sideScore_kept positive fun same => absurd same differ
  have behind : (orderedKeys entries).Pairwise fun earlier later =>
      ¬ (earlier = entry.1 ∧ later = other.1) := by
    have positive : 0 < sideScore other.2 / sideScore entry.2 / 2 :=
      half_pos (div_pos deviates unitful.2)
    have less : rankOf (scaledSides entry.1 (sideScore other.2 / sideScore entry.2 / 2) other) <
        rankOf (scaledSides entry.1 (sideScore other.2 / sideScore entry.2 / 2) entry) := by
      apply rankOf_lt_iff.mpr
      left
      rw [own positive, others positive, div_right_comm, div_mul_cancel₀ _ unitful.2.ne']
      exact half_lt_self deviates
    rw [← kept entry.1 _ positive]
    have listed := orderedKeys_pairwise (distinctToo _) (second _) (first _) less
    exact listed
  have ahead : (orderedKeys entries).Pairwise fun earlier later =>
      ¬ (earlier = other.1 ∧ later = entry.1) := by
    have positive : 0 < 2 * sideScore other.2 / sideScore entry.2 :=
      div_pos (mul_pos two_pos deviates) unitful.2
    have less : rankOf (scaledSides entry.1 (2 * sideScore other.2 / sideScore entry.2) entry) <
        rankOf (scaledSides entry.1 (2 * sideScore other.2 / sideScore entry.2) other) := by
      apply rankOf_lt_iff.mpr
      left
      rw [own positive, others positive, div_mul_cancel₀ _ unitful.2.ne']
      exact lt_two_mul_self deviates
    rw [← kept entry.1 _ positive]
    have listed := orderedKeys_pairwise (distinctToo _) (first _) (second _) less
    exact listed
  have symmetric : Std.Symm fun a b : PyStr × PyStr =>
      ¬ (a = entry.1 ∧ b = other.1) ∧ ¬ (a = other.1 ∧ b = entry.1) :=
    ⟨fun a b both => ⟨fun swapped => both.2 ⟨swapped.2, swapped.1⟩,
      fun swapped => both.1 ⟨swapped.2, swapped.1⟩⟩⟩
  have members := (sortBy_perm rankOf entries).symm.subset
  have clash := (behind.and ahead).forall (List.mem_map_of_mem (members inside))
    (List.mem_map_of_mem (members also)) (Ne.symm differ)
  exact clash.1 ⟨rfl, rfl⟩

/-! ## The listing -/

omit [PyRuntime] in
theorem unitFree_iff {trigger : Option DateTime} {parsed : List (ModalityItem × List (PyStr × ℝ))}
    {entries : List (SplitSeries ℝ)} (made : sidesOf trigger parsed = .ok entries) :
    UnitFree trigger parsed ↔ FreeOf entries := by
  constructor
  · intro free entry inside other also unitful deviates
    obtain ⟨points, listed, split⟩ := (mem_sidesOf made).mp inside
    obtain ⟨others, listedToo, splitToo⟩ := (mem_sidesOf made).mp also
    exact free entry.1 points other.1 others listed listedToo ((hasDeviants_iff split).mpr unitful.2)
      ((steadyBefore_iff split).mpr unitful.1) ((hasDeviants_iff splitToo).mpr deviates)
  · intro free key points other others listed listedToo deviates steady deviatesToo
    obtain ⟨-, base, incid, -, -, split, -⟩ := id deviates
    obtain ⟨-, before, after, -, -, splitToo, -⟩ := id deviatesToo
    have inside : (key, base, incid) ∈ entries := (mem_sidesOf made).mpr ⟨points, listed, split⟩
    have also : (other, before, after) ∈ entries :=
      (mem_sidesOf made).mpr ⟨others, listedToo, splitToo⟩
    have unitful : InUnits (key, base, incid) :=
      ⟨(steadyBefore_iff split).mp steady, (hasDeviants_iff split).mp deviates⟩
    exact free _ inside _ also unitful ((hasDeviants_iff splitToo).mp deviatesToo)

/-- A series with a deviant point is listed before every series without one. -/
theorem deviants_first [ComparisonSort] {trigger : Option DateTime}
    {parsed : List (ModalityItem × List (PyStr × ℝ))} {keys : List (PyStr × PyStr)}
    (listed : listedSeries trigger parsed = .ok keys) :
    keys.Pairwise fun earlier later =>
      KeyDeviates trigger parsed later → KeyDeviates trigger parsed earlier := by
  rw [listedSeries_exact] at listed
  obtain ⟨entries, made, rfl⟩ := map_ok_iff.mp listed
  have deviates (entry : SplitSeries ℝ) (inside : entry ∈ entries) :
      KeyDeviates trigger parsed entry.1 ↔ 0 < sideScore entry.2 := by
    constructor
    · rintro ⟨points, present, deviates⟩
      obtain ⟨-, base, incid, -, -, split, -⟩ := id deviates
      have own : (entry.1, base, incid) ∈ entries := (mem_sidesOf made).mpr ⟨points, present, split⟩
      have same := List.inj_on_of_nodup_map (keys_sidesOf made) own inside rfl
      rw [← same]
      exact (hasDeviants_iff split).mp deviates
    · intro positive
      obtain ⟨points, present, split⟩ := (mem_sidesOf made).mp inside
      exact ⟨points, present, (hasDeviants_iff split).mpr positive⟩
  rw [List.pairwise_map]
  apply List.Pairwise.imp_of_mem _ (sortBy_sorted rankOf entries)
  intro earlier later inside also ordered
  have members := (sortBy_perm rankOf entries).subset
  rw [deviates earlier (members inside), deviates later (members also)]
  intro positive
  by_contra none
  have zero := le_antisymm (not_lt.mp none) (sideScore_nonneg _)
  exact absurd (rankOf_lt_of_deviates positive zero) (not_lt.mpr ordered)

theorem listedSeries_scaled [ComparisonSort] (trigger : Option DateTime)
    (parsed : List (ModalityItem × List (PyStr × ℝ))) (key : PyStr × PyStr) (c : ℝ) :
    listedSeries trigger (scaled key c parsed) = (sidesOf trigger parsed).map fun entries =>
      orderedKeys (entries.map (scaledSides key c)) := by
  rw [listedSeries_exact, sidesOf_scaled]
  cases sidesOf trigger parsed <;> rfl

theorem listedSeries_returns_iff [ComparisonSort] {trigger : Option DateTime}
    {parsed : List (ModalityItem × List (PyStr × ℝ))} :
    Returns (listedSeries trigger parsed) ↔ TimesCompare trigger parsed := by
  rw [listedSeries_exact, returns_map_iff, sidesOf, returns_mapM_iff]
  constructor
  · intro each series member
    exact splitPoints_returns_iff.mp (returns_map_iff.mp (each series member))
  · intro each series member
    exact returns_map_iff.mpr (splitPoints_returns_iff.mpr (each series member))

/-- An order that no factor changes compares no distances. -/
theorem unitFree_of_kept [ComparisonSort] {trigger : Option DateTime}
    {parsed : List (ModalityItem × List (PyStr × ℝ))} (compare : TimesCompare trigger parsed)
    (kept : ∀ key c, 0 < c → listedSeries trigger (scaled key c parsed) = listedSeries trigger parsed) :
    UnitFree trigger parsed := by
  obtain ⟨keys, listed⟩ := listedSeries_returns_iff.mpr compare
  rw [listedSeries_exact] at listed
  obtain ⟨entries, made, -⟩ := map_ok_iff.mp listed
  apply (unitFree_iff made).mpr
  apply free_of_kept (keys_sidesOf made)
  intro key c positive
  have same := kept key c positive
  rw [listedSeries_scaled, listedSeries_exact, made] at same
  exact Except.ok.inj same

/-- The order does not depend on a unit if and only if no series that deviates from equal
values is listed with another deviant one. -/
theorem order_unitFree_iff [ComparisonSort] (triggerTime : PyStr)
    (parsed : List (ModalityItem × List (PyStr × ℝ))) :
    (∀ items, items ≠ [] → itemPairs items = .ok parsed →
      compressMetrics ℝ items triggerTime =
        (listedRows (parseTs triggerTime) parsed).map fun rows =>
          joinLines (metricHeader :: (rows.map Prod.snd).map ScoredRow.line ++
            passThrough ((parsed.filter fun entry => entry.2.isEmpty).map Prod.fst))) ∧
    (((∀ key c, 0 < c → listedSeries (parseTs triggerTime) (scaled key c parsed) =
        listedSeries (parseTs triggerTime) parsed) ∧
      ∀ keys, listedSeries (parseTs triggerTime) parsed = .ok keys →
        keys.Pairwise fun earlier later => KeyDeviates (parseTs triggerTime) parsed later →
          KeyDeviates (parseTs triggerTime) parsed earlier) ↔
      (TimesCompare (parseTs triggerTime) parsed → UnitFree (parseTs triggerTime) parsed)) := by
  constructor
  · intro items some read
    exact compressMetrics_listed some read triggerTime
  constructor
  · rintro ⟨kept, -⟩ compare
    exact unitFree_of_kept compare kept
  · intro free
    refine ⟨?_, fun keys listed => deviants_first listed⟩
    intro key c positive
    rw [← listedSeries_returns_iff, listedSeries_exact] at free
    rw [listedSeries_scaled, listedSeries_exact]
    cases made : sidesOf (parseTs triggerTime) parsed with
    | error raised => rfl
    | ok entries =>
      rw [made] at free
      have apart := (unitFree_iff made).mp (free (returns_ok _))
      exact congrArg Except.ok (orderedKeys_scaled (keys_sidesOf made) apart positive key)

end Exact

/-! ## Two constant baselines -/

section Sample

open ReferenceInterpreter

theorem ascii_comparisons : @ComparisonSort asciiRuntime := by
  refine @ComparisonSort.mk asciiRuntime ?_
  intro α β f lt items
  apply List.map_insertionSort
  intro a _ b _
  exact Iff.rfl

/-- Whole numbers as their digits. -/
noncomputable abbrev wholeTexts : NumberTexts where
  general value := intText ⌊value⌋
  general4 value := intText ⌊value⌋
  text value := intText ⌊value⌋ ++ py ".0"

/-- A minute before the epoch. -/
def minuteBefore : Iso8601 := ⟨py "1969-12-31T23:59:00Z", by decide⟩

/-- A pair of a line. -/
noncomputable def sampled (time : Iso8601) (raw label : String) (value : ℝ) :
    ModalityItem × List (PyStr × ℝ) :=
  (⟨time, py "api", py raw⟩, [(py label, value)])

/-- Two series, each constant before the epoch. -/
noncomputable def steadyPairs : List (ModalityItem × List (PyStr × ℝ)) :=
  [sampled minuteBefore "a=4" "a" 4, sampled minuteBefore "b=5" "b" 5,
    sampled .epoch "a=12" "a" 12, sampled .epoch "b=9" "b" 9]

theorem steady_series : seriesOf steadyPairs =
    [((py "api", py "a"), [⟨some minuteBefore.value, minuteBefore.text, 4⟩,
      ⟨some Iso8601.epoch.value, Iso8601.epoch.text, 12⟩]),
     ((py "api", py "b"), [⟨some minuteBefore.value, minuteBefore.text, 5⟩,
      ⟨some Iso8601.epoch.value, Iso8601.epoch.text, 9⟩])] := by
  rfl

theorem steady_split (x y : ℝ) : splitPoints (parseTs Iso8601.epoch.text)
    [⟨some minuteBefore.value, minuteBefore.text, x⟩,
      ⟨some Iso8601.epoch.value, Iso8601.epoch.text, y⟩] =
    .ok ([⟨some minuteBefore.value, minuteBefore.text, x⟩],
      [⟨some Iso8601.epoch.value, Iso8601.epoch.text, y⟩]) := by
  rfl

/-- A single value deviates from another exactly if it differs. -/
theorem steady_deviates_iff (x y : ℝ) :
    @HasDeviants ℝ (@exactReals wholeTexts) (parseTs Iso8601.epoch.text)
      [⟨some minuteBefore.value, minuteBefore.text, x⟩,
        ⟨some Iso8601.epoch.value, Iso8601.epoch.text, y⟩] ↔ y ≠ x := by
  have zero : spreadOf [x] = 0 := spreadOf_zero_iff.mpr (by simp)
  have mean : meanOf [x] = x := meanOf_constant (List.mem_singleton_self x) (by simp)
  rw [@hasDeviants_iff wholeTexts _ _ _ _ (steady_split x y), sideScore,
    if_neg (List.cons_ne_nil _ _), scoreOf_pos_iff]
  simp [Deviates, zero, mean, sub_eq_zero]

/-- The same pairs as decimals. -/
def steadyDecimals : List (ModalityItem × List (PyStr × FloatLit)) :=
  [(⟨minuteBefore, py "api", py "a=4"⟩, [(py "a", wholeLit 4)]),
    (⟨minuteBefore, py "api", py "b=5"⟩, [(py "b", wholeLit 5)]),
    (⟨.epoch, py "api", py "a=12"⟩, [(py "a", wholeLit 12)]),
    (⟨.epoch, py "api", py "b=9"⟩, [(py "b", wholeLit 9)])]

/-- A quarter of the first series puts it behind the second, and no factor may do so. -/
theorem unit_changes_order :
    (¬ ∀ key c, 0 < c →
      @listedSeries ℝ (@exactReals wholeTexts) asciiRuntime (parseTs Iso8601.epoch.text)
          (@scaled ℝ (@exactReals wholeTexts) key c steadyPairs) =
        @listedSeries ℝ (@exactReals wholeTexts) asciiRuntime (parseTs Iso8601.epoch.text)
          steadyPairs) ∧
    @itemPairs FloatLit exactDecimals asciiRuntime (steadyDecimals.map Prod.fst) =
      .ok steadyDecimals ∧
    @listedSeries FloatLit exactDecimals asciiRuntime (parseTs Iso8601.epoch.text)
      steadyDecimals = .ok [(py "api", py "a"), (py "api", py "b")] ∧
    @listedSeries FloatLit exactDecimals asciiRuntime (parseTs Iso8601.epoch.text)
        (@scaled FloatLit exactDecimals (py "api", py "a") (.decimal false 25 (-2))
          steadyDecimals) = .ok [(py "api", py "b"), (py "api", py "a")] := by
  refine ⟨?_, by decide +kernel, by decide +kernel, by decide +kernel⟩
  intro kept
  have compare : TimesCompare (parseTs Iso8601.epoch.text) steadyPairs := by
    intro series member
    rw [steady_series] at member
    rcases List.mem_pair.mp member with rfl | rfl
    · exact splitPoints_returns_iff.mp ⟨_, steady_split 4 12⟩
    · exact splitPoints_returns_iff.mp ⟨_, steady_split 5 9⟩
  have free := @unitFree_of_kept wholeTexts asciiRuntime ascii_comparisons _ _ compare kept
  have steady : SteadyBefore (parseTs Iso8601.epoch.text)
      [⟨some minuteBefore.value, minuteBefore.text, (4 : ℝ)⟩,
        ⟨some Iso8601.epoch.value, Iso8601.epoch.text, 12⟩] := by
    apply (steadyBefore_iff (steady_split 4 12)).mpr
    exact spreadOf_zero_iff.mpr (by simp)
  have same := free (py "api", py "a") _ (py "api", py "b") _
    (steady_series ▸ List.mem_cons_self) (steady_series ▸ List.mem_cons_of_mem _ List.mem_cons_self)
    ((steady_deviates_iff 4 12).mpr (by norm_num)) steady
    ((steady_deviates_iff 5 9).mpr (by norm_num))
  exact absurd same (by decide)

/-- The second series stays at its value. -/
noncomputable def alonePairs : List (ModalityItem × List (PyStr × ℝ)) :=
  [sampled minuteBefore "a=4" "a" 4, sampled minuteBefore "b=5" "b" 5,
    sampled .epoch "a=12" "a" 12, sampled .epoch "b=5" "b" 5]

theorem order_unitFree_iff_alone :
    (∀ key c, 0 < c →
      @listedSeries ℝ (@exactReals wholeTexts) asciiRuntime (parseTs Iso8601.epoch.text)
          (@scaled ℝ (@exactReals wholeTexts) key c alonePairs) =
        @listedSeries ℝ (@exactReals wholeTexts) asciiRuntime (parseTs Iso8601.epoch.text)
          alonePairs) ∧
    ∀ keys, @listedSeries ℝ (@exactReals wholeTexts) asciiRuntime (parseTs Iso8601.epoch.text)
        alonePairs = .ok keys →
      keys.Pairwise fun earlier later =>
        @KeyDeviates ℝ (@exactReals wholeTexts) (parseTs Iso8601.epoch.text) alonePairs later →
          @KeyDeviates ℝ (@exactReals wholeTexts) (parseTs Iso8601.epoch.text) alonePairs earlier := by
  have series : seriesOf alonePairs =
      [((py "api", py "a"), [⟨some minuteBefore.value, minuteBefore.text, 4⟩,
        ⟨some Iso8601.epoch.value, Iso8601.epoch.text, 12⟩]),
       ((py "api", py "b"), [⟨some minuteBefore.value, minuteBefore.text, 5⟩,
        ⟨some Iso8601.epoch.value, Iso8601.epoch.text, 5⟩])] := rfl
  apply (@order_unitFree_iff wholeTexts asciiRuntime ascii_comparisons Iso8601.epoch.text
    alonePairs).2.mpr
  rintro - key points other others listed listedToo deviates - deviatesToo
  have first {name : PyStr × PyStr} {own : List (SeriesPoint ℝ)}
      (member : (name, own) ∈ seriesOf alonePairs)
      (deviates : @HasDeviants ℝ (@exactReals wholeTexts) (parseTs Iso8601.epoch.text) own) :
      name = (py "api", py "a") := by
    rw [series] at member
    rcases List.mem_pair.mp member with same | same
    · exact (Prod.mk.inj same).1
    · obtain ⟨-, rfl⟩ := Prod.mk.inj same
      exact absurd rfl ((steady_deviates_iff 5 5).mp deviates)
  rw [first listed deviates, first listedToo deviatesToo]

end Sample

end RcaBackend
