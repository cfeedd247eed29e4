import RcaBackend.TraceCompression
import RcaBackend.TriggerSplit

/-!
# What the compressions conserve

The groups of the log lines, the series of the metric pairs and the groups and minutes of
the spans are partitions: their counts sum to what was read. Lines without a pair are
passed through, and the first spans that show an error are repeated. The slowest spans are
repeated if their durations are in an order, which a NaN among them is not.
-/

namespace RcaBackend

open KeyedFold Attempts ReferenceInterpreter

/-! ## Logs -/

/-- A line is read off an item. -/
structure ReadOff [PyRuntime] (item : ModalityItem) (line : LogRecord) : Prop where
  service : line.service = item.service
  level : line.level = levelOf item.raw
  ts : line.ts = item.timestamp.text
  raw : line.raw = item.raw

/-- The groups of the lines of some items: each line in the one group of its key, each group
with the counts of its lines, the times of the first and the last of them and the text of
the first. -/
structure LogCounts [PyRuntime] (items : List ModalityItem) (lines : List LogRecord)
    (groups : List (LogKey × LogGroup)) : Prop where
  read : List.Forall₂ ReadOff items lines
  covered : ∀ line ∈ lines, ∃ group, (line.key, group) ∈ groups
  distinct : (groups.map Prod.fst).Nodup
  total : (groups.map fun entry => entry.2.count).sum = items.length
  sides : ∀ entry ∈ groups, entry.2.base + entry.2.incid = entry.2.count
  members : ∀ entry ∈ groups, ∃ first last,
    (lines.filter fun line => line.key = entry.1).head? = some first ∧
    (lines.filter fun line => line.key = entry.1).getLast? = some last ∧
    entry.2.count = (lines.filter fun line => line.key = entry.1).length ∧
    entry.2.first = first.ts ∧ entry.2.last = last.ts ∧ entry.2.sample = first.raw

section Logs

variable [PyRuntime] [Drain]

theorem readLines_readOff {trigger : Option DateTime} {miners : Miners}
    {items : List ModalityItem} {lines : List LogRecord}
    (returned : readLines trigger miners items = .ok lines) :
    List.Forall₂ ReadOff items lines := by
  induction items generalizing miners lines with
  | nil =>
    obtain rfl := Except.ok.inj returned
    exact List.Forall₂.nil
  | cons item rest inductionHypothesis =>
    obtain ⟨line, read, after⟩ := bind_ok_iff.mp returned
    obtain ⟨others, readOthers, same⟩ := bind_ok_iff.mp after
    obtain rfl := Except.ok.inj same
    obtain ⟨isBase, -, made⟩ := bind_ok_iff.mp read
    obtain rfl := Except.ok.inj made
    exact List.Forall₂.cons ⟨rfl, rfl, rfl, rfl⟩ (inductionHypothesis readOthers)

omit [PyRuntime] [Drain] in
theorem groupOf_sides (first : LogRecord) (rest : List LogRecord) :
    (groupOf first rest).base + (groupOf first rest).incid = (groupOf first rest).count := by
  have split := List.length_eq_countP_add_countP LogRecord.isBase (l := first :: rest)
  simp only [groupOf, List.length_cons] at split ⊢
  simpa [Bool.not_eq_true] using split.symm

omit [PyRuntime] [Drain] in
theorem groupOf_last (first : LogRecord) (rest : List LogRecord) :
    ∃ last, (first :: rest).getLast? = some last ∧ (groupOf first rest).last = last.ts := by
  cases ended : rest.getLast? with
  | none =>
    obtain rfl := List.getLast?_eq_none_iff.mp ended
    exact ⟨first, rfl, rfl⟩
  | some last =>
    refine ⟨last, ?_, by rw [groupOf, ended]; rfl⟩
    rw [List.getLast?_cons, ended]
    rfl

omit [PyRuntime] [Drain] in
theorem logGroups_total (lines : List LogRecord) :
    ((logGroups lines).map fun entry => entry.2.count).sum = lines.length := by
  have counted := sum_keyedFold LogRecord.key addLine LogGroup.count (fun _ => 1)
    (fun _ => rfl) (fun _ _ => rfl) lines
  rw [logGroups, counted]
  simp

theorem logGroups_counts {items : List ModalityItem} {triggerTime : PyStr}
    {lines : List LogRecord} {groups : List (LogKey × LogGroup)}
    (analyzed : analyzeLogs items triggerTime = .ok (lines, groups)) :
    LogCounts items lines groups := by
  obtain ⟨read, returned, same⟩ := bind_ok_iff.mp analyzed
  obtain ⟨rfl, rfl⟩ := Prod.mk.inj (Except.ok.inj same)
  have off := readLines_readOff returned
  refine ⟨off, ?_, keys_nodup _ _ _, ?_, ?_, ?_⟩
  · intro line member
    have key := (mem_keys LogRecord.key addLine read line.key).mpr ⟨line, member, rfl⟩
    obtain ⟨⟨key, group⟩, listed, rfl⟩ := List.mem_map.mp key
    exact ⟨group, listed⟩
  · rw [logGroups_total, off.length_eq]
  · rintro ⟨key, group⟩ listed
    obtain ⟨first, rest, -, rfl⟩ := mem_logGroups.mp listed
    exact groupOf_sides first rest
  · rintro ⟨key, group⟩ listed
    obtain ⟨first, rest, split, rfl⟩ := mem_logGroups.mp listed
    obtain ⟨last, ended, time⟩ := groupOf_last first rest
    rw [split]
    exact ⟨first, last, rfl, ended, rfl, rfl, time, rfl⟩

/-- The rows of the compressed lines are those of the groups. -/
theorem compressLogs_counts (F : Type) [PyFloat F] {profile : BaselineProfile}
    {items : List ModalityItem} {triggerTime : PyStr} {triggeredBy : List PyStr} {text : PyStr}
    (some : items ≠ []) (returned : compressLogs F profile items triggerTime triggeredBy = .ok text) :
    ∃ lines groups, ∃ ranked : List (RankedGroup F), ∃ highlight,
      analyzeLogs items triggerTime = .ok (lines, groups) ∧ LogCounts items lines groups ∧
      ranked.Perm (groups.map (rankGroup profile (F := F))) ∧
      text = highlight ++ joinLines (logHeader items.length groups.length
        (triggerDt triggerTime).isSome (profile ≠ []) :: ranked.map (groupRow (profile ≠ []))) := by
  rw [compressLogs, if_neg some] at returned
  obtain ⟨⟨lines, groups⟩, analyzed, after⟩ := bind_ok_iff.mp returned
  obtain ⟨highlight, -, written⟩ := bind_ok_iff.mp after
  have written := Except.ok.inj written
  have sorted : (sortGroups (triggerDt triggerTime) (groups.map (rankGroup profile))).Perm
      (groups.map (rankGroup profile (F := F))) := by
    cases triggerDt triggerTime with
    | none => exact sortBy_perm _ _
    | some trigger => exact PyRuntime.sort_perm _ _
  by_cases none : highlight = []
  · rw [if_pos none] at written
    exact ⟨lines, groups, _, [], analyzed, logGroups_counts analyzed, sorted, written.symm⟩
  · rw [if_neg none] at written
    exact ⟨lines, groups, _, _, analyzed, logGroups_counts analyzed, sorted, written.symm⟩

end Logs

/-! ## Metrics -/

section Metrics

variable {F : Type} [PyFloat F] [PyRuntime]

/-- A text begins with a number of points. -/
def PrintsCount (text : PyStr) (count : Nat) : Prop :=
  ∃ rest, text = py "n=" ++ natText count ++ rest ∧ ∀ c ∈ rest.head?, isAsciiDigit c = false

/-- A row shows a series: its points on both sides of the trigger, with their numbers. -/
def ShowsSeries (trigger : Option DateTime) (series : Series F) (shown : ScoredRow F)
    (counts : Nat × Nat) : Prop :=
  ∃ base incid baseText incidText anomaly, splitPoints trigger series.2 = .ok (base, incid) ∧
    (base ++ incid).Perm series.2 ∧ base.length = counts.1 ∧ incid.length = counts.2 ∧
    PrintsCount baseText counts.1 ∧ PrintsCount incidText counts.2 ∧
    shown.line = row [serviceOr series.1.1, series.1.2, py "base " ++ baseText,
      py "incid " ++ incidText, anomaly]

/-- The series of some items: each point in the one series of its service and label, in a row
with the numbers of its points, and each item without a pair passed through. -/
structure MetricCounts (items : List ModalityItem) (trigger : Option DateTime)
    (parsed : List (ModalityItem × List (PyStr × F))) (series : List (Series F))
    (rows : List (ScoredRow F × (Nat × Nat))) (passed : List PyStr) : Prop where
  read : List.Forall₂ (fun item entry => entry.1 = item ∧ metricPairs item.raw = .ok entry.2)
    items parsed
  distinct : (series.map Prod.fst).Nodup
  covered : ∀ point ∈ parsed.flatMap pointsOf, ∃ points, (point.1, points) ∈ series
  members : ∀ one ∈ series,
    one.2 = ((parsed.flatMap pointsOf).filter fun point => point.1 = one.1).map Prod.snd
  shown : List.Forall₂ (fun one row => ShowsSeries trigger one row.1 row.2) series rows
  total : (rows.map fun row => row.2.1 + row.2.2).sum =
    (parsed.map fun entry => entry.2.length).sum
  passes : ∀ item ∈ items, metricPairs (F := F) item.raw = .ok [] →
    py "[" ++ shortTs item.timestamp.text ++ py "] " ++ item.raw ∈ passed

omit [PyRuntime] in
theorem seriesStats_prints {values : List F} {text : PyStr} (written : seriesStats values = .ok text) :
    PrintsCount text values.length := by
  cases values with
  | nil =>
    obtain rfl := Except.ok.inj written
    have none : py "n=0" = py "n=" ++ natText 0 ++ [] := by decide
    exact ⟨[], none, nofun⟩
  | cons first rest =>
    obtain ⟨average, -, same⟩ := bind_ok_iff.mp written
    obtain rfl := Except.ok.inj same
    simp only [List.append_assoc]
    refine ⟨_, by rw [List.length_cons, List.append_assoc], ?_⟩
    rintro c ⟨⟩
    rfl

omit [PyFloat F] [PyRuntime] in
theorem splitPoints_perm {trigger : Option DateTime} {points base incid : List (SeriesPoint F)}
    (split : splitPoints trigger points = .ok (base, incid)) : (base ++ incid).Perm points := by
  obtain ⟨judged, attempted, same⟩ := bind_ok_iff.mp split
  obtain ⟨rfl, rfl⟩ := Prod.mk.inj (Except.ok.inj same)
  have kept : judged.map Prod.fst = points := by
    conv => rhs; rw [← List.map_id points]
    apply map_of_mapM attempted
    intro point _ entry found
    obtain ⟨side, -, made⟩ := bind_ok_iff.mp found
    rw [← Except.ok.inj made]
    rfl
  rw [← List.map_append]
  conv => rhs; rw [← kept]
  exact (List.filter_append_perm _ judged).map Prod.fst

theorem seriesRow_shows {trigger : Option DateTime} {series : Series F} {shown : ScoredRow F}
    (made : seriesRow trigger series = .ok shown) :
    ∃ counts, ShowsSeries trigger series shown counts ∧ counts.1 + counts.2 = series.2.length := by
  obtain ⟨⟨base, incid⟩, split, after⟩ := bind_ok_iff.mp made
  obtain ⟨baseText, baseStats, after⟩ := bind_ok_iff.mp after
  obtain ⟨incidText, incidStats, after⟩ := bind_ok_iff.mp after
  obtain ⟨⟨anomaly, score⟩, -, same⟩ := bind_ok_iff.mp after
  obtain rfl := Except.ok.inj same
  have moved := splitPoints_perm split
  have baseCount := seriesStats_prints baseStats
  have incidCount := seriesStats_prints incidStats
  rw [List.length_map] at baseCount incidCount
  refine ⟨(base.length, incid.length), ⟨base, incid, baseText, incidText, anomaly, split, moved,
    rfl, rfl, baseCount, incidCount, rfl⟩, ?_⟩
  rw [← moved.length_eq, List.length_append]

/-- The rows of the series, with the numbers that they print. -/
theorem seriesRows_show {trigger : Option DateTime} {series : List (Series F)}
    {shown : List (ScoredRow F)}
    (made : List.Forall₂ (fun one row => seriesRow trigger one = .ok row) series shown) :
    ∃ rows : List (ScoredRow F × (Nat × Nat)), rows.map Prod.fst = shown ∧
      List.Forall₂ (fun one row => ShowsSeries trigger one row.1 row.2) series rows ∧
      (rows.map fun row => row.2.1 + row.2.2).sum = (series.map fun one => one.2.length).sum := by
  induction made with
  | nil => exact ⟨[], rfl, List.Forall₂.nil, rfl⟩
  | cons here _ inductionHypothesis =>
    obtain ⟨counts, shows, sum⟩ := seriesRow_shows here
    obtain ⟨rows, kept, others, total⟩ := inductionHypothesis
    refine ⟨(_, counts) :: rows, by rw [List.map_cons, kept], List.Forall₂.cons shows others, ?_⟩
    rw [List.map_cons, List.sum_cons, List.map_cons, List.sum_cons, total, sum]

omit [PyFloat F] [PyRuntime] in
/-- The series have as many points as there are pairs. -/
theorem metricSeries_total (parsed : List (ModalityItem × List (PyStr × F))) :
    ((collect Prod.fst Prod.snd (parsed.flatMap pointsOf)).map fun one => one.2.length).sum =
      (parsed.map fun entry => entry.2.length).sum := by
  have kept := (collect_perm (A := (PyStr × PyStr) × SeriesPoint F) Prod.fst Prod.snd
    (parsed.flatMap pointsOf)).length_eq
  rw [List.length_flatMap, List.length_map, List.length_flatMap] at kept
  rw [kept]
  simp [pointsOf]

/-- The rows of the compressed lines are those of the series, and the others are passed through. -/
theorem compressMetrics_counts {items : List ModalityItem} {triggerTime text : PyStr}
    (some : items ≠ []) (returned : compressMetrics F items triggerTime = .ok text) :
    ∃ parsed series unparsed, ∃ rows : List (ScoredRow F × (Nat × Nat)),
      ∃ sorted : List (ScoredRow F),
      metricSeries items = .ok (series, unparsed) ∧
      MetricCounts items (parseTs triggerTime) parsed series rows (passThrough unparsed) ∧
      sorted.Perm (rows.map Prod.fst) ∧
      text = joinLines (metricHeader :: sorted.map ScoredRow.line ++ passThrough unparsed) := by
  rw [compressMetrics, if_neg some] at returned
  obtain ⟨⟨series, unparsed⟩, grouped, after⟩ := bind_ok_iff.mp returned
  obtain ⟨shown, made, written⟩ := bind_ok_iff.mp after
  obtain ⟨parsed, read, same⟩ := bind_ok_iff.mp grouped
  obtain ⟨rfl, rfl⟩ := Prod.mk.inj (Except.ok.inj same)
  obtain ⟨rows, kept, shows, total⟩ := seriesRows_show (mapM_ok_iff.mp made)
  have off : List.Forall₂ (fun item entry => entry.1 = item ∧ metricPairs item.raw = .ok entry.2)
      items parsed := by
    apply (mapM_ok_iff.mp read).imp
    intro item entry found
    obtain ⟨pairs, paired, made⟩ := bind_ok_iff.mp found
    obtain rfl := Except.ok.inj made
    exact ⟨rfl, paired⟩
  refine ⟨parsed, _, _, rows, _, grouped, ⟨off, keys_nodup _ _ _, ?_, ?_, shows, ?_, ?_⟩,
    kept ▸ PyRuntime.sort_perm _ _, (Except.ok.inj written).symm⟩
  · intro point member
    have key := (mem_keys Prod.fst (fun old item => old.getD [] ++ [item.2]) _ point.1).mpr
      ⟨point, member, rfl⟩
    obtain ⟨⟨key, points⟩, listed, same⟩ := List.mem_map.mp key
    exact ⟨points, same ▸ listed⟩
  · rintro ⟨key, points⟩ listed
    exact ((mem_collect _ _ _ key points).mp listed).2
  · rw [total, metricSeries_total]
  · intro item member none
    obtain ⟨⟨kept, pairs⟩, listed, rfl, paired⟩ := exists_right off member
    obtain rfl : [] = pairs := Except.ok.inj (none.symm.trans paired)
    have unread : kept ∈ (parsed.filter fun entry => entry.2.isEmpty).map Prod.fst :=
      List.mem_map.mpr ⟨(kept, []), List.mem_filter.mpr ⟨listed, rfl⟩, rfl⟩
    rw [passThrough, if_neg (List.ne_nil_of_mem unread)]
    exact List.mem_cons_of_mem _ (List.mem_map.mpr ⟨kept, unread, rfl⟩)

end Metrics

/-! ## Traces -/

section Traces

variable {F : Type} [PyFloat F] [PyRuntime]

/-- The groups and the minutes have as many spans as were read and as many errors; the first
spans that show an error are repeated. -/
structure TraceCounts (items : List ModalityItem) (spans : List (ReadSpan F)) : Prop where
  read : List.Forall₂ (fun item span => span.1 = item ∧ spanFields item.raw = .ok span.2) items spans
  counts : ((spanGroupsOf spans).map fun entry => entry.2.count).sum = items.length
  errors : ((spanGroupsOf spans).map fun entry => entry.2.err).sum =
    (spans.filter fun span => span.2.isErr).length
  minutes : ((volumes spans).map fun entry => (entry.2.map Prod.snd).sum).sum = items.length
  firstErrors : ∀ span ∈ (spans.filter fun span => span.2.isErr).take exemplarLimit,
    span.1 ∈ exemplars spans

/-- Of the spans with a duration as many as the limit allows are repeated, and none of the
others is slower than one of them. -/
def SlowestShown (spans : List (ReadSpan F)) : Prop :=
  ∃ slowest rest : List (ReadSpan F × F), (slowest ++ rest).Perm (timedSpans spans) ∧
    slowest.length = min exemplarLimit (timedSpans spans).length ∧
    (∀ shown ∈ slowest, ∀ other ∈ rest, slower other shown = false) ∧
    ∀ shown ∈ slowest, shown.1.1 ∈ exemplars spans

/-- The comparisons of the durations are those of an order. -/
def DurationsOrdered (spans : List (ReadSpan F)) : Prop :=
  ∃ rank : F → Nat, ∀ left ∈ timedSpans spans, ∀ right ∈ timedSpans spans,
    slower left right = decide (rank left.2 < rank right.2)

omit [PyFloat F] [PyRuntime] in
theorem mem_kept {items kept : List ModalityItem} {item : ModalityItem} :
    item ∈ items.foldl (fun kept item => if item ∈ kept then kept else kept ++ [item]) kept ↔
      item ∈ kept ∨ item ∈ items := by
  induction items generalizing kept with
  | nil => simp
  | cons first rest inductionHypothesis =>
    rw [List.foldl_cons, inductionHypothesis, List.mem_cons]
    split
    case isTrue present =>
      constructor
      · exact fun known => known.imp_right Or.inr
      · rintro (here | rfl | later)
        · exact Or.inl here
        · exact Or.inl present
        · exact Or.inr later
    case isFalse => simp [or_assoc]

theorem mem_exemplars {spans : List (ReadSpan F)} {item : ModalityItem} :
    item ∈ exemplars spans ↔ ∃ span ∈ errorSpans spans ++ slowestSpans spans, span.1 = item := by
  rw [exemplars, mem_kept, List.mem_map]
  simp

omit [PyFloat F] [PyRuntime] in
theorem spanGroups_counts (spans : List (ReadSpan F)) :
    ((spanGroupsOf spans).map fun entry => entry.2.count).sum = spans.length ∧
      ((spanGroupsOf spans).map fun entry => entry.2.err).sum =
        (spans.filter fun span => span.2.isErr).length := by
  constructor
  · have counted := sum_keyedFold (fun span : ReadSpan F => (span.1.service, span.2.operation))
      addSpan SpanGroup.count (fun _ => 1) (fun _ => rfl) (fun _ _ => rfl) spans
    rw [spanGroupsOf, counted]
    simp
  · have counted := sum_keyedFold (fun span : ReadSpan F => (span.1.service, span.2.operation))
      addSpan SpanGroup.err (fun span => if span.2.isErr then 1 else 0)
      (fun span => by simp [addSpan]) (fun _ _ => rfl) spans
    have weights : ∀ spans : List (ReadSpan F),
        (spans.map fun span => if span.2.isErr then 1 else 0).sum =
          (spans.filter fun span => span.2.isErr).length := by
      intro spans
      induction spans with
      | nil => rfl
      | cons span rest inductionHypothesis =>
        rw [List.map_cons, List.sum_cons, inductionHypothesis]
        cases judged : span.2.isErr with
        | true => simp [judged, Nat.add_comm]
        | false => simp [judged]
    rw [spanGroupsOf, counted, weights]

omit [PyFloat F] in
theorem volumes_total (spans : List (ReadSpan F)) :
    ((volumes spans).map fun entry => (entry.2.map Prod.snd).sum).sum = spans.length := by
  have one : ∀ (minutes : List (PyStr × Nat)) (span : ReadSpan F),
      ((upsert (minuteOf span.1) (fun n => n.getD 0 + 1) minutes).map Prod.snd).sum =
        (minutes.map Prod.snd).sum + 1 := fun minutes span =>
    sum_upsert (minuteOf span.1) (fun n => n.getD 0 + 1) id rfl (fun _ => rfl) minutes
  have counted := sum_keyedFold (fun span : ReadSpan F => serviceOr span.1.service) addMinute
    (fun minutes => (minutes.map Prod.snd).sum) (fun _ => 1) (fun span => one [] span)
    (fun minutes span => one minutes span) spans
  rw [volumes, counted]
  simp

/-- Ordered durations are sorted. -/
theorem slowestShown_of_ordered {spans : List (ReadSpan F)}
    (ordered : (timedSpans spans).length ≤ exemplarLimit ∨ DurationsOrdered spans) :
    SlowestShown spans := by
  have same := PyRuntime.sort_perm slower (timedSpans spans)
  refine ⟨(PyRuntime.sort slower (timedSpans spans)).take exemplarLimit,
    (PyRuntime.sort slower (timedSpans spans)).drop exemplarLimit, ?_, ?_, ?_, ?_⟩
  · rw [List.take_append_drop]
    exact same
  · rw [List.length_take, same.length_eq]
  · obtain few | ⟨rank, ranked⟩ := ordered
    · rw [List.drop_of_length_le (same.length_eq.trans_le few)]
      intro shown _ other none
      cases none
    · have sorted := PyRuntime.sort_ranked (fun span : ReadSpan F × F => rank span.2) slower
        (timedSpans spans) (by
          intro left here right there before
          rw [ranked left here right there, ranked right there left here]
          exact ⟨decide_eq_true before, decide_eq_false (Nat.lt_asymm before)⟩)
      rw [← List.take_append_drop exemplarLimit (PyRuntime.sort slower (timedSpans spans)),
        List.pairwise_append] at sorted
      intro shown first other later
      have least := sorted.2.2 shown first other later
      rw [ranked other (same.mem_iff.mp (List.mem_of_mem_drop later)) shown
        (same.mem_iff.mp (List.mem_of_mem_take first))]
      exact decide_eq_false (Nat.not_lt_of_le least)
  · intro shown first
    apply mem_exemplars.mpr
    refine ⟨shown.1, List.mem_append_right _ ?_, rfl⟩
    exact List.mem_map.mpr ⟨shown, first, rfl⟩

/-- The rows of the compressed spans are those of the groups, the minutes and the exemplars. -/
theorem compressTraces_counts [PyRound F] {items : List ModalityItem} {text : PyStr}
    (some : items ≠ []) (returned : compressTraces F items = .ok text) :
    ∃ spans : List (ReadSpan F), ∃ groups groupRows, TraceCounts items spans ∧
      groups.Perm (spanGroupsOf spans) ∧
      List.Forall₂ (fun group row => spanGroupRow group = .ok row) groups groupRows ∧
      text = joinLines (traceHeader :: groupRows ++
        volumeHeader :: (sortBy Prod.fst (volumes spans)).map volumeRow ++
        exemplarRows (exemplars spans)) := by
  rw [compressTraces, if_neg some] at returned
  obtain ⟨spans, read, after⟩ := bind_ok_iff.mp returned
  obtain ⟨groupRows, made, written⟩ := bind_ok_iff.mp after
  have off : List.Forall₂ (fun item span => span.1 = item ∧ spanFields item.raw = .ok span.2)
      items spans := by
    apply (mapM_ok_iff.mp read).imp
    intro item span found
    obtain ⟨fields, parsed, made⟩ := bind_ok_iff.mp found
    obtain rfl := Except.ok.inj made
    exact ⟨rfl, parsed⟩
  obtain ⟨counts, errors⟩ := spanGroups_counts spans
  have minutes := volumes_total spans
  rw [← off.length_eq] at counts minutes
  refine ⟨spans, _, groupRows, ⟨off, counts, errors, minutes, ?_⟩, sortBy_perm _ _,
    mapM_ok_iff.mp made, (Except.ok.inj written).symm⟩
  intro span first
  exact mem_exemplars.mpr ⟨span, List.mem_append_left _ first, rfl⟩

end Traces

/-! ## The whole -/

/-- Whatever is compressed, the counts are conserved, and the slowest spans are repeated where
the durations are in an order. -/
theorem compression_conserves (F : Type) [PyFloat F] [PyRound F] [PyRuntime] [Drain]
    (items : List ModalityItem) :
    (∀ profile triggerTime triggeredBy text,
      compressLogs F profile items triggerTime triggeredBy = .ok text →
      items = [] ∧ text = emptyText ∨
      ∃ lines groups, ∃ ranked : List (RankedGroup F), ∃ highlight,
        analyzeLogs items triggerTime = .ok (lines, groups) ∧ LogCounts items lines groups ∧
        ranked.Perm (groups.map (rankGroup profile)) ∧
        text = highlight ++ joinLines (logHeader items.length groups.length
          (triggerDt triggerTime).isSome (profile ≠ []) ::
            ranked.map (groupRow (profile ≠ [])))) ∧
    (∀ triggerTime text, compressMetrics F items triggerTime = .ok text →
      items = [] ∧ text = emptyText ∨
      ∃ parsed series unparsed, ∃ rows : List (ScoredRow F × (Nat × Nat)),
        ∃ sorted : List (ScoredRow F),
        metricSeries items = .ok (series, unparsed) ∧
        MetricCounts items (parseTs triggerTime) parsed series rows (passThrough unparsed) ∧
        sorted.Perm (rows.map Prod.fst) ∧
        text = joinLines (metricHeader :: sorted.map ScoredRow.line ++ passThrough unparsed)) ∧
    ∀ text, compressTraces F items = .ok text →
      items = [] ∧ text = emptyText ∨
      ∃ spans : List (ReadSpan F), ∃ groups groupRows, TraceCounts items spans ∧
        groups.Perm (spanGroupsOf spans) ∧
        List.Forall₂ (fun group row => spanGroupRow group = .ok row) groups groupRows ∧
        text = joinLines (traceHeader :: groupRows ++
          volumeHeader :: (sortBy Prod.fst (volumes spans)).map volumeRow ++
          exemplarRows (exemplars spans)) ∧
        ((timedSpans spans).length ≤ exemplarLimit ∨ DurationsOrdered spans →
          SlowestShown spans) := by
  refine ⟨?_, ?_, ?_⟩
  · intro profile triggerTime triggeredBy text returned
    by_cases none : items = []
    · rw [compressLogs, if_pos none] at returned
      exact Or.inl ⟨none, (Except.ok.inj returned).symm⟩
    · exact Or.inr (compressLogs_counts F none returned)
  · intro triggerTime text returned
    by_cases none : items = []
    · rw [compressMetrics, if_pos none] at returned
      exact Or.inl ⟨none, (Except.ok.inj returned).symm⟩
    · exact Or.inr (compressMetrics_counts none returned)
  · intro text returned
    by_cases none : items = []
    · rw [compressTraces, if_pos none] at returned
      exact Or.inl ⟨none, (Except.ok.inj returned).symm⟩
    · obtain ⟨spans, groups, groupRows, counts, moved, made, written⟩ :=
        compressTraces_counts none returned
      exact Or.inr ⟨spans, groups, groupRows, counts, moved, made, written,
        slowestShown_of_ordered⟩

/-! ## A run with NaN -/

/-- `round(x)` of exact decimals, half to even. -/
@[reducible] def roundedDecimals : PyRound FloatLit where
  round
    | .decimal negative m e =>
      let scale := 10 ^ (-e).toNat
      let half := if 0 ≤ e then m * 10 ^ e.toNat
        else if 2 * (m % scale) < scale ∨ 2 * (m % scale) = scale ∧ m / scale % 2 = 0 then m / scale
        else m / scale + 1
      .ok (if negative then -(half : Int) else half)
    | .infinity _ => .error .overflowError
    | .nan => .error .valueError

/-- A span with a duration and nothing else. -/
def durationLine (duration : String) : ModalityItem :=
  { timestamp := Iso8601.epoch, service := py "media",
    raw := py "\x7b\"duration\": " ++ py duration ++ py "\x7d" }

/-- Three durations, and NaN between them. -/
def nanLines : List ModalityItem :=
  [durationLine "1", durationLine "NaN", durationLine "2", durationLine "NaN", durationLine "100"]

/-- The spans of these lines. -/
def nanSpans : List (ReadSpan FloatLit) :=
  match @readSpans FloatLit rangedDecimals asciiRuntime nanLines with
  | .ok spans => spans
  | .error _ => []

/-- The span of 100 ms. -/
def hiddenSpan : Option (ReadSpan FloatLit × FloatLit) := (timedSpans nanSpans)[4]?

/-- The spans that are repeated. -/
def shownLines : List ModalityItem := [durationLine "1", durationLine "NaN", durationLine "2"]

/-- A duration that is not faster than 100 ms, of a span that is repeated. -/
def mayRepeat (span : ReadSpan FloatLit × FloatLit) : Bool :=
  !@slower FloatLit rangedDecimals (span.1, .decimal false 100 0) span &&
    decide (span.1.1 ∈ shownLines)

/-- The span of 100 ms is not repeated, and of the three that are two are faster. -/
theorem slowest_hidden :
    Returns (@compressTraces asciiRuntime FloatLit rangedDecimals roundedDecimals nanLines) ∧
    Returns (@readSpans FloatLit rangedDecimals asciiRuntime nanLines) ∧
    ∀ spans, @readSpans FloatLit rangedDecimals asciiRuntime nanLines = .ok spans →
      ¬ @SlowestShown FloatLit rangedDecimals asciiRuntime spans := by
  refine ⟨by decide +kernel, by decide +kernel, ?_⟩
  intro spans read shown
  obtain rfl : nanSpans = spans := by rw [nanSpans, read]
  obtain ⟨slowest, rest, split, size, order, repeated⟩ := shown
  have listed : @exemplars FloatLit rangedDecimals asciiRuntime nanSpans = shownLines := by
    decide +kernel
  obtain ⟨top, found⟩ : ∃ top, hiddenSpan = some top :=
    Option.isSome_iff_exists.mp (by decide +kernel)
  obtain early | late := List.mem_append.mp (split.mem_iff.mpr (List.mem_of_getElem? found))
  · -- it would be repeated
    have absent : ∀ top ∈ hiddenSpan, top.1.1 ∉ shownLines := by decide +kernel
    exact absent top found (listed ▸ repeated top early)
  · -- or the three would be no faster than it
    have duration : ∀ top ∈ hiddenSpan, top.2 = FloatLit.decimal false 100 0 := by decide +kernel
    have all : slowest.countP mayRepeat = slowest.length := by
      rw [List.countP_eq_length]
      intro span member
      have faster : @slower FloatLit rangedDecimals (span.1, .decimal false 100 0) span = false :=
        duration top found ▸ order span member top late
      have shown := listed ▸ repeated span member
      simp [mayRepeat, faster, shown]
    have few : (timedSpans nanSpans).countP mayRepeat = 2 := by decide +kernel
    have many : (timedSpans nanSpans).length = 5 := by decide +kernel
    rw [← split.countP_eq, List.countP_append, all] at few
    rw [many] at size
    simp only [exemplarLimit] at size
    omega

end RcaBackend
