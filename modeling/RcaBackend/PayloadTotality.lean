import RcaBackend.PayloadEnvelope
import RcaBackend.RawReadability
import RcaBackend.TriggerSplit
import RcaBackend.CanonicalTimes

/-!
# When a payload can be assembled

The steps of a payload raise where a time has no UTC value, where the selection cannot
grade an array that is longer than the cap, and where a line that is kept cannot be
rewritten. Nothing else raises: for each step the condition is stated on the items of
the bundle, and the payload is assembled exactly if all of them hold.
-/

namespace RcaBackend

open SignalPatterns Attempts

/-! ## Times -/

/-- A naive time is UTC already; an aware one is shifted within the years 1 to 9999. -/
def Iso8601.Shifts (ts : Iso8601) : Prop := ts.value.offset = none ∨ ts.InRange

/-- A time is converted where it can be shifted to UTC. -/
theorem toSpringTs_returns_iff (ts : Iso8601) : Returns (toSpringTs ts.text) ↔ ts.Shifts := by
  have converted : toSpringTs ts.text = ts.value.toUtc.map DateTime.isoformatUtc := by
    rw [toSpringTs, parseTs_text]
  rw [converted, returns_map_iff, Iso8601.Shifts, DateTime.toUtc]
  cases offset : ts.value.offset with
  | none => simp
  | some seconds =>
    simp only [reduceCtorEq, false_or, Iso8601.InRange]
    split
    · next inside => simp [inside]
    · next outside => simp [outside]

/-- A time that may be absent. -/
theorem convertOption_returns_iff (ts : Option Iso8601) :
    Returns (convertOption (ts.map Iso8601.text)) ↔ ∀ present ∈ ts, present.Shifts := by
  cases ts with
  | none => simp [convertOption]
  | some present =>
    simp only [Option.map_some, convertOption, Option.mem_some_iff, forall_eq',
      ← toSpringTs_returns_iff]
    exact returns_map_iff

/-- The times of an interval. -/
def ModalityInterval.Shifts (interval : ModalityInterval) : Prop :=
  (∀ ts ∈ interval.start, ts.Shifts) ∧ ∀ ts ∈ interval.stop, ts.Shifts

/-- An interval is converted where its ends are. -/
theorem IntervalText.convert_returns_iff (interval : ModalityInterval) :
    Returns interval.texts.convert ↔ interval.Shifts := by
  rw [ModalityInterval.Shifts, ← convertOption_returns_iff, ← convertOption_returns_iff]
  constructor
  · intro returned
    obtain ⟨start, first, later⟩ := returns_bind_iff.mp returned
    obtain ⟨stop, second, -⟩ := returns_bind_iff.mp later
    exact ⟨⟨start, first⟩, ⟨stop, second⟩⟩
  · rintro ⟨⟨start, first⟩, ⟨stop, second⟩⟩
    exact returns_bind_iff.mpr ⟨start, first, returns_bind_iff.mpr ⟨stop, second, returns_ok _⟩⟩

/-- A window is converted where its ends are. -/
theorem WindowText.convert_returns_iff (window : Window) :
    Returns window.texts.convert ↔ window.start.Shifts ∧ window.stop.Shifts := by
  rw [← toSpringTs_returns_iff, ← toSpringTs_returns_iff]
  constructor
  · intro returned
    obtain ⟨start, first, later⟩ := returns_bind_iff.mp returned
    obtain ⟨stop, second, -⟩ := returns_bind_iff.mp later
    exact ⟨⟨start, first⟩, ⟨stop, second⟩⟩
  · rintro ⟨⟨start, first⟩, ⟨stop, second⟩⟩
    exact returns_bind_iff.mpr ⟨start, first, returns_bind_iff.mpr ⟨stop, second, returns_ok _⟩⟩

/-- A signal is converted where its time is. -/
theorem Signal.convert_returns_iff (item : ModalityItem) :
    Returns item.signal.convert ↔ item.timestamp.Shifts := by
  rw [← toSpringTs_returns_iff]
  exact returns_bind_ok_iff

/-- The times of a bundle that are sent whatever is selected. -/
structure IngestBundle.EnvelopeShifts (bundle : IngestBundle) : Prop where
  start : bundle.window.start.Shifts
  stop : bundle.window.stop.Shifts
  trigger : bundle.triggerInfo.triggerTime.Shifts
  intervals : ∀ m, ∀ interval ∈ bundle.modalityInfo.intervals m, interval.Shifts

/-- The times of the envelope are converted if each of them is. -/
theorem envelope_convert_returns_iff (bundle : IngestBundle) (kept : Modality → List ModalityItem) :
    Returns { bundle.envelope with
        signals := fun m => (kept m).map ModalityItem.signal }.convert ↔
      bundle.EnvelopeShifts ∧ ∀ m, ∀ item ∈ kept m, item.timestamp.Shifts := by
  have signals : Returns (forEach fun m =>
      ((kept m).map ModalityItem.signal).mapM Signal.convert) ↔
        ∀ m, ∀ item ∈ kept m, item.timestamp.Shifts := by
    simp only [returns_forEach_iff, returns_mapM_iff, List.forall_mem_map,
      Signal.convert_returns_iff]
  have intervals : Returns (forEach fun m =>
      (bundle.envelope.intervals m).mapM IntervalText.convert) ↔
        ∀ m, ∀ interval ∈ bundle.modalityInfo.intervals m, interval.Shifts := by
    simp only [returns_forEach_iff, returns_mapM_iff, IngestBundle.envelope, List.forall_mem_map,
      IntervalText.convert_returns_iff]
  have window := WindowText.convert_returns_iff bundle.window
  have trigger := toSpringTs_returns_iff bundle.triggerInfo.triggerTime
  constructor
  · intro returned
    obtain ⟨spanned, first, later⟩ := returns_bind_iff.mp returned
    obtain ⟨moment, second, later⟩ := returns_bind_iff.mp later
    obtain ⟨converted, third, later⟩ := returns_bind_iff.mp later
    obtain ⟨places, fourth, -⟩ := returns_bind_iff.mp later
    have sides := window.mp ⟨spanned, first⟩
    exact ⟨⟨sides.1, sides.2, trigger.mp ⟨moment, second⟩, intervals.mp ⟨places, fourth⟩⟩,
      signals.mp ⟨converted, third⟩⟩
  · rintro ⟨fixed, timed⟩
    obtain ⟨spanned, first⟩ := window.mpr ⟨fixed.start, fixed.stop⟩
    obtain ⟨moment, second⟩ := trigger.mpr fixed.trigger
    obtain ⟨converted, third⟩ := signals.mpr timed
    obtain ⟨places, fourth⟩ := intervals.mpr fixed.intervals
    apply returns_bind_iff.mpr
    refine ⟨spanned, first, returns_bind_iff.mpr ⟨moment, second, ?_⟩⟩
    exact returns_bind_iff.mpr ⟨converted, third,
      returns_bind_iff.mpr ⟨places, fourth, returns_ok _⟩⟩

/-- Only the times of the signals change. -/
theorem Envelope.convert_raws {envelope converted : Envelope}
    (returned : envelope.convert = .ok converted) (m : Modality) :
    (converted.signals m).map Signal.raw = (envelope.signals m).map Signal.raw := by
  obtain ⟨window, -, rest⟩ := bind_ok_iff.mp returned
  obtain ⟨triggerTime, -, rest⟩ := bind_ok_iff.mp rest
  obtain ⟨signals, each, rest⟩ := bind_ok_iff.mp rest
  obtain ⟨intervals, -, same⟩ := bind_ok_iff.mp rest
  obtain rfl := Except.ok.inj same
  apply map_of_mapM (forEach_ok_iff.mp each m)
  intro signal _ result changed
  obtain ⟨timestamp, -, same⟩ := bind_ok_iff.mp changed
  obtain rfl := Except.ok.inj same
  rfl

/-! ## Durations -/

section Lines

variable (F : Type) [PyFloat F] [PyRuntime]

/-- The value that a span has for its duration. -/
def durationField (d : Dict) : Json :=
  firstValue d [py "duration_us", py "duration_ms", py "duration"]

/-- The duration of a span as `int` takes it. -/
def durationWhole (d : Dict) : Except PyExc Int :=
  if d.get (py "duration_us") ≠ .null then do
    let value : F ← floatValue (durationField d)
    PyFloat.trunc (PyFloat.div value (PyFloat.ofLit (wholeLit 1000)))
  else (floatValue (durationField d) : Except PyExc F) >>= PyFloat.trunc

/-- What is raised is a `ValueError` or a `TypeError`. -/
def Guarded : Except PyExc Int → Prop
  | .ok _ => True
  | .error raised => raised = .valueError ∨ raised = .typeError

omit [PyRuntime] in
/-- A conversion that may fail returns where it raises a `ValueError` or a `TypeError` at most. -/
theorem wholeOrNone_returns_iff (attempt : Except PyExc Int) :
    Returns (wholeOrNone attempt) ↔ Guarded attempt := by
  cases attempt with
  | ok whole => simp [wholeOrNone, Guarded]
  | error raised => cases raised <;> simp [wholeOrNone, Guarded]

/-- A span without a duration raises the `TypeError` of `float(None)`, which is caught. -/
theorem traceDurationMs_eq (d : Dict) : traceDurationMs F d = wholeOrNone (durationWhole F d) := by
  rw [traceDurationMs, durationWhole, durationField]
  simp only [firstValue]
  by_cases micros : d.get (py "duration_us") = .null
  · by_cases millis : d.get (py "duration_ms") = .null
    · by_cases plain : d.get (py "duration") = .null
      · simp [micros, millis, plain, floatValue, wholeOrNone, bind, Except.bind]
      · simp [micros, millis, plain]
    · simp [micros, millis]
  · simp [micros]

/-- The selection takes the float of a duration without a guard. -/
theorem spanDuration_returns_iff (d : Dict) :
    Returns (spanDuration d : Except PyExc (Option F)) ↔
      (durationField d ≠ .null → Returns (floatValue (durationField d) : Except PyExc F)) := by
  rw [spanDuration, durationField]
  simp only [firstValue]
  by_cases micros : d.get (py "duration_us") = .null
  · by_cases millis : d.get (py "duration_ms") = .null
    · by_cases plain : d.get (py "duration") = .null
      · simp [micros, millis, plain]
      · simp [micros, millis, plain]
    · simp [micros, millis]
  · simp only [micros, ne_eq, not_false_eq_true, if_true, true_implies]
    exact returns_bind_ok_iff

/-- The unit of a duration in a text is in the table of units. -/
def UnitKnown (raw : PyStr) : Prop :=
  ∀ found ∈ reSearch durationRe raw, (durationUnit (lowerText (groupText found 2))).isSome = true

/-- The duration of a text is read where its unit is known. -/
theorem textDuration_returns_iff (raw : PyStr) :
    Returns (textDuration raw : Except PyExc (Option F)) ↔ UnitKnown raw := by
  rw [textDuration, UnitKnown]
  cases matched : reSearch durationRe raw with
  | none => simp
  | some found =>
    obtain ⟨before, after, reached⟩ := Regex.search_ways matched
    have captured := groupText_captured 1 reached rfl
    obtain ⟨value, read⟩ := floatText_returns (F := F) (durationRe_numeral captured)
    simp only [Option.mem_some_iff, forall_eq']
    rw [returns_bind_iff]
    cases durationUnit (lowerText (groupText found 2)) with
    | none => simp
    | some scale => exact ⟨fun _ => rfl, fun _ => ⟨value, read, returns_ok _⟩⟩

/-! ## Lines -/

/-- The row of a line before it is written. -/
def contractRow : Modality → PyStr → Except PyExc Row
  | .log, raw => LogLine.row <$> logLine F raw
  | .metric, raw => MetricItem.row <$> metricItem F raw
  | .trace, raw => TraceSpan.row <$> traceSpan F raw

/-- A normalizer writes the row of its contract. -/
theorem normalizer_eq (m : Modality) (raw : PyStr) :
    normalizer F m raw = contractRow F m raw >>= modelDumpJson := by
  cases m <;> simp [normalizer, contractRow, normalizeLog, normalizeMetric, normalizeTrace]

/-- The duration of a line becomes a whole number, or what is raised is caught. -/
def DurationReadable (raw : PyStr) : Option Dict → Prop
  | some d => Guarded (durationWhole F d)
  | none => UnitKnown raw ∧
      ∀ value : F, textDuration raw = .ok (some value) → Returns (PyFloat.trunc value)

/-- The line has a row. -/
def RowReadable : Modality → PyStr → Prop
  | .log, raw | .metric, raw => Loads raw
  | .trace, raw => Loads raw ∧ DurationReadable F raw (objectOf raw)

/-- A log line has a row where it loads or is no JSON. -/
theorem logLine_returns_iff (raw : PyStr) : Returns (logLine F raw) ↔ Loads raw := by
  rw [logLine, returns_object_iff]
  cases objectOf raw with
  | none => exact and_iff_left (returns_ok _)
  | some d => exact and_iff_left (returns_ok _)

/-- A metric has a label and a value where it loads or is no JSON. -/
theorem metricLabelValue_returns_iff (raw : PyStr) :
    Returns (metricLabelValue F raw) ↔ Loads raw := by
  rw [metricLabelValue, returns_object_iff]
  apply and_iff_left
  cases objectOf raw with
  | none =>
    dsimp only
    cases reMatch promRe (strip raw) with
    | none => exact returns_ok _
    | some cursor => exact returns_ok _
  | some d =>
    dsimp only
    split
    · exact returns_ok _
    · cases firstNumeric d with
      | none => exact returns_ok _
      | some entry => exact returns_ok _

/-- So it has a row. -/
theorem metricItem_returns_iff (raw : PyStr) : Returns (metricItem F raw) ↔ Loads raw := by
  rw [← metricLabelValue_returns_iff F]
  constructor
  · intro returned
    obtain ⟨pair, read, -⟩ := returns_bind_iff.mp returned
    exact ⟨pair, read⟩
  · intro returned
    have loads := (metricLabelValue_returns_iff F raw).mp returned
    obtain ⟨pair, read⟩ := returned
    exact returns_bind_iff.mpr
      ⟨pair, read, returns_bind_iff.mpr ⟨objectOf raw, loadsDict_eq loads, returns_ok _⟩⟩

/-- The duration of a text is a whole number where it can be read. -/
theorem wholeDuration_returns_iff (raw : PyStr) :
    Returns (wholeDuration F raw) ↔ DurationReadable F raw none := by
  rw [DurationReadable, ← textDuration_returns_iff F, wholeDuration]
  constructor
  · intro returned
    obtain ⟨duration, read, later⟩ := returns_bind_iff.mp returned
    refine ⟨⟨duration, read⟩, ?_⟩
    intro value same
    obtain rfl := Except.ok.inj (read.symm.trans same)
    obtain ⟨whole, taken, -⟩ := returns_bind_iff.mp later
    exact ⟨whole, taken⟩
  · rintro ⟨⟨duration, read⟩, taken⟩
    apply returns_bind_iff.mpr
    refine ⟨duration, read, ?_⟩
    cases duration with
    | none => exact returns_ok _
    | some value =>
      obtain ⟨whole, found⟩ := taken value read
      exact returns_bind_iff.mpr ⟨whole, found, returns_ok _⟩

/-- A span has a row where it loads and its duration can be read. -/
theorem traceSpan_returns_iff (raw : PyStr) :
    Returns (traceSpan F raw) ↔ Loads raw ∧ DurationReadable F raw (objectOf raw) := by
  rw [traceSpan, returns_object_iff]
  apply and_congr_right
  intro _
  cases objectOf raw with
  | none =>
    rw [← wholeDuration_returns_iff]
    exact returns_bind_ok_iff
  | some d =>
    rw [DurationReadable, ← wholeOrNone_returns_iff, ← traceDurationMs_eq]
    exact returns_bind_ok_iff

/-- What has a row, for each modality. -/
theorem contractRow_returns_iff (m : Modality) (raw : PyStr) :
    Returns (contractRow F m raw) ↔ RowReadable F m raw := by
  cases m with
  | log => exact returns_map_iff.trans (logLine_returns_iff F raw)
  | metric => exact returns_map_iff.trans (metricItem_returns_iff F raw)
  | trace => exact returns_map_iff.trans (traceSpan_returns_iff F raw)

/-- The line has a row, and no text of the row has a lone surrogate. -/
def Normalizes (m : Modality) (raw : PyStr) : Prop :=
  RowReadable F m raw ∧
    ∀ row, contractRow F m raw = .ok row → ∀ entry ∈ row, entry.2.encodable = true

/-- What is normalized, for each modality. -/
theorem normalizer_returns_iff (m : Modality) (raw : PyStr) :
    Returns (normalizer F m raw) ↔ Normalizes F m raw := by
  have written (row : Row) :
      Returns (modelDumpJson row) ↔ ∀ entry ∈ row, entry.2.encodable = true := by
    rw [modelDumpJson]
    split
    · next encodable => simpa using List.all_eq_true.mp encodable
    · next failing =>
      refine iff_of_false (not_returns_error _) ?_
      exact fun all => failing (List.all_eq_true.mpr all)
  rw [normalizer_eq, Normalizes, ← contractRow_returns_iff]
  constructor
  · intro returned
    obtain ⟨row, read, later⟩ := returns_bind_iff.mp returned
    refine ⟨⟨row, read⟩, ?_⟩
    intro other same
    obtain rfl := Except.ok.inj (read.symm.trans same)
    exact (written row).mp later
  · rintro ⟨⟨row, read⟩, encodable⟩
    exact returns_bind_iff.mpr ⟨row, read, (written row).mpr (encodable row read)⟩

end Lines

/-! ## The selection -/

section Selection

variable (F : Type) [PyFloat F] [PyRuntime]

/-- The span fields of a line are read. -/
def SpanReadable (raw : PyStr) : Prop :=
  Loads raw ∧
    match objectOf raw with
    | some d => durationField d ≠ .null → Returns (floatValue (durationField d) : Except PyExc F)
    | none => UnitKnown raw

/-- The fields of a span are read off its object, or else off its text. -/
theorem spanFields_eq (raw : PyStr) : (spanFields raw : Except PyExc (SpanFields F)) = do
    match ← loadsDict raw with
    | some d =>
      let durationMs ← spanDuration d
      return { operation := pyStr F (spanOperation F d), durationMs,
               isErr := showsError (pyStr F (spanStatus F d)) }
    | none =>
      let durationMs ← textDuration raw
      return { operation := py "?", durationMs, isErr := showsError raw } := by
  rw [spanFields, loadsDict, bind_assoc]
  refine bind_congr_ok fun json _ => ?_
  cases json with
  | none => rfl
  | some value => cases value <;> rfl

/-- `span_fields` returns where the span can be read. -/
theorem spanFields_returns_iff (raw : PyStr) :
    Returns (spanFields raw : Except PyExc (SpanFields F)) ↔ SpanReadable F raw := by
  rw [spanFields_eq, returns_object_iff, SpanReadable]
  apply and_congr_right
  intro _
  cases objectOf raw with
  | none =>
    dsimp only
    rw [← textDuration_returns_iff F]
    exact returns_bind_ok_iff
  | some d =>
    dsimp only
    rw [← spanDuration_returns_iff]
    exact returns_bind_ok_iff

/-- Spans are put into buckets where each can be read. -/
theorem traceBuckets_returns_iff (items : List Signal) :
    Returns (traceBuckets F items) ↔ ∀ item ∈ items, SpanReadable F item.raw := by
  have graded : Returns (items.zipIdx.mapM fun entry => gradedSpan (F := F) entry.1 entry.2) ↔
      ∀ item ∈ items, SpanReadable F item.raw := by
    rw [returns_mapM_iff]
    constructor
    · intro each item member
      obtain ⟨place, inside, rfl⟩ := List.mem_iff_getElem.mp member
      have listed : (items[place], place) ∈ items.zipIdx := by
        rw [List.mem_zipIdx_iff_getElem?, List.getElem?_eq_getElem inside]
      obtain ⟨fields, read, -⟩ := returns_bind_iff.mp (each _ listed)
      exact (spanFields_returns_iff F _).mp ⟨fields, read⟩
    · rintro each ⟨item, idx⟩ member
      have readable := each item (List.fst_mem_of_mem_zipIdx member)
      obtain ⟨fields, read⟩ := (spanFields_returns_iff F _).mpr readable
      exact returns_bind_iff.mpr ⟨fields, read, returns_ok _⟩
  rw [traceBuckets, returns_map_iff, ← graded, spanGroups]
  exact returns_bind_ok_iff

/-- The metric items can be read, compared with the trigger and graded. -/
structure MetricsGradable (bundle : IngestBundle) : Prop where
  readable : ∀ item ∈ bundle.metrics, Loads item.raw ∧ ∀ d ∈ objectOf item.raw, NumbersFit F d
  comparable : PairedComparable F bundle.metrics bundle.triggerInfo.triggerTime
  graded : ∀ key, Graded (seriesValues (firstPair F) bundle.metrics
    (fun item => item.precedes bundle.triggerInfo.triggerTime) key)

/-- The items of a modality can be put into buckets. -/
def Gradable (bundle : IngestBundle) : Modality → Prop
  | .log => True
  | .metric => MetricsGradable F bundle
  | .trace => ∀ item ∈ bundle.traces, SpanReadable F item.raw

/-- Metrics are put into buckets where they can be graded. -/
theorem metricBuckets_bundle_returns_iff (bundle : IngestBundle) :
    Returns (metricBuckets F (bundle.metrics.map ModalityItem.signal)
      bundle.triggerInfo.triggerTime.text) ↔ MetricsGradable F bundle := by
  have split := selectionSplit_iff (F := F) bundle.metrics bundle.triggerInfo.triggerTime
  simp only [metricPairs_returns_iff] at split
  constructor
  · intro returned
    obtain ⟨⟨points, unparsed⟩, read, -⟩ := returns_bind_iff.mp returned
    obtain ⟨each, comparable⟩ := metricPoints_returns ⟨_, read⟩
    have placed : SelectionSplit F bundle.metrics bundle.triggerInfo.triggerTime := by
      refine ⟨returned, points, unparsed, read, ?_⟩
      obtain ⟨others, again⟩ := metricPoints_signals each comparable
      obtain ⟨rfl, -⟩ := Prod.mk.inj (Except.ok.inj (read.symm.trans again))
      intro point member
      obtain ⟨⟨item, idx⟩, inside, made⟩ := List.mem_filterMap.mp member
      obtain ⟨pair, -, rfl⟩ := Option.map_eq_some_iff.mp made
      exact ⟨item, List.mem_zipIdx_iff_getElem?.mp inside, rfl⟩
    obtain ⟨readable, compared, graded⟩ := split.mp placed
    exact ⟨readable, compared, graded⟩
  · intro gradable
    exact (split.mpr ⟨gradable.readable, gradable.comparable, gradable.graded⟩).1

variable [Drain]

/-- What is put into buckets, for each modality. -/
theorem bucketsOf_returns_iff (bundle : IngestBundle) (m : Modality) :
    Returns (bucketsOf F m ((bundle.items m).map ModalityItem.signal)
      bundle.triggerInfo.triggerTime.text) ↔ Gradable F bundle m := by
  cases m with
  | log => exact iff_of_true (returns_ok _) trivial
  | metric => exact returns_map_iff.trans (metricBuckets_bundle_returns_iff F bundle)
  | trace =>
    refine (traceBuckets_returns_iff F _).trans ?_
    simp only [List.forall_mem_map]
    rfl

/-- The items of an array that are sent. -/
def keptItems (bundle : IngestBundle) (cap : Nat) (m : Modality) :
    Except PyExc (List ModalityItem) :=
  if (bundle.items m).length ≤ cap then .ok (bundle.items m)
  else do
    let picked ← pickedPositions F m ((bundle.items m).map ModalityItem.signal)
      bundle.triggerInfo.triggerTime.text cap
    return picked.filterMap fun i => (bundle.items m)[i]?

/-- What is kept of the signals is kept of the items. -/
theorem keptSignals_items (bundle : IngestBundle) (cap : Nat) (m : Modality) :
    keptSignals F m (bundle.envelope.signals m) bundle.envelope.triggerTime cap =
      List.map ModalityItem.signal <$> keptItems F bundle cap m := by
  have places (picked : List Nat) :
      picked.filterMap (fun i => ((bundle.items m).map ModalityItem.signal)[i]?) =
        (picked.filterMap fun i => (bundle.items m)[i]?).map ModalityItem.signal := by
    simp [List.map_filterMap]
  simp only [keptSignals, keptItems, IngestBundle.envelope, List.length_map, places]
  split <;> simp

/-- A selection is made where there are too many items and they can be graded. -/
theorem keptItems_returns_iff (bundle : IngestBundle) (cap : Nat) (m : Modality) :
    Returns (keptItems F bundle cap m) ↔
      (cap < (bundle.items m).length → Gradable F bundle m) := by
  rw [keptItems]
  split
  · next short => exact iff_of_true (returns_ok _) fun long => absurd short (by omega)
  · next long =>
    rw [← bucketsOf_returns_iff]
    constructor
    · intro returned _
      obtain ⟨picked, chosen, -⟩ := returns_bind_iff.mp returned
      obtain ⟨buckets, graded, -⟩ := returns_bind_iff.mp ⟨picked, chosen⟩
      exact ⟨buckets, graded⟩
    · intro gradable
      obtain ⟨buckets, graded⟩ := gradable (by omega)
      have chosen : Returns (pickedPositions F m ((bundle.items m).map ModalityItem.signal)
          bundle.triggerInfo.triggerTime.text cap) :=
        returns_bind_iff.mpr ⟨buckets, graded, returns_ok _⟩
      obtain ⟨picked, found⟩ := chosen
      exact returns_bind_iff.mpr ⟨picked, found, returns_ok _⟩

end Selection

/-! ## Payloads -/

section Payloads

variable (F : Type) [PyFloat F] [PyRuntime] [Drain]

/-- What the assembly of a payload needs of its bundle. -/
structure Assembles (bundle : IngestBundle) (cap : Nat) : Prop where
  /-- An array that is too long is graded. -/
  gradable : ∀ m, cap < (bundle.items m).length → Gradable F bundle m
  /-- The times of the envelope are shifted to UTC. -/
  shifts : bundle.EnvelopeShifts
  /-- The items that are kept are shifted and rewritten. -/
  sendable : ∀ m kept, keptItems F bundle cap m = .ok kept →
    ∀ item ∈ kept, item.timestamp.Shifts ∧ Normalizes F m item.raw

omit [Drain] in
/-- Signals are normalized where each is. -/
theorem normalize_returns_iff (m : Modality) (signals : List Signal) :
    Returns (signals.mapM (Signal.normalize F m)) ↔
      ∀ raw ∈ signals.map Signal.raw, Normalizes F m raw := by
  rw [returns_mapM_iff, List.forall_mem_map]
  refine forall₂_congr fun signal _ => ?_
  rw [← normalizer_returns_iff]
  exact returns_bind_ok_iff

/-- With the selection made, the rest of the envelope is built from the items that are kept. -/
theorem delivered_kept {bundle : IngestBundle} {cap : Nat} {kept : Modality → List ModalityItem}
    (chosen : ∀ m, keptItems F bundle cap m = .ok (kept m)) :
    delivered F bundle cap = do
      let converted ← { bundle.envelope with
        signals := fun m => (kept m).map ModalityItem.signal }.convert
      let signals ← forEach fun m => (converted.signals m).mapM (Signal.normalize F m)
      return { converted with signals } := by
  have selected : (forEach fun m =>
      keptSignals F m (bundle.envelope.signals m) bundle.envelope.triggerTime cap) =
        .ok fun m => (kept m).map ModalityItem.signal := by
    rw [forEach_ok_iff]
    intro m
    rw [keptSignals_items, chosen m]
    rfl
  simp only [delivered]
  rw [selected]
  rfl

/-- The payload without its report is assembled under these conditions. -/
theorem delivered_returns_iff (bundle : IngestBundle) (cap : Nat) :
    Returns (delivered F bundle cap) ↔ Assembles F bundle cap := by
  by_cases graded : ∀ m, Returns (keptItems F bundle cap m)
  · have gradable (m : Modality) := (keptItems_returns_iff F bundle cap m).mp (graded m)
    choose kept chosen using graded
    have timed := envelope_convert_returns_iff bundle kept
    rw [delivered_kept F chosen]
    constructor
    · intro returned
      obtain ⟨converted, conversion, later⟩ := returns_bind_iff.mp returned
      obtain ⟨signals, normalized, -⟩ := returns_bind_iff.mp later
      obtain ⟨fixed, shifted⟩ := timed.mp ⟨converted, conversion⟩
      refine ⟨gradable, fixed, ?_⟩
      intro m items same item member
      obtain rfl := Except.ok.inj ((chosen m).symm.trans same)
      have each := (normalize_returns_iff F m (converted.signals m)).mp
        ⟨signals m, forEach_ok_iff.mp normalized m⟩
      rw [Envelope.convert_raws conversion, List.map_map, List.forall_mem_map] at each
      exact ⟨shifted m item member, each item member⟩
    · rintro ⟨-, fixed, sendable⟩
      obtain ⟨converted, conversion⟩ := timed.mpr
        ⟨fixed, fun m item member => (sendable m (kept m) (chosen m) item member).1⟩
      have normalized (m : Modality) :
          Returns ((converted.signals m).mapM (Signal.normalize F m)) := by
        rw [normalize_returns_iff, Envelope.convert_raws conversion, List.map_map,
          List.forall_mem_map]
        exact fun item member => (sendable m (kept m) (chosen m) item member).2
      obtain ⟨signals, written⟩ := returns_forEach_iff.mpr normalized
      exact returns_bind_iff.mpr
        ⟨converted, conversion, returns_bind_iff.mpr ⟨signals, written, returns_ok _⟩⟩
  · refine iff_of_false ?_ ?_
    · intro returned
      obtain ⟨kept, selected, -⟩ := returns_bind_iff.mp returned
      refine graded fun m => ?_
      have here := forEach_ok_iff.mp selected m
      rw [keptSignals_items] at here
      obtain ⟨items, chosen, -⟩ := map_ok_iff.mp here
      exact ⟨items, chosen⟩
    · intro assembles
      exact graded fun m => (keptItems_returns_iff F bundle cap m).mpr (assembles.gradable m)

/-- The report of a result returns where the payload without it does. -/
theorem resultPayload_returns_iff (bundle : IngestBundle) (result : RcaResult) (cap : Nat) :
    Returns (resultPayload F bundle result cap) ↔ Assembles F bundle cap := by
  rw [resultPayload_eq, ← delivered_returns_iff]
  exact returns_map_iff

/-- So does the report of a failure. -/
theorem failurePayload_returns_iff (bundle : IngestBundle) (reason : PyStr) (cap : Nat) :
    Returns (failurePayload F bundle reason cap) ↔ Assembles F bundle cap := by
  rw [failurePayload_eq, ← delivered_returns_iff]
  exact returns_map_iff

/-- A payload is assembled exactly if the arrays that are longer than the cap can be graded, the
times that are sent have a UTC value, and the lines that are kept have a row that can be written.
The report of a failure raises wherever that of a result does. -/
theorem payloads_assemble (bundle : IngestBundle) (result : RcaResult) (reason : PyStr)
    (cap : Nat) :
    (Returns (resultPayload F bundle result cap) ↔ Assembles F bundle cap) ∧
      (Returns (failurePayload F bundle reason cap) ↔ Assembles F bundle cap) :=
  ⟨resultPayload_returns_iff F bundle result cap, failurePayload_returns_iff F bundle reason cap⟩

/-! ## Every result and every cap -/

/-- Both payloads of a bundle return, whatever is reported. -/
def PayloadsReturn (bundle : IngestBundle) (cap : Nat) : Prop :=
  ∀ result reason, Returns (resultPayload F bundle result cap) ∧
    Returns (failurePayload F bundle reason cap)

/-- What is reported does not matter. -/
theorem payloadsReturn_iff (bundle : IngestBundle) (cap : Nat) :
    PayloadsReturn F bundle cap ↔ Assembles F bundle cap := by
  constructor
  · intro returned
    exact (failurePayload_returns_iff F bundle [] cap).mp (returned (.bare []) []).2
  · intro assembles result reason
    exact ⟨(resultPayload_returns_iff F bundle result cap).mpr assembles,
      (failurePayload_returns_iff F bundle reason cap).mpr assembles⟩

/-- Every item of a bundle can be graded and sent. -/
structure Sendable (bundle : IngestBundle) : Prop where
  /-- An array with items is graded. -/
  gradable : ∀ m, bundle.items m ≠ [] → Gradable F bundle m
  /-- The times of the envelope are shifted to UTC. -/
  shifts : bundle.EnvelopeShifts
  /-- The items are shifted and rewritten. -/
  sendable : ∀ m, ∀ item ∈ bundle.items m, item.timestamp.Shifts ∧ Normalizes F m item.raw

/-- An item that is kept is one of the bundle. -/
theorem mem_of_mem_keptItems {bundle : IngestBundle} {cap : Nat} {m : Modality}
    {kept : List ModalityItem} (chosen : keptItems F bundle cap m = .ok kept)
    {item : ModalityItem} (member : item ∈ kept) : item ∈ bundle.items m := by
  rw [keptItems] at chosen
  split at chosen
  · obtain rfl := Except.ok.inj chosen
    exact member
  · obtain ⟨picked, -, same⟩ := bind_ok_iff.mp chosen
    obtain rfl := Except.ok.inj same
    obtain ⟨i, -, found⟩ := List.mem_filterMap.mp member
    exact List.mem_of_getElem? found

/-- Nothing is cut with a large cap, and every array with an item is graded with the cap 0. -/
theorem assembles_all_iff (bundle : IngestBundle) :
    (∀ cap, Assembles F bundle cap) ↔ Sendable F bundle := by
  constructor
  · intro assembles
    refine ⟨?_, (assembles 0).shifts, ?_⟩
    · intro m filled
      exact (assembles 0).gradable m (List.length_pos_iff.mpr filled)
    · intro m item member
      have whole : keptItems F bundle (bundle.items m).length m = .ok (bundle.items m) :=
        if_pos le_rfl
      exact (assembles _).sendable m _ whole item member
  · rintro ⟨gradable, shifts, sendable⟩ cap
    refine ⟨?_, shifts, ?_⟩
    · intro m long
      exact gradable m (List.length_pos_iff.mp (by omega))
    · intro m kept chosen item member
      exact sendable m item (mem_of_mem_keptItems F chosen member)

/-- With a given cap the payloads of a bundle return exactly if it assembles; whatever the cap,
exactly if every one of its items can be graded and sent. -/
theorem payloads_total_iff (bundle : IngestBundle) :
    (∀ cap, PayloadsReturn F bundle cap ↔ Assembles F bundle cap) ∧
      ((∀ cap, PayloadsReturn F bundle cap) ↔ Sendable F bundle) := by
  refine ⟨payloadsReturn_iff F bundle, ?_⟩
  rw [← assembles_all_iff]
  exact forall_congr' (payloadsReturn_iff F bundle)

end Payloads

/-! ## Lines that raise -/

/-- A bundle of spans of one service. -/
def spansBundle (raws : List String) : IngestBundle :=
  { IngestBundle.bare .epoch with traces := raws.map fun raw => ⟨.epoch, py "api", py raw⟩ }

/-- The first moment of the calendar, in a zone that is ahead of UTC. -/
def firstMoment : Iso8601 := ⟨py "0001-01-01T00:00:00+09:00", by decide⟩

/-- Two spans, of which the first one has a word for its duration. -/
def wordySpans : IngestBundle :=
  spansBundle ["\x7b\"duration_ms\": \"slow\"\x7d", "GET took 5 ms"]

open ReferenceInterpreter in
/-- The selection does not catch what the rewriting of the same line catches, the rewriting does
not catch the `OverflowError` of `int`, and a time may leave the calendar. -/
theorem assembly_raises :
    (@resultPayload FloatLit rangedDecimals asciiRuntime oneCluster wordySpans
        (.bare (py "api")) 1 = .error .valueError ∧
      @PayloadsReturn FloatLit rangedDecimals asciiRuntime oneCluster wordySpans 2) ∧
    @failurePayload FloatLit rangedDecimals asciiRuntime oneCluster
        (spansBundle ["\x7b\"duration_ms\": Infinity\x7d"]) (py "timeout") 200 =
      .error .overflowError ∧
    @failurePayload FloatLit rangedDecimals asciiRuntime oneCluster
        (.bare firstMoment) (py "timeout") 200 = .error .overflowError := by
  have whole : Returns (@failurePayload FloatLit rangedDecimals asciiRuntime oneCluster wordySpans
      [] 2) := by decide +kernel
  have assembles := (@failurePayload_returns_iff FloatLit rangedDecimals asciiRuntime oneCluster
    wordySpans [] 2).mp whole
  refine ⟨⟨by decide +kernel, ?_⟩, by decide +kernel, by decide +kernel⟩
  exact (@payloadsReturn_iff FloatLit rangedDecimals asciiRuntime oneCluster wordySpans 2).mpr
    assembles

end RcaBackend
