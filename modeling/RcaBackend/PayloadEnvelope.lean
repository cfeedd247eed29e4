import RcaBackend.Attempts
import RcaBackend.SelectionCapacity
import RcaBackend.SpringPayload

/-!
# The payload as an envelope

A payload is the dump of the bundle, an envelope with a fixed shape, with further fields
behind it. Every pass over the dictionary of a payload is a pass over the typed envelope,
except for the notes on the sources, which are in the further fields. Both payloads
therefore send the same envelope, and one of them returns exactly if the other does.
-/

namespace RcaBackend

open Attempts

/-! ## Shapes -/

/-- The array of a modality. -/
def IngestBundle.items (bundle : IngestBundle) : Modality → List ModalityItem
  | .log => bundle.logs
  | .metric => bundle.metrics
  | .trace => bundle.traces

/-- The intervals of a modality. -/
def ModalityInfo.intervals (info : ModalityInfo) : Modality → List ModalityInterval
  | .log => info.log.intervals
  | .metric => info.metric.intervals
  | .trace => info.trace.intervals

/-- The texts of a window. -/
structure WindowText where
  start : PyStr
  stop : PyStr
deriving DecidableEq

/-- An interval with the texts of its times. -/
structure IntervalText where
  fileName : PyStr
  start : Option PyStr
  stop : Option PyStr
  status : Option PyStr
  recordCount : Option Int
  totalCount : Option Int
deriving DecidableEq

/-- What a payload has from the bundle. -/
structure Envelope where
  bundleVersion : PyStr
  companyCode : PyStr
  window : WindowText
  triggerTime : PyStr
  triggeredBy : List Modality
  intervals : Modality → List IntervalText
  signals : Modality → List Signal

/-- The texts of a window. -/
def Window.texts (window : Window) : WindowText := ⟨window.start.text, window.stop.text⟩

/-- The texts of an interval. -/
def ModalityInterval.texts (interval : ModalityInterval) : IntervalText where
  fileName := interval.fileName
  start := interval.start.map Iso8601.text
  stop := interval.stop.map Iso8601.text
  status := interval.status
  recordCount := interval.recordCount
  totalCount := interval.totalCount

/-- The envelope of a bundle before any pass. -/
def IngestBundle.envelope (bundle : IngestBundle) : Envelope where
  bundleVersion := bundle.bundleVersion
  companyCode := bundle.companyCode
  window := bundle.window.texts
  triggerTime := bundle.triggerInfo.triggerTime.text
  triggeredBy := bundle.triggerInfo.triggeredBy
  intervals m := (bundle.modalityInfo.intervals m).map ModalityInterval.texts
  signals m := (bundle.items m).map ModalityItem.signal

/-! ## Dictionaries -/

/-- A window in a payload. -/
def WindowText.entries (window : WindowText) : Dict :=
  [(py "start", .str window.start), (py "end", .str window.stop)]

/-- An interval in a payload. -/
def IntervalText.entries (interval : IntervalText) : Dict :=
  [(py "fileName", .str interval.fileName), (py "start", dumpOption .str interval.start),
    (py "end", dumpOption .str interval.stop), (py "status", dumpOption .str interval.status),
    (py "recordCount", dumpOption .int interval.recordCount),
    (py "totalCount", dumpOption .int interval.totalCount)]

/-- The list of the dictionaries of some values. -/
def dictList {α : Type} (entries : α → Dict) (values : List α) : Json :=
  .list (values.map fun value => .dict (entries value))

/-- The dictionary of the intervals of one modality. -/
def intervalEntries (intervals : List IntervalText) : Dict :=
  [(py "intervals", dictList IntervalText.entries intervals)]

namespace Envelope

/-- The trigger in a payload. -/
def triggerEntries (envelope : Envelope) : Dict :=
  [(py "triggerTime", .str envelope.triggerTime),
    (py "triggeredBy", .list (envelope.triggeredBy.map fun m => .str m.text))]

/-- The intervals of all modalities in a payload. -/
def infoEntries (intervals : Modality → List IntervalText) : Dict :=
  [(py "log", .dict (intervalEntries (intervals .log))),
    (py "metric", .dict (intervalEntries (intervals .metric))),
    (py "trace", .dict (intervalEntries (intervals .trace)))]

/-- The envelope in a payload, with the fields behind it. -/
def entries (envelope : Envelope) (behind : Dict) : Dict :=
  (py "bundleVersion", .str envelope.bundleVersion) ::
  (py "companyCode", .str envelope.companyCode) ::
  (py "window", .dict envelope.window.entries) ::
  (py "triggerInfo", .dict envelope.triggerEntries) ::
  (py "modalityInfo", .dict (infoEntries envelope.intervals)) ::
  (py "logs", dictList Signal.item (envelope.signals .log)) ::
  (py "metrics", dictList Signal.item (envelope.signals .metric)) ::
  (py "traces", dictList Signal.item (envelope.signals .trace)) :: behind

end Envelope

/-! ## The dump of a bundle -/

section Dump

/-- The aliases of the fields that have an underscore. -/
theorem toCamel_fields :
    toCamel (py "bundle_version") = py "bundleVersion" ∧
      toCamel (py "company_code") = py "companyCode" ∧
      toCamel (py "trigger_info") = py "triggerInfo" ∧
      toCamel (py "modality_info") = py "modalityInfo" ∧
      toCamel (py "trigger_time") = py "triggerTime" ∧
      toCamel (py "triggered_by") = py "triggeredBy" ∧
      toCamel (py "record_count") = py "recordCount" ∧
      toCamel (py "total_count") = py "totalCount" ∧
      toCamel (py "origin_service") = py "originService" := by
  decide +kernel

/-- The names that are their own aliases. -/
theorem toCamel_own {name : String} (own : name ∈ ["window", "logs", "metrics", "traces", "start",
      "end", "fileName", "status", "intervals", "log", "metric", "trace", "timestamp", "service",
      "raw", "conclusion", "source", "rca", "summary", "evidence", "impact", "actions"]) :
    toCamel (py name) = py name := by
  have all : ∀ name ∈ ["window", "logs", "metrics", "traces", "start",
      "end", "fileName", "status", "intervals", "log", "metric", "trace", "timestamp", "service",
      "raw", "conclusion", "source", "rca", "summary", "evidence", "impact", "actions"],
      toCamel (py name) = py name := by decide +kernel
  exact all name own

/-- A dump under aliases that leaves nothing out. -/
theorem dumpFields_aliases (fields : List (String × Json)) :
    dumpFields { byAlias := true } fields =
      fields.map fun field => (toCamel (py field.1), field.2) := by
  simp [dumpFields, DumpOptions.drops, DumpOptions.key]

/-- An optional time is dumped as its text. -/
theorem dumpOption_texts (ts : Option Iso8601) :
    dumpOption (fun ts : Iso8601 => Json.str ts.text) ts = dumpOption .str (ts.map Iso8601.text) := by
  cases ts <;> rfl

/-- What an item is dumped as under aliases. -/
theorem ModalityItem.dump_aliases (item : ModalityItem) :
    item.modelDump { byAlias := true } = .dict item.signal.item := by
  simp [modelDump, dumpFields_aliases, fields, toCamel_own, Signal.item, signal]

/-- What a window is dumped as under aliases. -/
theorem Window.dump_aliases (window : Window) :
    window.modelDump { byAlias := true } = .dict window.texts.entries := by
  simp [modelDump, dumpFields_aliases, fields, toCamel_own, WindowText.entries, texts]

/-- What an interval is dumped as under aliases. -/
theorem ModalityInterval.dump_aliases (interval : ModalityInterval) :
    interval.modelDump { byAlias := true } = .dict interval.texts.entries := by
  simp [modelDump, dumpFields_aliases, fields, toCamel_own, toCamel_fields, IntervalText.entries,
    texts, dumpOption_texts]

/-- What the intervals of a modality are dumped as under aliases. -/
theorem ModalityDetail.dump_aliases (detail : ModalityDetail) :
    detail.modelDump { byAlias := true } =
      .dict (intervalEntries (detail.intervals.map ModalityInterval.texts)) := by
  simp [modelDump, dumpFields_aliases, fields, toCamel_own, intervalEntries, dictList,
    ModalityInterval.dump_aliases, Function.comp_def]

/-- The dump of a bundle is its envelope. -/
theorem bundleDump_eq (bundle : IngestBundle) :
    bundleDump bundle = bundle.envelope.entries [] := by
  simp [bundleDump, IngestBundle.modelDump, dumpFields_aliases, IngestBundle.fields,
    IngestBundle.lightFields, IngestBundle.signalFields, toCamel_own, toCamel_fields,
    Envelope.entries, Envelope.triggerEntries, Envelope.infoEntries, IngestBundle.envelope,
    Window.dump_aliases, TriggerInfo.modelDump, TriggerInfo.fields, ModalityInfo.modelDump,
    ModalityInfo.fields, ModalityDetail.dump_aliases, ModalityItem.dump_aliases, dictList,
    Function.comp_def, IngestBundle.items, ModalityInfo.intervals]

end Dump

/-! ## An attempt for each modality -/

section Each

variable {α : Type}

/-- An attempt for each modality, in the order of the arrays. -/
def forEach (attempt : Modality → Except PyExc α) : Except PyExc (Modality → α) := do
  let log ← attempt .log
  let metric ← attempt .metric
  let trace ← attempt .trace
  return fun
    | .log => log
    | .metric => metric
    | .trace => trace

/-- The attempts for all modalities succeed where each of them does. -/
theorem forEach_ok_iff {attempt : Modality → Except PyExc α} {results : Modality → α} :
    forEach attempt = .ok results ↔ ∀ m, attempt m = .ok (results m) := by
  constructor
  · intro returned m
    obtain ⟨log, logged, rest⟩ := bind_ok_iff.mp returned
    obtain ⟨metric, measured, rest⟩ := bind_ok_iff.mp rest
    obtain ⟨trace, traced, same⟩ := bind_ok_iff.mp rest
    obtain rfl := Except.ok.inj same
    cases m <;> assumption
  · intro each
    rw [forEach, each, each, each]
    refine congrArg Except.ok (funext fun m => ?_)
    cases m <;> rfl

/-- They return where each of them does. -/
theorem returns_forEach_iff {attempt : Modality → Except PyExc α} :
    Returns (forEach attempt) ↔ ∀ m, Returns (attempt m) := by
  constructor
  · rintro ⟨results, returned⟩ m
    exact ⟨results m, forEach_ok_iff.mp returned m⟩
  · intro each
    choose results returned using each
    exact ⟨results, forEach_ok_iff.mpr returned⟩

end Each

/-! ## Passes over the envelope -/

/-- `to_spring_ts` of both ends of a window. -/
def WindowText.convert (window : WindowText) : Except PyExc WindowText := do
  return ⟨← toSpringTs window.start, ← toSpringTs window.stop⟩

/-- A time that may be absent. -/
def convertOption : Option PyStr → Except PyExc (Option PyStr)
  | none => .ok none
  | some ts => some <$> toSpringTs ts

/-- `to_spring_ts` of the ends that an interval has. -/
def IntervalText.convert (interval : IntervalText) : Except PyExc IntervalText := do
  let start ← convertOption interval.start
  let stop ← convertOption interval.stop
  return { interval with start, stop }

/-- `to_spring_ts` of the time of a signal. -/
def Signal.convert (signal : Signal) : Except PyExc Signal := do
  return { signal with timestamp := ← toSpringTs signal.timestamp }

/-- All times of the envelope in the form for Spring. -/
def Envelope.convert (envelope : Envelope) : Except PyExc Envelope := do
  let window ← envelope.window.convert
  let triggerTime ← toSpringTs envelope.triggerTime
  let signals ← forEach fun m => (envelope.signals m).mapM Signal.convert
  let intervals ← forEach fun m => (envelope.intervals m).mapM IntervalText.convert
  return { envelope with window, triggerTime, signals, intervals }

section Times

/-- A pass over the dictionaries of some values is a pass over the values. -/
theorem mapM_entries {α : Type} {entries : α → Dict} {inside : Dict → Except PyExc Dict}
    {step : α → Except PyExc α} (refines : ∀ value, inside (entries value) = entries <$> step value)
    (values : List α) :
    (values.map entries).mapM inside = (List.map entries) <$> values.mapM step := by
  induction values with
  | nil => rfl
  | cons value rest inductionHypothesis =>
    simp only [List.map_cons, List.mapM_cons, refines, inductionHypothesis, bind_map_left,
      map_bind, bind_pure_comp, Functor.map_map]

/-- The objects under a key that holds a list of them. -/
theorem items_dictList {α : Type} {entries : α → Dict} {d : Dict} {key : PyStr} {values : List α}
    (present : d.get key = dictList entries values) : Dict.items d key = values.map entries := by
  simp [Dict.items, present, dictList]

/-- Where a rewriting of entries is that of a step on values, rewriting the list under a key is
taking the step on each value. -/
theorem updateItemsM_entries {α : Type} {entries : α → Dict} {inside : Dict → Except PyExc Dict}
    {step : α → Except PyExc α} (refines : ∀ value, inside (entries value) = entries <$> step value)
    {d : Dict} {key : PyStr} {values : List α} (present : d.get key = dictList entries values) :
    Dict.updateItemsM d key inside =
      (fun updated => d.set key (dictList entries updated)) <$> values.mapM step := by
  rw [Dict.updateItemsM, items_dictList present, present, dictList]
  simp [mapM_entries refines, dictList, Function.comp_def]

/-- Rewriting the object under a key. -/
theorem updateM_dict {d inner : Dict} {key : PyStr} (present : d.get key = .dict inner)
    (inside : Dict → Except PyExc Dict) :
    Dict.updateM d key inside = (fun updated => d.set key (.dict updated)) <$> inside inner := by
  simp [Dict.updateM, present]

/-- Rewriting the time under a key. -/
theorem rewriteTime_str {d : Dict} {key ts : PyStr} (present : d.get key = .str ts) :
    rewriteTime d key = (fun converted => d.set key (.str converted)) <$> toSpringTs ts := by
  simp [rewriteTime, present]

/-- A time field of a dictionary that is written with a value for it. -/
theorem rewriteTime_option {key : PyStr} (write : Option PyStr → Dict)
    (present : ∀ ts, (write ts).get key = dumpOption .str ts)
    (assigned : ∀ ts text, (write ts).set key (.str text) = write (some text))
    (ts : Option PyStr) : rewriteTime (write ts) key = write <$> convertOption ts := by
  cases ts with
  | none =>
    rw [rewriteTime, present]
    rfl
  | some text =>
    rw [rewriteTime_str (present (some text))]
    simp [convertOption, assigned]

/-- The rewriting of a window is its conversion. -/
theorem rewriteSpan_window (window : WindowText) :
    rewriteSpan window.entries = WindowText.entries <$> window.convert := by
  have first : rewriteTime window.entries (py "start") =
      (fun start => { window with start }.entries) <$> toSpringTs window.start := by
    rw [rewriteTime_str rfl]
    simp [WindowText.entries, Dict.set]
  have second (window : WindowText) : rewriteTime window.entries (py "end") =
      (fun stop => { window with stop }.entries) <$> toSpringTs window.stop := by
    have present : Dict.get window.entries (py "end") = .str window.stop := by
      simp [WindowText.entries, Dict.get, Dict.lookup_cons]
    rw [rewriteTime_str present]
    simp [WindowText.entries, Dict.set]
  simp [rewriteSpan, first, second, WindowText.convert]

/-- The rewriting of an interval is its conversion. -/
theorem rewriteSpan_interval (interval : IntervalText) :
    rewriteSpan interval.entries = IntervalText.entries <$> interval.convert := by
  have first : rewriteTime interval.entries (py "start") =
      (fun start => { interval with start }.entries) <$> convertOption interval.start := by
    refine rewriteTime_option (fun start => IntervalText.entries { interval with start }) ?_ ?_ _
    · simp [IntervalText.entries, Dict.get, Dict.lookup_cons]
    · simp [IntervalText.entries, Dict.set, dumpOption]
  have second (interval : IntervalText) : rewriteTime interval.entries (py "end") =
      (fun stop => { interval with stop }.entries) <$> convertOption interval.stop := by
    refine rewriteTime_option (fun stop => IntervalText.entries { interval with stop }) ?_ ?_ _
    · simp [IntervalText.entries, Dict.get, Dict.lookup_cons]
    · simp [IntervalText.entries, Dict.set, dumpOption]
  simp [rewriteSpan, first, second, IntervalText.convert]

/-- The rewriting of an item is the conversion of its signal. -/
theorem rewriteTime_signal (signal : Signal) :
    rewriteTime signal.item (py "timestamp") = Signal.item <$> signal.convert := by
  rw [rewriteTime_str rfl]
  simp [Signal.convert, Signal.item, Dict.set]

/-- The rewriting of all intervals is the conversion of each. -/
theorem rewriteIntervals_info (intervals : Modality → List IntervalText) :
    rewriteIntervals (Envelope.infoEntries intervals) =
      Envelope.infoEntries <$> forEach fun m => (intervals m).mapM IntervalText.convert := by
  have inside (intervals : List IntervalText) :
      Dict.updateItemsM (intervalEntries intervals) (py "intervals") rewriteSpan =
        intervalEntries <$> intervals.mapM IntervalText.convert := by
    rw [updateItemsM_entries rewriteSpan_interval rfl]
    simp only [intervalEntries, Dict.set, if_true]
    rfl
  simp [rewriteIntervals, Envelope.infoEntries, inside, forEach]

end Times

/-! ## Passes over a payload -/

/-- The key of the array of a modality. -/
def Modality.payloadKey : Modality → PyStr
  | .log => py "logs"
  | .metric => py "metrics"
  | .trace => py "traces"

namespace Envelope

variable (envelope : Envelope) (behind : Dict)

/-- The window in a payload. -/
theorem get_window : Dict.get (envelope.entries behind) (py "window") =
    .dict envelope.window.entries := by
  simp [entries, Dict.get, Dict.lookup_cons]

/-- The trigger in a payload. -/
theorem get_triggerInfo : Dict.get (envelope.entries behind) (py "triggerInfo") =
    .dict envelope.triggerEntries := by
  simp [entries, Dict.get, Dict.lookup_cons]

/-- The intervals in a payload. -/
theorem get_modalityInfo : Dict.get (envelope.entries behind) (py "modalityInfo") =
    .dict (infoEntries envelope.intervals) := by
  simp [entries, Dict.get, Dict.lookup_cons]

/-- The signals of a modality in a payload. -/
theorem get_signals (m : Modality) : Dict.get (envelope.entries behind) m.payloadKey =
    dictList Signal.item (envelope.signals m) := by
  cases m <;> simp [entries, Modality.payloadKey, Dict.get, Dict.lookup_cons]

/-- Setting the window of a payload. -/
theorem set_window (window : WindowText) :
    Dict.set (envelope.entries behind) (py "window") (.dict window.entries) =
      { envelope with window }.entries behind := by
  simp [entries, Dict.set, triggerEntries]

/-- Setting the trigger time of a payload. -/
theorem set_triggerTime (triggerTime : PyStr) :
    Dict.set (envelope.entries behind) (py "triggerInfo")
        (.dict (Dict.set envelope.triggerEntries (py "triggerTime") (.str triggerTime))) =
      { envelope with triggerTime }.entries behind := by
  simp [entries, Dict.set, triggerEntries]

/-- Setting the intervals of a payload. -/
theorem set_modalityInfo (intervals : Modality → List IntervalText) :
    Dict.set (envelope.entries behind) (py "modalityInfo") (.dict (infoEntries intervals)) =
      { envelope with intervals }.entries behind := by
  simp [entries, Dict.set, triggerEntries]

/-- Setting the signals of a modality of a payload. -/
theorem set_signals (m : Modality) (signals : List Signal) :
    Dict.set (envelope.entries behind) m.payloadKey (dictList Signal.item signals) =
      { envelope with signals := Function.update envelope.signals m signals }.entries behind := by
  cases m <;> simp [entries, Modality.payloadKey, Dict.set, triggerEntries]

/-- What is behind the envelope is read and written behind it. -/
theorem get_behind {key : PyStr} (other : key ∉ (envelope.entries []).map Prod.fst) :
    Dict.get (envelope.entries behind) key = Dict.get behind key := by
  simp only [entries, List.map_cons, List.map_nil, List.mem_cons, List.not_mem_nil, or_false,
    not_or] at other
  simp [entries, Dict.get, Dict.lookup_cons, other]

/-- Another key is set behind the envelope. -/
theorem set_behind {key : PyStr} (other : key ∉ (envelope.entries []).map Prod.fst)
    (value : Json) : Dict.set (envelope.entries behind) key value =
      envelope.entries (Dict.set behind key value) := by
  simp only [entries, List.map_cons, List.map_nil, List.mem_cons, List.not_mem_nil, or_false,
    not_or, eq_comm (a := key)] at other
  simp [entries, Dict.set, other]

/-- A pass over the three arrays. -/
theorem foldlM_signals (pass : Dict → PyStr × Modality → Except PyExc Dict)
    (step : Modality → List Signal → Except PyExc (List Signal))
    (refines : ∀ (envelope : Envelope) m, pass (envelope.entries behind) (m.payloadKey, m) =
      (fun signals => Dict.set (envelope.entries behind) m.payloadKey
        (dictList Signal.item signals)) <$> step m (envelope.signals m)) :
    payloadKeys.foldlM pass (envelope.entries behind) =
      (fun signals => { envelope with signals }.entries behind) <$>
        forEach fun m => step m (envelope.signals m) := by
  have keys : payloadKeys = [Modality.log, .metric, .trace].map fun m => (m.payloadKey, m) := rfl
  simp only [keys, List.map_cons, List.map_nil, List.foldlM_cons, List.foldlM_nil, refines,
    set_signals, bind_map_left, bind_pure_comp, Functor.map_map, forEach, map_bind]
  -- an updated array is read by no later step, and the envelope is made of the three arrays
  simp [Function.update, entries, triggerEntries]

/-- The pass over the times. -/
theorem normalizeTimestamps_entries : normalizeTimestamps (envelope.entries behind) =
    (fun converted => converted.entries behind) <$> envelope.convert := by
  have window (envelope : Envelope) :
      Dict.updateM (envelope.entries behind) (py "window") rewriteSpan =
        (fun window => { envelope with window }.entries behind) <$> envelope.window.convert := by
    rw [updateM_dict (get_window envelope behind), rewriteSpan_window]
    simp [set_window]
  have trigger (envelope : Envelope) :
      Dict.updateM (envelope.entries behind) (py "triggerInfo") (fun trigger =>
          rewriteTime trigger (py "triggerTime")) =
        (fun triggerTime => { envelope with triggerTime }.entries behind) <$>
          toSpringTs envelope.triggerTime := by
    rw [updateM_dict (get_triggerInfo envelope behind), rewriteTime_str rfl]
    simp [set_triggerTime]
  have signals (envelope : Envelope) := foldlM_signals envelope behind
    (fun payload entry =>
      Dict.updateItemsM payload entry.1 fun item => rewriteTime item (py "timestamp"))
    (fun _ => List.mapM Signal.convert) fun envelope m =>
      updateItemsM_entries rewriteTime_signal (get_signals envelope behind m)
  have intervals (envelope : Envelope) :
      Dict.updateM (envelope.entries behind) (py "modalityInfo") rewriteIntervals =
        (fun intervals => { envelope with intervals }.entries behind) <$>
          forEach fun m => (envelope.intervals m).mapM IntervalText.convert := by
    rw [updateM_dict (get_modalityInfo envelope behind), rewriteIntervals_info]
    simp [set_modalityInfo]
  simp [normalizeTimestamps, window, trigger, signals, intervals, convert]

end Envelope

/-! ## Selection and raw lines -/

variable (F : Type) [PyFloat F] [PyRuntime]

/-- The signals of an array that are selected. -/
def keptSignals [Drain] (m : Modality) (signals : List Signal) (triggerTime : PyStr) (cap : Nat) :
    Except PyExc (List Signal) :=
  if signals.length ≤ cap then .ok signals
  else do
    let picked ← pickedPositions F m signals triggerTime cap
    return picked.filterMap fun i => signals[i]?

/-- Selecting from the items of a payload is selecting from its signals. -/
theorem selectSignals_items [Drain] (m : Modality) (signals : List Signal) (triggerTime : PyStr)
    (cap : Nat) :
    selectSignals F m (signals.map Signal.item) triggerTime cap =
      (fun kept => ⟨kept.map Signal.item, signals.length⟩) <$>
        keptSignals F m signals triggerTime cap := by
  have read : (signals.map Signal.item).map signalOf = signals := by
    simp [Function.comp_def]
  have places (picked : List Nat) :
      picked.filterMap (fun i => (signals.map Signal.item)[i]?) =
        (picked.filterMap fun i => signals[i]?).map Signal.item := by
    simp [List.map_filterMap]
  rw [selectSignals, keptSignals, read, List.length_map]
  simp only [Int.ofNat_le, places]
  split <;> simp

/-- The selections with the totals of the bundle. -/
def coverage (totals : Modality → Nat) (kept : Modality → List Signal) :
    List (Modality × Selection) :=
  [Modality.log, .metric, .trace].map fun m => (m, ⟨(kept m).map Signal.item, totals m⟩)

/-- `apply_selection` keeps the selected signals of each modality in the payload. -/
theorem applySelection_entries [Drain] (envelope : Envelope) (behind : Dict)
    (triggerTime : PyStr) (cap : Nat) :
    applySelection F (envelope.entries behind) triggerTime cap =
      (fun kept => ({ envelope with signals := kept }.entries behind,
          coverage (fun m => (envelope.signals m).length) kept)) <$>
        forEach fun m => keptSignals F m (envelope.signals m) triggerTime cap := by
  have keys : payloadKeys = [Modality.log, .metric, .trace].map fun m => (m.payloadKey, m) := rfl
  have selected (envelope : Envelope) (selections : List (Modality × Selection)) (m : Modality) :
      selectArray F triggerTime cap (envelope.entries behind, selections) (m.payloadKey, m) =
        (fun kept => ({ envelope with
            signals := Function.update envelope.signals m kept }.entries behind,
          selections ++ [(m, ⟨kept.map Signal.item, (envelope.signals m).length⟩)])) <$>
            keptSignals F m (envelope.signals m) triggerTime cap := by
    have written (kept : List Signal) :
        Json.list ((kept.map Signal.item).map Json.dict) = dictList Signal.item kept := by
      simp [dictList, Function.comp_def]
    rw [selectArray, items_dictList (Envelope.get_signals envelope behind m), selectSignals_items]
    simp only [bind_pure_comp, Functor.map_map, written, Envelope.set_signals]
  simp only [applySelection, keys, List.map_cons, List.map_nil, List.foldlM_cons, List.foldlM_nil,
    selected, bind_map_left, bind_pure_comp, Functor.map_map, forEach, map_bind]
  simp [Function.update, Envelope.entries, Envelope.triggerEntries, coverage]

/-- A signal whose raw text is normalized. -/
def Signal.normalize (m : Modality) (signal : Signal) : Except PyExc Signal := do
  return { signal with raw := ← normalizer F m signal.raw }

/-- Normalizing an item of a payload is normalizing its signal. -/
theorem normalizeItem_signal (m : Modality) (signal : Signal) :
    normalizeItem F m signal.item = Signal.item <$> signal.normalize F m := by
  have present : Dict.get signal.item (py "raw") = .str signal.raw := by
    simp [Signal.item, Dict.get, Dict.lookup_cons]
  rw [normalizeItem, present]
  simp [Signal.normalize, Signal.item, Dict.set]

/-- The pass over the raw lines. -/
theorem normalizePayloadSignals_entries (envelope : Envelope) (behind : Dict) :
    normalizePayloadSignals F (envelope.entries behind) =
      (fun signals => { envelope with signals }.entries behind) <$>
        forEach fun m => (envelope.signals m).mapM (Signal.normalize F m) :=
  envelope.foldlM_signals behind
    (fun payload entry => Dict.updateItemsM payload entry.1 (normalizeItem F entry.2))
    (fun m => List.mapM (Signal.normalize F m)) fun envelope m =>
      updateItemsM_entries (normalizeItem_signal F m) (envelope.get_signals behind m)

/-! ## The envelope that is sent -/

variable [Drain]

/-- The envelope of both payloads. -/
def delivered (bundle : IngestBundle) (cap : Nat) : Except PyExc Envelope := do
  let envelope := bundle.envelope
  let kept ← forEach fun m => keptSignals F m (envelope.signals m) envelope.triggerTime cap
  let converted ← { envelope with signals := kept }.convert
  let signals ← forEach fun m => (converted.signals m).mapM (Signal.normalize F m)
  return { converted with signals }

/-- The fields of a result behind the envelope. -/
def resultFields (result : RcaResult) : Dict :=
  [(py "status", .str (py "DONE")), (py "severity", .str result.severity),
    (py "result", .dict (Dict.merge [(py "type", .str result.kind), (py "service", .str result.service)]
      (result.detail.modelDump { byAlias := true, excludeNone := true })))]

/-- The fields of a failure behind the envelope. -/
def failureFields (reason : PyStr) : Dict :=
  [(py "status", .str (py "FAILED")), (py "reason", .str reason)]

/-- The result with the notes on the arrays that are sent. -/
def notedFields (bundle : IngestBundle) (envelope : Envelope) (result : RcaResult) : Dict :=
  annotateSources F (resultFields result)
    (coverage (fun m => (bundle.items m).length) envelope.signals)

omit [Drain] in
/-- The annotations stand behind the envelope. -/
theorem annotateSources_entries (envelope : Envelope) (behind : Dict)
    (selections : List (Modality × Selection)) :
    annotateSources F (envelope.entries behind) selections =
      envelope.entries (annotateSources F behind selections) := by
  have other : py "result" ∉ (envelope.entries []).map Prod.fst := by
    simp [Envelope.entries]
  have present := envelope.get_behind behind other
  rw [annotateSources, annotateSources, Dict.update, Dict.update, present]
  split
  · exact envelope.set_behind behind other _
  · rfl

omit [Drain] [PyRuntime] in
/-- The fields of a DONE report stand behind the envelope. -/
theorem set_result_fields (envelope : Envelope) (result : RcaResult) :
    (((envelope.entries []).set (py "status") (.str (py "DONE"))).set (py "severity")
      (.str result.severity)).set (py "result")
        (.dict (Dict.merge [(py "type", .str result.kind), (py "service", .str result.service)]
          (result.detail.modelDump { byAlias := true, excludeNone := true }))) =
      envelope.entries (resultFields result) := by
  simp [Envelope.entries, Dict.set, resultFields]

omit [Drain] [PyRuntime] in
/-- So do those of a FAILED report. -/
theorem set_failure_fields (envelope : Envelope) (reason : PyStr) :
    ((envelope.entries []).set (py "status") (.str (py "FAILED"))).set (py "reason") (.str reason) =
      envelope.entries (failureFields reason) := by
  simp [Envelope.entries, Dict.set, failureFields]

/-- The failure payload is the envelope with the reason. -/
theorem failurePayload_eq (bundle : IngestBundle) (reason : PyStr) (cap : Nat) :
    failurePayload F bundle reason cap =
      (fun envelope => envelope.entries (failureFields reason)) <$> delivered F bundle cap := by
  rw [failurePayload, bundleDump_eq, set_failure_fields, applySelection_entries]
  simp only [bind_map_left, Envelope.normalizeTimestamps_entries, normalizePayloadSignals_entries]
  simp [delivered, IngestBundle.envelope]

omit [Drain] [PyRuntime] [PyFloat F] in
/-- The conversion keeps the number of signals. -/
theorem Envelope.convert_lengths {envelope converted : Envelope}
    (returned : envelope.convert = .ok converted) (m : Modality) :
    (converted.signals m).length = (envelope.signals m).length := by
  obtain ⟨window, -, rest⟩ := bind_ok_iff.mp returned
  obtain ⟨triggerTime, -, rest⟩ := bind_ok_iff.mp rest
  obtain ⟨signals, each, rest⟩ := bind_ok_iff.mp rest
  obtain ⟨intervals, -, same⟩ := bind_ok_iff.mp rest
  obtain rfl := Except.ok.inj same
  exact (mapM_ok_iff.mp (forEach_ok_iff.mp each m)).length_eq.symm

omit [Drain] in
/-- The notes say only how many items there were and how many are left. -/
theorem annotateSources_lengths (behind : Dict) (totals : Modality → Nat)
    {kept sent : Modality → List Signal} (same : ∀ m, (sent m).length = (kept m).length) :
    annotateSources F behind (coverage totals kept) =
      annotateSources F behind (coverage totals sent) := by
  have source (evidence : Dict) (m : Modality) :
      annotateSource F evidence (m, ⟨(kept m).map Signal.item, totals m⟩) =
        annotateSource F evidence (m, ⟨(sent m).map Signal.item, totals m⟩) := by
    simp [annotateSource, coverageNote, Selection.truncated, same]
  simp [annotateSources, coverage, source]

/-- The result payload is the envelope with the noted result. -/
theorem resultPayload_eq (bundle : IngestBundle) (result : RcaResult) (cap : Nat) :
    resultPayload F bundle result cap =
      (fun envelope => envelope.entries (notedFields F bundle envelope result)) <$>
        delivered F bundle cap := by
  rw [resultPayload, bundleDump_eq]
  dsimp only
  rw [set_result_fields, applySelection_entries]
  simp only [bind_map_left, annotateSources_entries, Envelope.normalizeTimestamps_entries,
    normalizePayloadSignals_entries, delivered, map_bind]
  refine bind_congr_ok fun kept _ => bind_congr_ok fun converted conversion =>
    bind_congr_ok fun signals normalized => ?_
  have lengths (m : Modality) : (signals m).length = (kept m).length := by
    have rows := mapM_ok_iff.mp (forEach_ok_iff.mp normalized m)
    exact rows.length_eq.symm.trans (Envelope.convert_lengths conversion m)
  have totals : (fun m => (bundle.envelope.signals m).length) =
      fun m => (bundle.items m).length := by
    simp [IngestBundle.envelope]
  rw [annotateSources_lengths F (resultFields result) _ lengths, totals]
  rfl

end RcaBackend
