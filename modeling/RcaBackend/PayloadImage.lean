import RcaBackend.PayloadEnvelope
import RcaBackend.ReferenceInterpreter

/-!
# A payload as an image of the bundle

Every entry of a payload is made from one item of the bundle, and every time in it from
the time in the same place. The fields behind the envelope are those of the result, with a
note on each source that says how much of an array was sent.
-/

namespace RcaBackend

open Attempts

section Image

variable (F : Type) [PyFloat F] [PyRuntime]

/-! ## What is sent -/

/-- The fields of a contract row. -/
def contractKeys : Modality → List PyStr
  | .log => [py "level", py "msg"]
  | .metric => [py "label", py "value", py "threshold", py "exceeded"]
  | .trace => [py "traceId", py "from", py "to", py "duration", py "status"]

/-- The entry that is sent for an item. -/
structure SentFor (m : Modality) (item : ModalityItem) (sent : Signal) : Prop where
  timestamp : toSpringTs item.timestamp.text = .ok sent.timestamp
  service : sent.service = item.service
  raw : normalizer F m item.raw = .ok sent.raw
  /-- the raw text is an object with the fields of the contract -/
  row : ∃ row : Dict, loads sent.raw = .ok (.dict row) ∧ row.map Prod.fst = contractKeys m

omit [PyRuntime] [PyFloat F] in
/-- The text that is sent for a time; nothing is sent for an absent one. -/
def SentTime : Option Iso8601 → Option PyStr → Prop
  | none, sent => sent = none
  | some ts, sent => ∃ text, toSpringTs ts.text = .ok text ∧ sent = some text

/-- The interval that is sent for an interval. -/
structure SentInterval (interval : ModalityInterval) (sent : IntervalText) : Prop where
  fileName : sent.fileName = interval.fileName
  start : SentTime interval.start sent.start
  stop : SentTime interval.stop sent.stop
  status : sent.status = interval.status
  recordCount : sent.recordCount = interval.recordCount
  totalCount : sent.totalCount = interval.totalCount

/-- The envelope that is sent for a bundle. -/
structure SentEnvelope (bundle : IngestBundle) (cap : Nat) (envelope : Envelope) : Prop where
  bundleVersion : envelope.bundleVersion = bundle.bundleVersion
  companyCode : envelope.companyCode = bundle.companyCode
  start : toSpringTs bundle.window.start.text = .ok envelope.window.start
  stop : toSpringTs bundle.window.stop.text = .ok envelope.window.stop
  triggerTime : toSpringTs bundle.triggerInfo.triggerTime.text = .ok envelope.triggerTime
  triggeredBy : envelope.triggeredBy = bundle.triggerInfo.triggeredBy
  intervals : ∀ m, List.Forall₂ SentInterval (bundle.modalityInfo.intervals m) (envelope.intervals m)
  capped : ∀ m, (envelope.signals m).length ≤ cap
  /-- the entries are made from distinct positions of the array -/
  signals : ∀ m, ∃ places : List Nat, places.Nodup ∧
    List.Forall₂ (fun place sent => ∃ item, (bundle.items m)[place]? = some item ∧
      SentFor F m item sent) places (envelope.signals m)

/-- The options under which a result is dumped. -/
def storedOptions : DumpOptions := { byAlias := true, excludeNone := true }

/-- The dumped evidence of a modality. -/
def Evidence.node (evidence : Evidence) : Modality → Dict
  | .log => dumpFields storedOptions evidence.log.fields
  | .metric => dumpFields storedOptions evidence.metric.fields
  | .trace => dumpFields storedOptions evidence.trace.fields

def Evidence.conclusion (evidence : Evidence) : Modality → PyStr
  | .log => evidence.log.conclusion
  | .metric => evidence.metric.conclusion
  | .trace => evidence.trace.conclusion

def Evidence.source (evidence : Evidence) : Modality → Option PyStr
  | .log => evidence.log.source
  | .metric => evidence.metric.source
  | .trace => evidence.trace.source

/-- The note that so many of an array were sent. -/
def noteText (total included : Nat) : PyStr :=
  if included < total then
    py "전체 " ++ natText total ++ py "건 중 주요 " ++ natText included ++ py "건 수록"
  else py "전체 " ++ natText total ++ py "건 전량 수록"

/-- The source that is sent: a source followed by the note, or the note alone. There is no
note on an empty array. -/
def sentSource (source : Option PyStr) (total included : Nat) : Json :=
  if total = 0 then dumpOption .str source
  else if source.getD [] = [] then .str (noteText total included)
  else .str (source.getD [] ++ py " (" ++ noteText total included ++ py ")")

/-- The evidence that is sent for the evidence of a modality. -/
structure SentEvidence (evidence : Evidence) (m : Modality) (total included : Nat)
    (node : Dict) : Prop where
  conclusion : node.get (py "conclusion") = .str (evidence.conclusion m)
  source : node.get (py "source") = sentSource (evidence.source m) total included
  others : ∀ key, key ≠ py "source" → node.get key = (evidence.node m).get key

/-- The fields of a result behind the envelope, with the evidence of each modality. -/
def doneFields (result : RcaResult) (nodes : Modality → Dict) : Dict :=
  [(py "status", .str (py "DONE")), (py "severity", .str result.severity),
    (py "result", .dict
      [(py "type", .str result.kind), (py "service", .str result.service),
        (py "rca", result.detail.rca.modelDump storedOptions),
        (py "summary", result.detail.summary.modelDump storedOptions),
        (py "evidence", .dict
          [(py "log", .dict (nodes .log)), (py "trace", .dict (nodes .trace)),
            (py "metric", .dict (nodes .metric))]),
        (py "impact", result.detail.impact.modelDump storedOptions),
        (py "actions", result.detail.actions.modelDump storedOptions)])]

/-! ## Rows -/

section Rows

omit [PyFloat F] in
/-- A row with the fields of the contract is read back. -/
theorem modelDumpJson_loads (deep : 0 < PyRuntime.recursionLimit) {m : Modality} {row : Row}
    {text : PyStr} (returned : modelDumpJson row = .ok text)
    (keys : row.map Prod.fst = contractKeys m) (loadable : ∀ field ∈ row, field.2.Loadable) :
    loads text = .ok (.dict row.entries) := by
  have distinct : (contractKeys m).Nodup := by
    cases m <;> decide +kernel
  have nonempty : row ≠ [] := by
    rintro rfl
    cases m <;> simp [contractKeys] at keys
  rw [modelDumpJson] at returned
  split at returned
  · obtain rfl := Except.ok.inj returned
    exact loads_rowText deep nonempty (keys ▸ distinct) loadable
  · simp at returned

omit [PyFloat F] [PyRuntime] in
theorem entries_keys (row : Row) : row.entries.map Prod.fst = row.map Prod.fst := by
  rw [Row.entries, List.map_map]
  rfl

omit [PyFloat F] [PyRuntime] in
theorem wholeOrNone_ok {attempt : Except PyExc Int} {duration : Option Int}
    (returned : wholeOrNone attempt = .ok duration) :
    duration = none ∨ ∃ n, attempt = .ok n ∧ duration = some n := by
  revert returned
  fun_cases wholeOrNone attempt with
  | case1 n =>
    intro returned
    exact Or.inr ⟨n, rfl, (Except.ok.inj returned).symm⟩
  | case2 | case3 =>
    intro returned
    exact Or.inl (Except.ok.inj returned).symm
  | case4 => simp

variable [PyLaws F]

theorem trunc_loadable {x : F} {n : Int} (whole : PyFloat.trunc x = .ok n) :
    (RowValue.orNull .int (some n)).Loadable :=
  (PyLaws.trunc_digits x n whole).trans (by decide)

theorem wholeOrNone_loadable {attempt : Except PyExc F} {f : F → F} {duration : Option Int}
    (returned : wholeOrNone (attempt >>= fun x => PyFloat.trunc (f x)) = .ok duration) :
    (RowValue.orNull .int duration).Loadable := by
  obtain rfl | ⟨n, whole, rfl⟩ := wholeOrNone_ok returned
  · trivial
  · obtain ⟨x, -, truncated⟩ := bind_ok_iff.mp whole
    exact trunc_loadable F truncated

theorem traceDurationMs_loadable {d : Dict} {duration : Option Int}
    (returned : traceDurationMs F d = .ok duration) :
    (RowValue.orNull .int duration).Loadable := by
  rw [traceDurationMs] at returned
  split at returned
  · exact wholeOrNone_loadable F returned
  · split at returned
    · exact wholeOrNone_loadable F returned
    · split at returned
      · exact wholeOrNone_loadable F returned
      · obtain rfl := Except.ok.inj returned
        trivial

/-- The duration of a span has as many digits as a number can have. -/
theorem traceSpan_loadable {raw : PyStr} {span : TraceSpan}
    (returned : traceSpan F raw = .ok span) : (RowValue.orNull .int span.duration).Loadable := by
  obtain ⟨read, -, rest⟩ := bind_ok_iff.mp returned
  cases read with
  | some d =>
    obtain ⟨duration, measured, same⟩ := bind_ok_iff.mp rest
    obtain rfl := Except.ok.inj same
    exact traceDurationMs_loadable F measured
  | none =>
    obtain ⟨duration, measured, same⟩ := bind_ok_iff.mp rest
    obtain rfl := Except.ok.inj same
    obtain ⟨found, -, whole⟩ := bind_ok_iff.mp measured
    cases found with
    | none =>
      obtain rfl := Except.ok.inj whole
      trivial
    | some value =>
      obtain ⟨n, truncated, same⟩ := bind_ok_iff.mp whole
      obtain rfl := Except.ok.inj same
      exact trunc_loadable F truncated

omit [PyFloat F] [PyLaws F] in
/-- A reader of a sent text finds a value under a key. -/
def Shows (text key : PyStr) (value : Json) : Prop :=
  ∃ sent : Dict, loads text = .ok (.dict sent) ∧ sent.get key = value

omit [PyFloat F] [PyLaws F] in
theorem shows_unique {text key : PyStr} {value other : Json} (here : Shows text key value)
    (there : Shows text key other) : value = other := by
  obtain ⟨sent, loaded, rfl⟩ := here
  obtain ⟨again, reloaded, rfl⟩ := there
  obtain rfl : sent = again := by simpa [loaded] using reloaded
  rfl

/-- The text that is sent for a log line is an object of its fields. -/
theorem normalizeLog_loads {raw text : PyStr} (returned : normalizeLog F raw = .ok text) :
    ∃ line, logLine F raw = .ok line ∧ loads text = .ok (.dict line.row.entries) := by
  obtain ⟨line, read, dumped⟩ := bind_ok_iff.mp returned
  refine ⟨line, read, modelDumpJson_loads (PyLaws.nests F) (m := .log) dumped rfl ?_⟩
  simp [LogLine.row, RowValue.Loadable]

theorem normalizeMetric_loads {raw text : PyStr} (returned : normalizeMetric F raw = .ok text) :
    ∃ item, metricItem F raw = .ok item ∧ loads text = .ok (.dict item.row.entries) := by
  obtain ⟨item, read, dumped⟩ := bind_ok_iff.mp returned
  refine ⟨item, read, modelDumpJson_loads (PyLaws.nests F) (m := .metric) dumped rfl ?_⟩
  cases flag : item.exceeded <;>
    simp [MetricItem.row, RowValue.Loadable, RowValue.orNull, flag]

theorem normalizeTrace_loads {raw text : PyStr} (returned : normalizeTrace F raw = .ok text) :
    ∃ span, traceSpan F raw = .ok span ∧ loads text = .ok (.dict span.row.entries) := by
  obtain ⟨span, read, dumped⟩ := bind_ok_iff.mp returned
  have duration := traceSpan_loadable F read
  refine ⟨span, read, modelDumpJson_loads (PyLaws.nests F) (m := .trace) dumped rfl ?_⟩
  simpa [TraceSpan.row, RowValue.Loadable] using duration

/-- The raw text of every modality becomes an object with the fields of its contract. -/
theorem normalizer_row {m : Modality} {raw text : PyStr} (returned : normalizer F m raw = .ok text) :
    ∃ row : Dict, loads text = .ok (.dict row) ∧ row.map Prod.fst = contractKeys m := by
  cases m with
  | log =>
    obtain ⟨line, -, loaded⟩ := normalizeLog_loads F returned
    exact ⟨_, loaded, entries_keys _⟩
  | metric =>
    obtain ⟨item, -, loaded⟩ := normalizeMetric_loads F returned
    exact ⟨_, loaded, entries_keys _⟩
  | trace =>
    obtain ⟨span, -, loaded⟩ := normalizeTrace_loads F returned
    exact ⟨_, loaded, entries_keys _⟩

end Rows

/-! ## The envelope -/

/-- What is kept of an array has been taken from it and does not exceed the cap. -/
theorem keptSignals_taken [Drain] {m : Modality} {signals kept : List Signal}
    {triggerTime : PyStr} {cap : Nat}
    (returned : keptSignals F m signals triggerTime cap = .ok kept) :
    kept.length ≤ cap ∧ TakenFrom signals kept := by
  rw [keptSignals] at returned
  split at returned
  · next short =>
    obtain rfl := Except.ok.inj returned
    refine ⟨short, List.range signals.length, List.nodup_range, ?_⟩
    apply List.forall₂_of_length_eq_of_get List.length_range
    intro place inside
    simp
  · obtain ⟨picked, picking, same⟩ := bind_ok_iff.mp returned
    obtain rfl := Except.ok.inj same
    obtain ⟨inside, buckets, -, size⟩ := pickedPositions_spec picking
    obtain ⟨distinct, within⟩ := places_distinct inside
    have related := items_at within
    refine ⟨?_, picked, distinct, related⟩
    rw [← related.length_eq, size]
    exact Nat.min_le_left _ _

omit [PyRuntime] [PyFloat F] in
theorem convertOption_sent {time : Option Iso8601} {sent : Option PyStr}
    (returned : convertOption (time.map Iso8601.text) = .ok sent) : SentTime time sent := by
  cases time with
  | none => exact (Except.ok.inj returned).symm
  | some ts =>
    obtain ⟨text, converted, same⟩ := map_ok_iff.mp returned
    exact ⟨text, converted, same.symm⟩

omit [PyRuntime] [PyFloat F] in
theorem convert_interval {interval : ModalityInterval} {sent : IntervalText}
    (returned : interval.texts.convert = .ok sent) : SentInterval interval sent := by
  obtain ⟨start, first, rest⟩ := bind_ok_iff.mp returned
  obtain ⟨stop, last, same⟩ := bind_ok_iff.mp rest
  obtain rfl := Except.ok.inj same
  exact ⟨rfl, convertOption_sent first, convertOption_sent last, rfl, rfl, rfl⟩

variable [PyLaws F]

theorem sent_for {m : Modality} {item : ModalityItem} {mid sent : Signal}
    (rewriting : item.signal.convert = .ok mid) (normalizing : mid.normalize F m = .ok sent) :
    SentFor F m item sent := by
  obtain ⟨timestamp, converted, same⟩ := bind_ok_iff.mp rewriting
  obtain rfl := Except.ok.inj same
  obtain ⟨raw, normalized, same⟩ := bind_ok_iff.mp normalizing
  obtain rfl := Except.ok.inj same
  exact ⟨converted, rfl, normalized, normalizer_row F normalized⟩

variable [Drain]

/-- What is delivered is sent for the bundle. -/
theorem delivered_sent {bundle : IngestBundle} {cap : Nat} {envelope : Envelope}
    (returned : delivered F bundle cap = .ok envelope) : SentEnvelope F bundle cap envelope := by
  obtain ⟨kept, selected, rest⟩ := bind_ok_iff.mp returned
  obtain ⟨converted, conversion, rest⟩ := bind_ok_iff.mp rest
  obtain ⟨signals, normalized, same⟩ := bind_ok_iff.mp rest
  obtain rfl := Except.ok.inj same
  obtain ⟨window, windowed, rest⟩ := bind_ok_iff.mp conversion
  obtain ⟨triggerTime, triggered, rest⟩ := bind_ok_iff.mp rest
  obtain ⟨times, timed, rest⟩ := bind_ok_iff.mp rest
  obtain ⟨intervals, spanned, same⟩ := bind_ok_iff.mp rest
  obtain rfl := Except.ok.inj same
  obtain ⟨start, first, rest⟩ := bind_ok_iff.mp windowed
  obtain ⟨stop, last, same⟩ := bind_ok_iff.mp rest
  obtain rfl := Except.ok.inj same
  have taken (m : Modality) := keptSignals_taken F (forEach_ok_iff.mp selected m)
  have rewritten (m : Modality) := mapM_ok_iff.mp (forEach_ok_iff.mp timed m)
  have rows (m : Modality) := mapM_ok_iff.mp (forEach_ok_iff.mp normalized m)
  constructor
  · rfl
  · rfl
  · exact first
  · exact last
  · exact triggered
  · rfl
  · intro m
    have related := mapM_ok_iff.mp (forEach_ok_iff.mp spanned m)
    exact (List.forall₂_map_left_iff.mp related).imp fun _ _ => convert_interval
  · intro m
    have lengths := (rewritten m).length_eq.trans (rows m).length_eq
    exact lengths ▸ (taken m).1
  · intro m
    obtain ⟨-, places, distinct, related⟩ := taken m
    refine ⟨places, distinct, ?_⟩
    apply forall₂_trans _ related (forall₂_trans _ (rewritten m) (rows m))
    · exact fun signal sent => ∃ mid, signal.convert = .ok mid ∧ mid.normalize F m = .ok sent
    · rintro place signal sent found ⟨mid, rewriting, normalizing⟩
      have lifted : (bundle.items m)[place]?.map ModalityItem.signal = some signal :=
        List.getElem?_map.symm.trans found
      obtain ⟨item, stored, rfl⟩ := Option.map_eq_some_iff.mp lifted
      exact ⟨item, stored, sent_for F rewriting normalizing⟩
    · intro signal mid sent rewriting normalizing
      exact ⟨mid, rewriting, normalizing⟩

/-! ## The notes -/

section Notes

omit [PyLaws F] [PyRuntime] [PyFloat F] [Drain] in
theorem resultFields_eq (result : RcaResult) :
    resultFields result = doneFields result result.detail.evidence.node := by
  have dumped : result.detail.modelDump { byAlias := true, excludeNone := true } =
      [(py "rca", result.detail.rca.modelDump storedOptions),
        (py "summary", result.detail.summary.modelDump storedOptions),
        (py "evidence", result.detail.evidence.modelDump storedOptions),
        (py "impact", result.detail.impact.modelDump storedOptions),
        (py "actions", result.detail.actions.modelDump storedOptions)] := by
    simp [ReportDetail.modelDump, ReportDetail.fields, dumpFields, DumpOptions.drops,
      DumpOptions.key, toCamel_own, Rca.modelDump, Summary.modelDump, Evidence.modelDump,
      Impact.modelDump, Actions.modelDump, storedOptions]
  have evidence : result.detail.evidence.modelDump storedOptions =
      .dict [(py "log", .dict (result.detail.evidence.node .log)),
        (py "trace", .dict (result.detail.evidence.node .trace)),
        (py "metric", .dict (result.detail.evidence.node .metric))] := by
    simp [Evidence.modelDump, Evidence.fields, dumpFields, DumpOptions.drops, DumpOptions.key,
      toCamel_own, LogEvidence.modelDump, TraceEvidence.modelDump, Evidence.node, storedOptions]
  rw [resultFields, dumped, Dict.merge_fresh _ _ (by simp), evidence]
  rfl

/-- The node of a modality after its note. -/
def notedNode (nodes : Modality → Dict) (entry : Modality × Selection) : Modality → Dict :=
  if entry.2.total = 0 then nodes
  else Function.update nodes entry.1 ((nodes entry.1).set (py "source")
    (.str (withNote F ((nodes entry.1).get (py "source")) (coverageNote entry.2))))

omit [PyLaws F] [Drain] in
theorem annotateSource_nodes (nodes : Modality → Dict) (entry : Modality × Selection) :
    annotateSource F
        [(py "log", .dict (nodes .log)), (py "trace", .dict (nodes .trace)),
          (py "metric", .dict (nodes .metric))] entry =
      [(py "log", .dict (notedNode F nodes entry .log)),
        (py "trace", .dict (notedNode F nodes entry .trace)),
        (py "metric", .dict (notedNode F nodes entry .metric))] := by
  obtain ⟨m, selection⟩ := entry
  rw [annotateSource, notedNode]
  split
  · rfl
  · cases m <;>
      simp [Dict.update, Dict.get, Dict.lookup_cons, Dict.set, Modality.text, Function.update]

omit [PyLaws F] [Drain] in
/-- The notes change the nodes of the evidence one after the other. -/
theorem annotateSources_nodes (result : RcaResult) (nodes : Modality → Dict)
    (selections : List (Modality × Selection)) :
    annotateSources F (doneFields result nodes) selections =
      doneFields result (selections.foldl (notedNode F) nodes) := by
  have folded : selections.foldl (annotateSource F)
        [(py "log", .dict (nodes .log)), (py "trace", .dict (nodes .trace)),
          (py "metric", .dict (nodes .metric))] =
      [(py "log", .dict (selections.foldl (notedNode F) nodes .log)),
        (py "trace", .dict (selections.foldl (notedNode F) nodes .trace)),
        (py "metric", .dict (selections.foldl (notedNode F) nodes .metric))] := by
    induction selections generalizing nodes with
    | nil => rfl
    | cons entry rest inductionHypothesis =>
      rw [List.foldl_cons, annotateSource_nodes, inductionHypothesis, List.foldl_cons]
  simp [annotateSources, doneFields, Dict.update, Dict.get, Dict.lookup_cons, Dict.set, folded]

omit [PyLaws F] [Drain] in
/-- Each node gets the note of its own modality. -/
theorem coverage_nodes (nodes : Modality → Dict) (totals : Modality → Nat)
    (kept : Modality → List Signal) (m : Modality) :
    (coverage totals kept).foldl (notedNode F) nodes m =
      if totals m = 0 then nodes m
      else (nodes m).set (py "source") (.str (withNote F ((nodes m).get (py "source"))
        (noteText (totals m) (kept m).length))) := by
  have apart {a b : Modality} (selection : Selection) (other : b ≠ a) (nodes : Modality → Dict) :
      notedNode F nodes (a, selection) b = nodes b := by
    rw [notedNode]
    split
    · rfl
    · exact Function.update_of_ne other _ _
  have own (nodes : Modality → Dict) (signals : List Signal) (total : Nat) :
      notedNode F nodes (m, ⟨signals.map Signal.item, total⟩) m =
        if total = 0 then nodes m
        else (nodes m).set (py "source") (.str (withNote F ((nodes m).get (py "source"))
          (noteText total signals.length))) := by
    rw [notedNode]
    split
    · rfl
    · simp [coverageNote, Selection.truncated, noteText]
  cases m <;> simp [coverage, apart, own]

omit [PyLaws F] [PyRuntime] [PyFloat F] [Drain] in
/-- The dumped conclusion and source; an absent source is not dumped. -/
theorem node_fields (evidence : Evidence) (m : Modality) :
    (evidence.node m).get (py "conclusion") = .str (evidence.conclusion m) ∧
      (evidence.node m).get (py "source") = dumpOption .str (evidence.source m) := by
  have log (log : LogEvidence) :
      Dict.get (dumpFields storedOptions log.fields) (py "conclusion") = .str log.conclusion ∧
        Dict.get (dumpFields storedOptions log.fields) (py "source") = dumpOption .str log.source := by
    cases source : log.source <;>
      simp [LogEvidence.fields, source, dumpFields, DumpOptions.drops, DumpOptions.key,
        toCamel_own, storedOptions, dumpOption, Dict.get, Dict.lookup_cons]
  cases m with
  | log => exact log evidence.log
  | metric => exact log evidence.metric
  | trace =>
    cases source : evidence.trace.source <;> cases origin : evidence.trace.originService <;>
      simp [Evidence.node, Evidence.conclusion, Evidence.source, TraceEvidence.fields, source,
        origin, dumpFields, DumpOptions.drops, DumpOptions.key, toCamel_own, toCamel_fields,
        storedOptions, dumpOption, Dict.get, Dict.lookup_cons]

omit [PyLaws F] [Drain] in
/-- The noted evidence of each modality is what is sent for it. -/
theorem sent_evidence (evidence : Evidence) (totals : Modality → Nat)
    (kept : Modality → List Signal) (m : Modality) :
    SentEvidence evidence m (totals m) (kept m).length
      ((coverage totals kept).foldl (notedNode F) evidence.node m) := by
  obtain ⟨conclusion, source⟩ := node_fields evidence m
  rw [coverage_nodes]
  by_cases empty : totals m = 0
  · rw [if_pos empty]
    exact ⟨conclusion, by rw [source, sentSource, if_pos empty], fun _ _ => rfl⟩
  · rw [if_neg empty]
    constructor
    · rw [Dict.get_set, if_neg (by simp), conclusion]
    · rw [Dict.get_set, if_pos rfl, source, sentSource, if_neg empty]
      cases stored : evidence.source m with
      | none => simp [dumpOption, withNote, truthy]
      | some text =>
        cases text <;> simp [dumpOption, withNote, truthy, pyStr]
    · intro key other
      rw [Dict.get_set, if_neg other]

omit [PyLaws F] in
/-- A result payload has an envelope, and the result with noted sources behind it. -/
theorem resultPayload_noted {bundle : IngestBundle} {result : RcaResult} {cap : Nat}
    {payload : Dict} (returned : resultPayload F bundle result cap = .ok payload) :
    ∃ envelope nodes, delivered F bundle cap = .ok envelope ∧
      payload = envelope.entries (doneFields result nodes) ∧
      ∀ m, SentEvidence result.detail.evidence m (bundle.items m).length
        (envelope.signals m).length (nodes m) := by
  rw [resultPayload_eq] at returned
  obtain ⟨envelope, sent, rfl⟩ := map_ok_iff.mp returned
  refine ⟨envelope, _, sent, ?_, sent_evidence F result.detail.evidence
    (fun m => (bundle.items m).length) envelope.signals⟩
  rw [notedFields, resultFields_eq, annotateSources_nodes]

end Notes

/-- Both payloads are the image of the bundle under one selection. The result payload adds
the result with noted sources behind it, the failure payload the reason. -/
theorem payloads_image (bundle : IngestBundle) (result : RcaResult) (reason : PyStr) (cap : Nat) :
    (∀ done, resultPayload F bundle result cap = .ok done → ∃ envelope nodes,
      SentEnvelope F bundle cap envelope ∧
      (∀ m, SentEvidence result.detail.evidence m (bundle.items m).length
        (envelope.signals m).length (nodes m)) ∧
      done = envelope.entries (doneFields result nodes) ∧
      failurePayload F bundle reason cap = .ok (envelope.entries (failureFields reason))) ∧
    (∀ failed, failurePayload F bundle reason cap = .ok failed → ∃ envelope,
      SentEnvelope F bundle cap envelope ∧ failed = envelope.entries (failureFields reason)) := by
  constructor
  · intro done returned
    obtain ⟨envelope, nodes, sent, same, evidence⟩ := resultPayload_noted F returned
    refine ⟨envelope, nodes, delivered_sent F sent, evidence, same, ?_⟩
    rw [failurePayload_eq, sent]
    rfl
  · intro failed returned
    rw [failurePayload_eq] at returned
    obtain ⟨envelope, sent, rfl⟩ := map_ok_iff.mp returned
    exact ⟨envelope, delivered_sent F sent, rfl⟩

end Image

/-- Two lines of a log and a span. -/
def sampleBundle : IngestBundle :=
  { IngestBundle.bare Iso8601.epoch with
    logs := [⟨Iso8601.epoch, py "gateway", py "ERROR timeout"⟩, ⟨Iso8601.epoch, py "orders", py "ready"⟩]
    traces := [⟨Iso8601.epoch, py "gateway", py "GET took 12.5 ms"⟩] }

open ReferenceInterpreter in
theorem payloads_image_sample : ∃ done envelope nodes,
    @resultPayload FloatLit rangedDecimals asciiRuntime oneCluster sampleBundle
        (RcaResult.bare (py "gateway")) 1 = .ok done ∧
      @SentEnvelope FloatLit rangedDecimals asciiRuntime sampleBundle 1 envelope ∧
      done = envelope.entries (doneFields (RcaResult.bare (py "gateway")) nodes) := by
  have returns : Returns (@resultPayload FloatLit rangedDecimals asciiRuntime oneCluster
      sampleBundle (RcaResult.bare (py "gateway")) 1) := by decide +kernel
  obtain ⟨done, returned⟩ := returns
  obtain ⟨envelope, nodes, sent, -, same, -⟩ :=
    (@payloads_image FloatLit rangedDecimals asciiRuntime reference_laws oneCluster sampleBundle
      (RcaResult.bare (py "gateway")) (py "RuntimeError") 1).1 done returned
  exact ⟨done, envelope, nodes, returned, sent, same⟩

end RcaBackend
