import RcaBackend.PydanticModel
import RcaBackend.PyDatetime

/-!
# The wire contracts: `IngestBundle` and `RcaResult`

Each class has its fields in declaration order, a dump under either naming, and
validation with the class's defaults. Validation inverts the dump of every
class under all options in use: nothing a bundle or a result carries is lost or
altered by storing its dump and reading it back, whether the keys are field
names or aliases and whether absent values are written or left out.
-/

namespace RcaBackend

/-- A modality, as `triggered_by` spells it. -/
inductive Modality where
  | log | metric | trace
deriving DecidableEq, Repr

namespace Modality

/-- How `triggered_by` spells a modality. -/
def text : Modality → PyStr
  | .log => py "log"
  | .metric => py "metric"
  | .trace => py "trace"

/-- `Literal["log", "metric", "trace"]`. -/
def validate : Json → Except PyExc Modality
  | .str text =>
    if text = py "log" then .ok .log
    else if text = py "metric" then .ok .metric
    else if text = py "trace" then .ok .trace
    else .error .validationError
  | _ => .error .validationError

/-- Validation reads a modality as it is spelled. -/
theorem validate_text (m : Modality) : validate (.str m.text) = .ok m := by
  cases m <;> simp [validate, text]

end Modality

/-- `Iso8601`: a string checked by `fromisoformat` and kept as it is. -/
def Iso8601.validate : Json → Except PyExc Iso8601
  | .str text =>
    if accepted : (DateTime.fromisoformat text).isSome then .ok ⟨text, accepted⟩
    else .error .validationError
  | _ => .error .validationError

/-- A timestamp that was accepted is accepted again, as the same text. -/
theorem Iso8601.validate_text (ts : Iso8601) : Iso8601.validate (.str ts.text) = .ok ts := by
  simp [Iso8601.validate]

/-- A string field takes a string as it is. -/
theorem strValue_str (text : PyStr) : strValue (.str text) = .ok text := rfl

/-- An integer field takes an integer as it is. -/
theorem intValue_int [LaxInt] (n : Int) : intValue (.int n) = .ok n := rfl

/-! ## The bundle -/

/-- A log line, a metric sample or a span, as it was collected. -/
structure ModalityItem where
  timestamp : Iso8601
  service : PyStr
  raw : PyStr
deriving DecidableEq

namespace ModalityItem

/-- The fields of `ModalityItem`, in declaration order. -/
def fields (item : ModalityItem) : List (String × Json) :=
  [("timestamp", .str item.timestamp.text), ("service", .str item.service),
    ("raw", .str item.raw)]

/-- `ModalityItem.model_dump` -/
def modelDump (o : DumpOptions) (item : ModalityItem) : Json := .dict (dumpFields o item.fields)

/-- `ModalityItem.model_validate` -/
def modelValidate (value : Json) : Except PyExc ModalityItem := do
  let d ← asDict value
  let timestamp ← required d "timestamp" Iso8601.validate
  let service ← fieldOr d "service" strValue []
  let raw ← required d "raw" strValue
  return { timestamp, service, raw }

/-- Validating the dump of an item gives it back. -/
theorem modelValidate_dump (o : DumpOptions) (item : ModalityItem) :
    modelValidate (item.modelDump o) = .ok item := by
  have named : WellNamed (item.fields.map Prod.fst) := by
    show WellNamed ["timestamp", "service", "raw"]
    decide
  simp only [modelDump, modelValidate, asDict, bind, Except.bind,
    required_dump o item.fields "timestamp" _ _ named rfl (by simp),
    fieldOr_dump o item.fields "service" _ _ _ named rfl (by simp),
    required_dump o item.fields "raw" _ _ named rfl (by simp),
    Iso8601.validate_text, strValue_str]
  rfl

end ModalityItem

/-- The time range of a bundle. -/
structure Window where
  start : Iso8601
  stop : Iso8601
deriving DecidableEq

namespace Window

/-- The fields of `Window`, in declaration order. -/
def fields (window : Window) : List (String × Json) :=
  [("start", .str window.start.text), ("end", .str window.stop.text)]

/-- `Window.model_dump` -/
def modelDump (o : DumpOptions) (window : Window) : Json := .dict (dumpFields o window.fields)

/-- `Window.model_validate` -/
def modelValidate (value : Json) : Except PyExc Window := do
  let d ← asDict value
  let start ← required d "start" Iso8601.validate
  let stop ← required d "end" Iso8601.validate
  return { start, stop }

/-- Validating the dump of a window gives it back. -/
theorem modelValidate_dump (o : DumpOptions) (window : Window) :
    modelValidate (window.modelDump o) = .ok window := by
  have named : WellNamed (window.fields.map Prod.fst) := by
    show WellNamed ["start", "end"]
    decide
  simp only [modelDump, modelValidate, asDict, bind, Except.bind,
    required_dump o window.fields "start" _ _ named rfl (by simp),
    required_dump o window.fields "end" _ _ named rfl (by simp), Iso8601.validate_text]
  rfl

end Window

/-- When the detection fired, and on which modalities. -/
structure TriggerInfo where
  triggerTime : Iso8601
  triggeredBy : List Modality
deriving DecidableEq

namespace TriggerInfo

/-- The fields of `TriggerInfo`, in declaration order. -/
def fields (trigger : TriggerInfo) : List (String × Json) :=
  [("trigger_time", .str trigger.triggerTime.text),
    ("triggered_by", .list (trigger.triggeredBy.map fun m => .str m.text))]

/-- `TriggerInfo.model_dump` -/
def modelDump (o : DumpOptions) (trigger : TriggerInfo) : Json :=
  .dict (dumpFields o trigger.fields)

/-- `TriggerInfo.model_validate` -/
def modelValidate (value : Json) : Except PyExc TriggerInfo := do
  let d ← asDict value
  let triggerTime ← required d "trigger_time" Iso8601.validate
  let triggeredBy ← fieldOr d "triggered_by" (listValue Modality.validate) []
  return { triggerTime, triggeredBy }

/-- Validating the dump of a trigger gives it back. -/
theorem modelValidate_dump (o : DumpOptions) (trigger : TriggerInfo) :
    modelValidate (trigger.modelDump o) = .ok trigger := by
  have named : WellNamed (trigger.fields.map Prod.fst) := by
    show WellNamed ["trigger_time", "triggered_by"]
    decide
  simp only [modelDump, modelValidate, asDict, bind, Except.bind,
    required_dump o trigger.fields "trigger_time" _ _ named rfl (by simp),
    fieldOr_dump o trigger.fields "triggered_by" _ _ _ named rfl (by simp),
    Iso8601.validate_text, listValue_map _ (fun m : Modality => Json.str m.text)
      Modality.validate_text]
  rfl

end TriggerInfo

/-- One file and one time range: whether it has records, how many the bundle holds of them, and
how many there were. -/
structure ModalityInterval where
  fileName : PyStr
  start : Option Iso8601
  stop : Option Iso8601
  status : Option PyStr
  recordCount : Option Int
  totalCount : Option Int
deriving DecidableEq

namespace ModalityInterval

variable [LaxInt]

/-- The fields of `ModalityInterval`, in declaration order. -/
def fields (interval : ModalityInterval) : List (String × Json) :=
  [("fileName", .str interval.fileName),
    ("start", dumpOption (fun ts : Iso8601 => .str ts.text) interval.start),
    ("end", dumpOption (fun ts : Iso8601 => .str ts.text) interval.stop),
    ("status", dumpOption .str interval.status),
    ("record_count", dumpOption .int interval.recordCount),
    ("total_count", dumpOption .int interval.totalCount)]

/-- `ModalityInterval.model_dump` -/
def modelDump (o : DumpOptions) (interval : ModalityInterval) : Json :=
  .dict (dumpFields o interval.fields)

/-- `ModalityInterval.model_validate` -/
def modelValidate (value : Json) : Except PyExc ModalityInterval := do
  let d ← asDict value
  let fileName ← fieldOr d "fileName" strValue []
  let start ← fieldOr d "start" (optionValue Iso8601.validate) none
  let stop ← fieldOr d "end" (optionValue Iso8601.validate) none
  let status ← fieldOr d "status" (optionValue strValue) none
  let recordCount ← fieldOr d "record_count" (optionValue intValue) none
  let totalCount ← fieldOr d "total_count" (optionValue intValue) none
  return { fileName, start, stop, status, recordCount, totalCount }

/-- Validating the dump of an interval gives it back. -/
theorem modelValidate_dump (o : DumpOptions) (interval : ModalityInterval) :
    modelValidate (interval.modelDump o) = .ok interval := by
  have named : WellNamed (interval.fields.map Prod.fst) := by
    show WellNamed ["fileName", "start", "end", "status", "record_count", "total_count"]
    decide
  simp only [modelDump, modelValidate, asDict, bind, Except.bind,
    fieldOr_dump o interval.fields "fileName" _ _ _ named rfl (by simp),
    optionField_dump o interval.fields "start" Iso8601.validate _ _ named rfl
      Iso8601.validate_text (by simp),
    optionField_dump o interval.fields "end" Iso8601.validate _ _ named rfl
      Iso8601.validate_text (by simp),
    optionField_dump o interval.fields "status" strValue _ _ named rfl strValue_str (by simp),
    optionField_dump o interval.fields "record_count" intValue _ _ named rfl intValue_int (by simp),
    optionField_dump o interval.fields "total_count" intValue _ _ named rfl intValue_int (by simp),
    strValue_str]
  rfl

end ModalityInterval

/-- The intervals of a modality. -/
structure ModalityDetail where
  intervals : List ModalityInterval
deriving DecidableEq

namespace ModalityDetail

variable [LaxInt]

/-- `default_factory=ModalityDetail`. -/
def empty : ModalityDetail := { intervals := [] }

/-- The fields of `ModalityDetail`, in declaration order. -/
def fields (o : DumpOptions) (detail : ModalityDetail) : List (String × Json) :=
  [("intervals", .list (detail.intervals.map (ModalityInterval.modelDump o)))]

/-- `ModalityDetail.model_dump` -/
def modelDump (o : DumpOptions) (detail : ModalityDetail) : Json :=
  .dict (dumpFields o (detail.fields o))

/-- `ModalityDetail.model_validate` -/
def modelValidate (value : Json) : Except PyExc ModalityDetail := do
  let d ← asDict value
  let intervals ← fieldOr d "intervals" (listValue ModalityInterval.modelValidate) []
  return { intervals }

/-- Validating the dump of a detail gives it back. -/
theorem modelValidate_dump (o : DumpOptions) (detail : ModalityDetail) :
    modelValidate (detail.modelDump o) = .ok detail := by
  have named : WellNamed ((detail.fields o).map Prod.fst) := by
    show WellNamed ["intervals"]
    decide
  simp only [modelDump, modelValidate, asDict, bind, Except.bind,
    fieldOr_dump o (detail.fields o) "intervals" _ _ _ named rfl (by simp),
    listValue_map _ _ (ModalityInterval.modelValidate_dump o)]
  rfl

end ModalityDetail

/-- The files and time ranges that were collected, for each modality. -/
structure ModalityInfo where
  log : ModalityDetail
  metric : ModalityDetail
  trace : ModalityDetail
deriving DecidableEq

namespace ModalityInfo

variable [LaxInt]

/-- `default_factory=ModalityInfo`. -/
def empty : ModalityInfo := ⟨.empty, .empty, .empty⟩

/-- The fields of `ModalityInfo`, in declaration order. -/
def fields (o : DumpOptions) (info : ModalityInfo) : List (String × Json) :=
  [("log", info.log.modelDump o), ("metric", info.metric.modelDump o),
    ("trace", info.trace.modelDump o)]

/-- `ModalityInfo.model_dump` -/
def modelDump (o : DumpOptions) (info : ModalityInfo) : Json :=
  .dict (dumpFields o (info.fields o))

/-- `ModalityInfo.model_validate` -/
def modelValidate (value : Json) : Except PyExc ModalityInfo := do
  let d ← asDict value
  let log ← fieldOr d "log" ModalityDetail.modelValidate .empty
  let metric ← fieldOr d "metric" ModalityDetail.modelValidate .empty
  let trace ← fieldOr d "trace" ModalityDetail.modelValidate .empty
  return { log, metric, trace }

/-- Validating the dump of an info gives it back. -/
theorem modelValidate_dump (o : DumpOptions) (info : ModalityInfo) :
    modelValidate (info.modelDump o) = .ok info := by
  have named : WellNamed ((info.fields o).map Prod.fst) := by
    show WellNamed ["log", "metric", "trace"]
    decide
  simp only [modelDump, modelValidate, asDict, bind, Except.bind,
    fieldOr_dump o (info.fields o) "log" _ _ _ named rfl (by simp [ModalityDetail.modelDump]),
    fieldOr_dump o (info.fields o) "metric" _ _ _ named rfl (by simp [ModalityDetail.modelDump]),
    fieldOr_dump o (info.fields o) "trace" _ _ _ named rfl (by simp [ModalityDetail.modelDump]),
    ModalityDetail.modelValidate_dump]
  rfl

end ModalityInfo

/-- What the collector sends, and what all agents are given. -/
structure IngestBundle where
  bundleVersion : PyStr
  companyCode : PyStr
  window : Window
  triggerInfo : TriggerInfo
  modalityInfo : ModalityInfo
  logs : List ModalityItem
  metrics : List ModalityItem
  traces : List ModalityItem
deriving DecidableEq

namespace IngestBundle

variable [LaxInt]

/-- The fields that stay in the row; the three arrays follow them. -/
def lightFields (o : DumpOptions) (bundle : IngestBundle) : List (String × Json) :=
  [("bundle_version", .str bundle.bundleVersion), ("company_code", .str bundle.companyCode),
    ("window", bundle.window.modelDump o), ("trigger_info", bundle.triggerInfo.modelDump o),
    ("modality_info", bundle.modalityInfo.modelDump o)]

/-- The three heavy arrays. -/
def signalFields (o : DumpOptions) (bundle : IngestBundle) : List (String × Json) :=
  [("logs", .list (bundle.logs.map (ModalityItem.modelDump o))),
    ("metrics", .list (bundle.metrics.map (ModalityItem.modelDump o))),
    ("traces", .list (bundle.traces.map (ModalityItem.modelDump o)))]

/-- The fields of `IngestBundle`, in declaration order. -/
def fields (o : DumpOptions) (bundle : IngestBundle) : List (String × Json) :=
  bundle.lightFields o ++ bundle.signalFields o

/-- `IngestBundle.model_dump` -/
def modelDump (o : DumpOptions) (bundle : IngestBundle) : Dict := dumpFields o (bundle.fields o)

/-- `IngestBundle.model_validate` -/
def modelValidate (value : Json) : Except PyExc IngestBundle := do
  let d ← asDict value
  let bundleVersion ← fieldOr d "bundle_version" strValue (py "1.0")
  let companyCode ← fieldOr d "company_code" strValue (py "SN001")
  let window ← required d "window" Window.modelValidate
  let triggerInfo ← required d "trigger_info" TriggerInfo.modelValidate
  let modalityInfo ← fieldOr d "modality_info" ModalityInfo.modelValidate .empty
  let logs ← fieldOr d "logs" (listValue ModalityItem.modelValidate) []
  let metrics ← fieldOr d "metrics" (listValue ModalityItem.modelValidate) []
  let traces ← fieldOr d "traces" (listValue ModalityItem.modelValidate) []
  return { bundleVersion, companyCode, window, triggerInfo, modalityInfo, logs, metrics, traces }

/-- Validating the dump of a bundle gives it back. -/
theorem modelValidate_dump (o : DumpOptions) (bundle : IngestBundle) :
    modelValidate (.dict (bundle.modelDump o)) = .ok bundle := by
  have named : WellNamed ((bundle.fields o).map Prod.fst) := by
    show WellNamed ["bundle_version", "company_code", "window", "trigger_info", "modality_info",
      "logs", "metrics", "traces"]
    decide
  simp only [modelDump, modelValidate, asDict, bind, Except.bind,
    fieldOr_dump o (bundle.fields o) "bundle_version" _ _ _ named rfl (by simp),
    fieldOr_dump o (bundle.fields o) "company_code" _ _ _ named rfl (by simp),
    required_dump o (bundle.fields o) "window" _ _ named rfl (by simp [Window.modelDump]),
    required_dump o (bundle.fields o) "trigger_info" _ _ named rfl (by simp [TriggerInfo.modelDump]),
    fieldOr_dump o (bundle.fields o) "modality_info" _ _ _ named rfl
      (by simp [ModalityInfo.modelDump]),
    fieldOr_dump o (bundle.fields o) "logs" _ _ _ named rfl (by simp),
    fieldOr_dump o (bundle.fields o) "metrics" _ _ _ named rfl (by simp),
    fieldOr_dump o (bundle.fields o) "traces" _ _ _ named rfl (by simp),
    strValue_str, Window.modelValidate_dump, TriggerInfo.modelValidate_dump,
    ModalityInfo.modelValidate_dump, listValue_map _ _ (ModalityItem.modelValidate_dump o)]
  rfl

/-- A bundle with its required fields only, all at one time. -/
def bare (time : Iso8601) : IngestBundle :=
  { bundleVersion := py "1.0", companyCode := py "SN001", window := ⟨time, time⟩,
    triggerInfo := ⟨time, []⟩, modalityInfo := .empty, logs := [], metrics := [], traces := [] }

end IngestBundle

/-! ## The result -/

/-- What the log agent concludes; the metric agent's evidence has the same fields. -/
structure LogEvidence where
  conclusion : PyStr
  source : Option PyStr
deriving DecidableEq

namespace LogEvidence

/-- The fields of `LogEvidence`, in declaration order. -/
def fields (evidence : LogEvidence) : List (String × Json) :=
  [("conclusion", .str evidence.conclusion), ("source", dumpOption .str evidence.source)]

/-- `LogEvidence.model_dump` -/
def modelDump (o : DumpOptions) (evidence : LogEvidence) : Json :=
  .dict (dumpFields o evidence.fields)

/-- `LogEvidence.model_validate` -/
def modelValidate (value : Json) : Except PyExc LogEvidence := do
  let d ← asDict value
  let conclusion ← required d "conclusion" strValue
  let source ← fieldOr d "source" (optionValue strValue) none
  return { conclusion, source }

/-- Validating the dump gives the evidence back. -/
theorem modelValidate_dump (o : DumpOptions) (evidence : LogEvidence) :
    modelValidate (evidence.modelDump o) = .ok evidence := by
  have named : WellNamed (evidence.fields.map Prod.fst) := by
    show WellNamed ["conclusion", "source"]
    decide
  simp only [modelDump, modelValidate, asDict, bind, Except.bind,
    required_dump o evidence.fields "conclusion" _ _ named rfl (by simp),
    optionField_dump o evidence.fields "source" strValue _ _ named rfl strValue_str (by simp),
    strValue_str]
  rfl

end LogEvidence

/-- `MetricEvidence` declares the same fields as `LogEvidence`. -/
abbrev MetricEvidence := LogEvidence

/-- What the trace agent concludes, with the service where it began. -/
structure TraceEvidence where
  conclusion : PyStr
  source : Option PyStr
  originService : Option PyStr
deriving DecidableEq

namespace TraceEvidence

/-- The fields of `TraceEvidence`, in declaration order. -/
def fields (evidence : TraceEvidence) : List (String × Json) :=
  [("conclusion", .str evidence.conclusion), ("source", dumpOption .str evidence.source),
    ("origin_service", dumpOption .str evidence.originService)]

/-- `TraceEvidence.model_dump` -/
def modelDump (o : DumpOptions) (evidence : TraceEvidence) : Json :=
  .dict (dumpFields o evidence.fields)

/-- `TraceEvidence.model_validate` -/
def modelValidate (value : Json) : Except PyExc TraceEvidence := do
  let d ← asDict value
  let conclusion ← required d "conclusion" strValue
  let source ← fieldOr d "source" (optionValue strValue) none
  let originService ← fieldOr d "origin_service" (optionValue strValue) none
  return { conclusion, source, originService }

/-- Validating the dump gives the evidence back. -/
theorem modelValidate_dump (o : DumpOptions) (evidence : TraceEvidence) :
    modelValidate (evidence.modelDump o) = .ok evidence := by
  have named : WellNamed (evidence.fields.map Prod.fst) := by
    show WellNamed ["conclusion", "source", "origin_service"]
    decide
  simp only [modelDump, modelValidate, asDict, bind, Except.bind,
    required_dump o evidence.fields "conclusion" _ _ named rfl (by simp),
    optionField_dump o evidence.fields "source" strValue _ _ named rfl strValue_str (by simp),
    optionField_dump o evidence.fields "origin_service" strValue _ _ named rfl strValue_str
      (by simp), strValue_str]
  rfl

end TraceEvidence

/-- The root cause and how it spread. -/
structure Rca where
  rootCause : PyStr
  propagation : PyStr
deriving DecidableEq

namespace Rca

/-- The fields of `Rca`, in declaration order. -/
def fields (rca : Rca) : List (String × Json) :=
  [("rootCause", .str rca.rootCause), ("propagation", .str rca.propagation)]

/-- `Rca.model_dump` -/
def modelDump (o : DumpOptions) (rca : Rca) : Json := .dict (dumpFields o rca.fields)

/-- `Rca.model_validate` -/
def modelValidate (value : Json) : Except PyExc Rca := do
  let d ← asDict value
  let rootCause ← required d "rootCause" strValue
  let propagation ← required d "propagation" strValue
  return { rootCause, propagation }

/-- Validating the dump of a cause gives it back. -/
theorem modelValidate_dump (o : DumpOptions) (rca : Rca) :
    modelValidate (rca.modelDump o) = .ok rca := by
  have named : WellNamed (rca.fields.map Prod.fst) := by
    show WellNamed ["rootCause", "propagation"]
    decide
  simp only [modelDump, modelValidate, asDict, bind, Except.bind,
    required_dump o rca.fields "rootCause" _ _ named rfl (by simp),
    required_dump o rca.fields "propagation" _ _ named rfl (by simp), strValue_str]
  rfl

end Rca

/-- The dump of a `list[str]`. -/
def strList (texts : List PyStr) : Json := .list (texts.map .str)

/-- A list of strings is read back from its JSON. -/
theorem listValue_strList (texts : List PyStr) : listValue strValue (strList texts) = .ok texts :=
  listValue_map strValue .str strValue_str texts

/-- A headline, with optional tags. -/
structure Summary where
  highlight : PyStr
  chips : Option (List PyStr)
  errorTags : Option (List PyStr)
  neutralTags : Option (List PyStr)
deriving DecidableEq

namespace Summary

/-- The fields of `Summary`, in declaration order. -/
def fields (summary : Summary) : List (String × Json) :=
  [("highlight", .str summary.highlight), ("chips", dumpOption strList summary.chips),
    ("errorTags", dumpOption strList summary.errorTags),
    ("neutralTags", dumpOption strList summary.neutralTags)]

/-- `Summary.model_dump` -/
def modelDump (o : DumpOptions) (summary : Summary) : Json := .dict (dumpFields o summary.fields)

/-- `Summary.model_validate` -/
def modelValidate (value : Json) : Except PyExc Summary := do
  let d ← asDict value
  let highlight ← required d "highlight" strValue
  let chips ← fieldOr d "chips" (optionValue (listValue strValue)) none
  let errorTags ← fieldOr d "errorTags" (optionValue (listValue strValue)) none
  let neutralTags ← fieldOr d "neutralTags" (optionValue (listValue strValue)) none
  return { highlight, chips, errorTags, neutralTags }

/-- Validating the dump of a summary gives it back. -/
theorem modelValidate_dump (o : DumpOptions) (summary : Summary) :
    modelValidate (summary.modelDump o) = .ok summary := by
  have named : WellNamed (summary.fields.map Prod.fst) := by
    show WellNamed ["highlight", "chips", "errorTags", "neutralTags"]
    decide
  simp only [modelDump, modelValidate, asDict, bind, Except.bind,
    required_dump o summary.fields "highlight" _ _ named rfl (by simp),
    optionField_dump o summary.fields "chips" (listValue strValue) _ _ named rfl
      listValue_strList (by simp [strList]),
    optionField_dump o summary.fields "errorTags" (listValue strValue) _ _ named rfl
      listValue_strList (by simp [strList]),
    optionField_dump o summary.fields "neutralTags" (listValue strValue) _ _ named rfl
      listValue_strList (by simp [strList]), strValue_str]
  rfl

end Summary

/-- The evidence of the three agents. -/
structure Evidence where
  log : LogEvidence
  trace : TraceEvidence
  metric : MetricEvidence
deriving DecidableEq

namespace Evidence

/-- The fields of `Evidence`, in declaration order. -/
def fields (o : DumpOptions) (evidence : Evidence) : List (String × Json) :=
  [("log", evidence.log.modelDump o), ("trace", evidence.trace.modelDump o),
    ("metric", evidence.metric.modelDump o)]

/-- `Evidence.model_dump` -/
def modelDump (o : DumpOptions) (evidence : Evidence) : Json :=
  .dict (dumpFields o (evidence.fields o))

/-- `Evidence.model_validate` -/
def modelValidate (value : Json) : Except PyExc Evidence := do
  let d ← asDict value
  let log ← required d "log" LogEvidence.modelValidate
  let trace ← required d "trace" TraceEvidence.modelValidate
  let metric ← required d "metric" LogEvidence.modelValidate
  return { log, trace, metric }

/-- Validating the dump gives the evidence back. -/
theorem modelValidate_dump (o : DumpOptions) (evidence : Evidence) :
    modelValidate (evidence.modelDump o) = .ok evidence := by
  have named : WellNamed ((evidence.fields o).map Prod.fst) := by
    show WellNamed ["log", "trace", "metric"]
    decide
  simp only [modelDump, modelValidate, asDict, bind, Except.bind,
    required_dump o (evidence.fields o) "log" _ _ named rfl (by simp [LogEvidence.modelDump]),
    required_dump o (evidence.fields o) "trace" _ _ named rfl (by simp [TraceEvidence.modelDump]),
    required_dump o (evidence.fields o) "metric" _ _ named rfl (by simp [LogEvidence.modelDump]),
    LogEvidence.modelValidate_dump, TraceEvidence.modelValidate_dump]
  rfl

end Evidence

/-- An affected service, with its error count if it has one. -/
structure Affected where
  service : PyStr
  errors : Option Int
  kind : Option PyStr
deriving DecidableEq

namespace Affected

variable [LaxInt]

/-- The fields of `Affected`, in declaration order. -/
def fields (affected : Affected) : List (String × Json) :=
  [("service", .str affected.service), ("errors", dumpOption .int affected.errors),
    ("type", dumpOption .str affected.kind)]

/-- `Affected.model_dump` -/
def modelDump (o : DumpOptions) (affected : Affected) : Json :=
  .dict (dumpFields o affected.fields)

/-- `Affected.model_validate` -/
def modelValidate (value : Json) : Except PyExc Affected := do
  let d ← asDict value
  let service ← required d "service" strValue
  let errors ← fieldOr d "errors" (optionValue intValue) none
  let kind ← fieldOr d "type" (optionValue strValue) none
  return { service, errors, kind }

/-- Validating the dump of a service gives it back. -/
theorem modelValidate_dump (o : DumpOptions) (affected : Affected) :
    modelValidate (affected.modelDump o) = .ok affected := by
  have named : WellNamed (affected.fields.map Prod.fst) := by
    show WellNamed ["service", "errors", "type"]
    decide
  simp only [modelDump, modelValidate, asDict, bind, Except.bind,
    required_dump o affected.fields "service" _ _ named rfl (by simp),
    optionField_dump o affected.fields "errors" intValue _ _ named rfl intValue_int (by simp),
    optionField_dump o affected.fields "type" strValue _ _ named rfl strValue_str (by simp),
    strValue_str]
  rfl

end Affected

/-- A labelled value, both optional. -/
structure ImpactMetric where
  label : Option PyStr
  value : Option PyStr
deriving DecidableEq

namespace ImpactMetric

/-- The fields of `ImpactMetric`, in declaration order. -/
def fields (metric : ImpactMetric) : List (String × Json) :=
  [("label", dumpOption .str metric.label), ("value", dumpOption .str metric.value)]

/-- `ImpactMetric.model_dump` -/
def modelDump (o : DumpOptions) (metric : ImpactMetric) : Json :=
  .dict (dumpFields o metric.fields)

/-- `ImpactMetric.model_validate` -/
def modelValidate (json : Json) : Except PyExc ImpactMetric := do
  let d ← asDict json
  let label ← fieldOr d "label" (optionValue strValue) none
  let value ← fieldOr d "value" (optionValue strValue) none
  return { label, value }

/-- Validating the dump of a metric gives it back. -/
theorem modelValidate_dump (o : DumpOptions) (metric : ImpactMetric) :
    modelValidate (metric.modelDump o) = .ok metric := by
  have named : WellNamed (metric.fields.map Prod.fst) := by
    show WellNamed ["label", "value"]
    decide
  simp only [modelDump, modelValidate, asDict, bind, Except.bind,
    optionField_dump o metric.fields "label" strValue _ _ named rfl strValue_str (by simp),
    optionField_dump o metric.fields "value" strValue _ _ named rfl strValue_str (by simp)]
  rfl

end ImpactMetric

/-- What was affected. -/
structure Impact where
  affected : List Affected
  metrics : Option (List ImpactMetric)
deriving DecidableEq

namespace Impact

variable [LaxInt]

/-- The dump of the optional metric list. -/
def metricList (o : DumpOptions) (metrics : List ImpactMetric) : Json :=
  .list (metrics.map (ImpactMetric.modelDump o))

/-- The fields of `Impact`, in declaration order. -/
def fields (o : DumpOptions) (impact : Impact) : List (String × Json) :=
  [("affected", .list (impact.affected.map (Affected.modelDump o))),
    ("metrics", dumpOption (metricList o) impact.metrics)]

/-- `Impact.model_dump` -/
def modelDump (o : DumpOptions) (impact : Impact) : Json := .dict (dumpFields o (impact.fields o))

/-- `Impact.model_validate` -/
def modelValidate (value : Json) : Except PyExc Impact := do
  let d ← asDict value
  let affected ← required d "affected" (listValue Affected.modelValidate)
  let metrics ← fieldOr d "metrics" (optionValue (listValue ImpactMetric.modelValidate)) none
  return { affected, metrics }

/-- Validating the dump of an impact gives it back. -/
theorem modelValidate_dump (o : DumpOptions) (impact : Impact) :
    modelValidate (impact.modelDump o) = .ok impact := by
  have named : WellNamed ((impact.fields o).map Prod.fst) := by
    show WellNamed ["affected", "metrics"]
    decide
  simp only [modelDump, modelValidate, asDict, bind, Except.bind,
    required_dump o (impact.fields o) "affected" _ _ named rfl (by simp),
    optionField_dump o (impact.fields o) "metrics" (listValue ImpactMetric.modelValidate) _ _ named
      rfl (listValue_map _ _ (ImpactMetric.modelValidate_dump o)) (by simp [metricList]),
    listValue_map _ _ (Affected.modelValidate_dump o)]
  rfl

end Impact

/-- What to do. -/
structure Actions where
  steps : List PyStr
  recovery : Option PyStr
deriving DecidableEq

namespace Actions

/-- The fields of `Actions`, in declaration order. -/
def fields (actions : Actions) : List (String × Json) :=
  [("steps", strList actions.steps), ("recovery", dumpOption .str actions.recovery)]

/-- `Actions.model_dump` -/
def modelDump (o : DumpOptions) (actions : Actions) : Json := .dict (dumpFields o actions.fields)

/-- `Actions.model_validate` -/
def modelValidate (value : Json) : Except PyExc Actions := do
  let d ← asDict value
  let steps ← required d "steps" (listValue strValue)
  let recovery ← fieldOr d "recovery" (optionValue strValue) none
  return { steps, recovery }

/-- Validating the dump gives the actions back. -/
theorem modelValidate_dump (o : DumpOptions) (actions : Actions) :
    modelValidate (actions.modelDump o) = .ok actions := by
  have named : WellNamed (actions.fields.map Prod.fst) := by
    show WellNamed ["steps", "recovery"]
    decide
  simp only [modelDump, modelValidate, asDict, bind, Except.bind,
    required_dump o actions.fields "steps" _ _ named rfl (by simp [strList]),
    optionField_dump o actions.fields "recovery" strValue _ _ named rfl strValue_str (by simp),
    listValue_strList]
  rfl

end Actions

/-- The five keys that the frontend shows. -/
structure ReportDetail where
  rca : Rca
  summary : Summary
  evidence : Evidence
  impact : Impact
  actions : Actions
deriving DecidableEq

namespace ReportDetail

variable [LaxInt]

/-- The fields of `ReportDetail`, in declaration order. -/
def fields (o : DumpOptions) (detail : ReportDetail) : List (String × Json) :=
  [("rca", detail.rca.modelDump o), ("summary", detail.summary.modelDump o),
    ("evidence", detail.evidence.modelDump o), ("impact", detail.impact.modelDump o),
    ("actions", detail.actions.modelDump o)]

/-- `ReportDetail.model_dump` -/
def modelDump (o : DumpOptions) (detail : ReportDetail) : Dict := dumpFields o (detail.fields o)

/-- `ReportDetail.model_validate` -/
def modelValidate (value : Json) : Except PyExc ReportDetail := do
  let d ← asDict value
  let rca ← required d "rca" Rca.modelValidate
  let summary ← required d "summary" Summary.modelValidate
  let evidence ← required d "evidence" Evidence.modelValidate
  let impact ← required d "impact" Impact.modelValidate
  let actions ← required d "actions" Actions.modelValidate
  return { rca, summary, evidence, impact, actions }

/-- Validating the dump of a detail gives it back. -/
theorem modelValidate_dump (o : DumpOptions) (detail : ReportDetail) :
    modelValidate (.dict (detail.modelDump o)) = .ok detail := by
  have named : WellNamed ((detail.fields o).map Prod.fst) := by
    show WellNamed ["rca", "summary", "evidence", "impact", "actions"]
    decide
  simp only [modelDump, modelValidate, asDict, bind, Except.bind,
    required_dump o (detail.fields o) "rca" _ _ named rfl (by simp [Rca.modelDump]),
    required_dump o (detail.fields o) "summary" _ _ named rfl (by simp [Summary.modelDump]),
    required_dump o (detail.fields o) "evidence" _ _ named rfl (by simp [Evidence.modelDump]),
    required_dump o (detail.fields o) "impact" _ _ named rfl (by simp [Impact.modelDump]),
    required_dump o (detail.fields o) "actions" _ _ named rfl (by simp [Actions.modelDump]),
    Rca.modelValidate_dump, Summary.modelValidate_dump, Evidence.modelValidate_dump,
    Impact.modelValidate_dump, Actions.modelValidate_dump]
  rfl

end ReportDetail

/-- The result of an analysis, as its DONE report carries it. -/
structure RcaResult where
  kind : PyStr
  severity : PyStr
  service : PyStr
  detail : ReportDetail
deriving DecidableEq

namespace RcaResult

variable [LaxInt]

/-- The fields of `RcaResult`, in declaration order. -/
def fields (o : DumpOptions) (result : RcaResult) : List (String × Json) :=
  [("type", .str result.kind), ("severity", .str result.severity),
    ("service", .str result.service), ("detail", .dict (result.detail.modelDump o))]

/-- `RcaResult.model_dump` -/
def modelDump (o : DumpOptions) (result : RcaResult) : Json :=
  .dict (dumpFields o (result.fields o))

/-- `RcaResult.model_validate` -/
def modelValidate (value : Json) : Except PyExc RcaResult := do
  let d ← asDict value
  let kind ← required d "type" strValue
  let severity ← required d "severity" strValue
  let service ← required d "service" strValue
  let detail ← required d "detail" ReportDetail.modelValidate
  return { kind, severity, service, detail }

/-- Validating the dump of a result gives it back. -/
theorem modelValidate_dump (o : DumpOptions) (result : RcaResult) :
    modelValidate (result.modelDump o) = .ok result := by
  have named : WellNamed ((result.fields o).map Prod.fst) := by
    show WellNamed ["type", "severity", "service", "detail"]
    decide
  simp only [modelDump, modelValidate, asDict, bind, Except.bind,
    required_dump o (result.fields o) "type" _ _ named rfl (by simp),
    required_dump o (result.fields o) "severity" _ _ named rfl (by simp),
    required_dump o (result.fields o) "service" _ _ named rfl (by simp),
    required_dump o (result.fields o) "detail" _ _ named rfl (by simp),
    ReportDetail.modelValidate_dump, strValue_str]
  rfl

/-- `result.model_dump(by_alias=True, exclude_none=True)`, the stored form. -/
def stored (result : RcaResult) : Json := result.modelDump { byAlias := true, excludeNone := true }

/-- A result with its required fields only. -/
def bare (service : PyStr) : RcaResult :=
  { kind := py "RCA", severity := py "P2", service,
    detail :=
      { rca := ⟨[], []⟩
        summary := ⟨[], none, none, none⟩
        evidence := ⟨⟨[], none⟩, ⟨[], none, none⟩, ⟨[], none⟩⟩
        impact := ⟨[], none⟩
        actions := ⟨[], none⟩ } }

/-- A stored result is read back as it was. -/
theorem modelValidate_stored (result : RcaResult) : modelValidate result.stored = .ok result :=
  modelValidate_dump _ result

end RcaResult

end RcaBackend
