import RcaBackend.Contracts
import RcaBackend.ContractRows
import RcaBackend.SignalParsers

/-!
# The raw lines of a payload

`raw_normalizer` replaces the raw text of every item by the text of a row whose
fields are the contract of the item's modality. A JSON object gives the fields by its
keys; other texts give them by patterns, or leave them empty. An integer that is too
large for a float, or a duration that no integer is, raises.
-/

namespace RcaBackend

open SignalPatterns

/-! ## The rows of the contract -/

structure LogLine where
  level : PyStr
  msg : PyStr
deriving DecidableEq

structure MetricItem where
  label : PyStr
  value : PyStr
  threshold : PyStr
  exceeded : Option Bool
deriving DecidableEq

structure TraceSpan where
  traceId : PyStr
  /-- written as `from` -/
  from_ : PyStr
  /-- written as `to` -/
  to_ : PyStr
  duration : Option Int
  status : PyStr
deriving DecidableEq

/-- A field that may be `None`. -/
def RowValue.orNull {α : Type} (value : α → RowValue) : Option α → RowValue
  | none => .null
  | some present => value present

def LogLine.row (line : LogLine) : Row := [(py "level", .str line.level), (py "msg", .str line.msg)]

def MetricItem.row (item : MetricItem) : Row :=
  [(py "label", .str item.label), (py "value", .str item.value),
    (py "threshold", .str item.threshold), (py "exceeded", RowValue.orNull .bool item.exceeded)]

def TraceSpan.row (span : TraceSpan) : Row :=
  [(py "traceId", .str span.traceId), (py "from", .str span.from_), (py "to", .str span.to_),
    (py "duration", RowValue.orNull .int span.duration), (py "status", .str span.status)]

/-! ## Reading an object -/

/-- `_loads_dict` -/
def loadsDict [PyRuntime] (raw : PyStr) : Except PyExc (Option Dict) := do
  match ← jsonOrNone raw with
  | some (.dict d) => return some d
  | _ => return none

/-- `_first` -/
def firstValue (d : Dict) : List PyStr → Json
  | [] => .null
  | key :: rest => if d.get key ≠ .null then d.get key else firstValue d rest

/-- `_s` -/
def scalarText (F : Type) [PyFloat F] : Json → PyStr
  | .null | .list _ | .dict _ => []
  | .bool value => if value then py "true" else py "false"
  | .int value => intText value
  | .float value => PyFloat.general (PyFloat.ofLit value : F)
  | .str text => text

/-! ## Logs -/

/-- `_LOG_LEVEL_KEYS` -/
def logLevelKeys : List PyStr := [py "level", py "severity", py "lvl", py "levelname"]

/-- `_LOG_MSG_KEYS` -/
def logMsgKeys : List PyStr := [py "msg", py "message", py "log", py "text"]

variable (F : Type) [PyFloat F]

/-- The message of an object; without one it is the whole line. -/
def logMsg (d : Dict) (raw : PyStr) : PyStr :=
  if firstValue d logMsgKeys ≠ .null then scalarText F (firstValue d logMsgKeys) else raw

variable [PyRuntime]

/-- A level that is still empty is looked for in the message. -/
def levelOr (level msg : PyStr) : PyStr :=
  if level ≠ [] then level
  else
    match reSearch levelRe msg with
    | some found => upperText (groupText found 1)
    | none => []

def logLine (raw : PyStr) : Except PyExc LogLine := do
  match ← loadsDict raw with
  | some d =>
    let msg := logMsg F d raw
    return ⟨levelOr (scalarText F (firstValue d logLevelKeys)) msg, msg⟩
  | none => return ⟨levelOr [] raw, raw⟩

/-- `normalize_log` -/
def normalizeLog (raw : PyStr) : Except PyExc PyStr := do
  modelDumpJson (← logLine F raw).row

/-! ## Metrics -/

/-- `_METRIC_LABEL_KEYS`: the `_METRIC_NAME_KEYS` of the analysis after `label`. -/
def metricLabelKeys : List PyStr :=
  [py "label", py "metric", py "name", py "__name__", py "metric_name"]

omit [PyRuntime] in
/-- The first entry with a number. -/
def firstNumeric : Dict → Option (PyStr × Json)
  | [] => none
  | (key, .int value) :: _ => some (key, .int value)
  | (key, .float value) :: _ => some (key, .float value)
  | _ :: rest => firstNumeric rest

/-- `_metric_label_value` -/
def metricLabelValue (raw : PyStr) : Except PyExc (PyStr × PyStr) := do
  match ← loadsDict raw with
  | some d =>
    let label := firstValue d metricLabelKeys
    let value := firstValue d metricValueKeys
    if label ≠ .null ∧ value ≠ .null then return (scalarText F label, scalarText F value)
    match firstNumeric d with
    | some (key, number) => return (key, scalarText F number)
    | none => return (scalarText F label, scalarText F value)
  | none =>
    match reMatch promRe (strip raw) with
    | some found => return (groupText found 1, groupText found 2)
    | none => return (reFindall pairRe raw).head?.getD ([], [])

/-- The threshold and the flag of an object. -/
def thresholdExceeded : Option Dict → PyStr × Option Bool
  | none => ([], none)
  | some d =>
    (scalarText F (d.get (py "threshold")),
      match d.get (py "exceeded") with
      | .bool value => some value
      | _ => none)

def metricItem (raw : PyStr) : Except PyExc MetricItem := do
  let (label, value) ← metricLabelValue F raw
  let (threshold, exceeded) := thresholdExceeded F (← loadsDict raw)
  return ⟨label, value, threshold, exceeded⟩

/-- `normalize_metric` -/
def normalizeMetric (raw : PyStr) : Except PyExc PyStr := do
  modelDumpJson (← metricItem F raw).row

/-! ## Traces -/

/-- `_TRACE_ID_KEYS` -/
def traceIdKeys : List PyStr := [py "traceId", py "trace_id", py "traceID", py "tid"]

/-- `_TRACE_FROM_KEYS` -/
def traceFromKeys : List PyStr :=
  [py "from", py "caller", py "source", py "client", py "parent"]

/-- `_TRACE_TO_KEYS` -/
def traceToKeys : List PyStr :=
  [py "to", py "callee", py "operation", py "operationName", py "name", py "target"]

/-- `_TRACE_STATUS_KEYS` -/
def traceStatusKeys : List PyStr := [py "status", py "http_status_code", py "statusCode", py "code"]

/-- `except (ValueError, TypeError): return None` -/
def wholeOrNone : Except PyExc Int → Except PyExc (Option Int)
  | .ok whole => .ok (some whole)
  | .error .valueError | .error .typeError => .ok none
  | .error other => .error other

/-- `_trace_duration_ms` -/
def traceDurationMs (d : Dict) : Except PyExc (Option Int) :=
  if d.get (py "duration_us") ≠ .null then
    wholeOrNone do
      let value : F ← floatValue (d.get (py "duration_us"))
      PyFloat.trunc (PyFloat.div value (PyFloat.ofLit (wholeLit 1000)))
  else if d.get (py "duration_ms") ≠ .null then
    wholeOrNone ((floatValue (d.get (py "duration_ms")) : Except PyExc F) >>= PyFloat.trunc)
  else if d.get (py "duration") ≠ .null then
    wholeOrNone ((floatValue (d.get (py "duration")) : Except PyExc F) >>= PyFloat.trunc)
  else .ok none

/-- The duration of a text as whole milliseconds; nothing that is raised is caught. -/
def wholeDuration (raw : PyStr) : Except PyExc (Option Int) := do
  match (← textDuration raw : Option F) with
  | some value => return some (← PyFloat.trunc value)
  | none => return none

def traceSpan (raw : PyStr) : Except PyExc TraceSpan := do
  match ← loadsDict raw with
  | some d =>
    return ⟨scalarText F (firstValue d traceIdKeys), scalarText F (firstValue d traceFromKeys),
      scalarText F (firstValue d traceToKeys), ← traceDurationMs F d,
      scalarText F (firstValue d traceStatusKeys)⟩
  | none =>
    let duration ← wholeDuration F raw
    let status :=
      match reSearch traceErrRe raw with
      | some found => upperText (groupText found 1)
      | none => []
    return ⟨[], [], [], duration, status⟩

/-- `normalize_trace` -/
def normalizeTrace (raw : PyStr) : Except PyExc PyStr := do
  modelDumpJson (← traceSpan F raw).row

/-! ## Payloads -/

/-- `_NORMALIZERS` -/
def normalizer : Modality → PyStr → Except PyExc PyStr
  | .log => normalizeLog F
  | .metric => normalizeMetric F
  | .trace => normalizeTrace F

end RcaBackend
