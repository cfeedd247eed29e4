import RcaBackend.Attempts
import RcaBackend.LogCompression

/-!
# Compression of the spans

`compress_traces` counts the spans of each service and operation, with their errors and
durations, and the spans of each service in each minute. Below the counts it repeats some
spans as they are: the first ones that show an error, and the slowest ones.
-/

namespace RcaBackend

open KeyedFold

/-- `round(x)` of a float. -/
class PyRound (F : Type) where
  round : F → Except PyExc Int

/-- A span with what is read off it. -/
abbrev ReadSpan (F : Type) := ModalityItem × SpanFields F

/-- `_EXEMPLAR_LIMIT` -/
def exemplarLimit : Nat := 3

section Spans

variable {F : Type} [PyFloat F] [PyRuntime]

/-- The spans. -/
def readSpans (items : List ModalityItem) : Except PyExc (List (ReadSpan F)) :=
  items.mapM fun item => do return (item, ← spanFields item.raw)

/-! ## Counts -/

omit [PyFloat F] [PyRuntime] in
/-- The spans of one service and operation. -/
structure SpanGroup (F : Type) where
  count : Nat
  err : Nat
  durations : List F

omit [PyFloat F] [PyRuntime] in
/-- A span is added to its group. -/
def addSpan (old : Option (SpanGroup F)) (span : ReadSpan F) : SpanGroup F :=
  let group := old.getD ⟨0, 0, []⟩
  { count := group.count + 1
    err := group.err + if span.2.isErr then 1 else 0
    durations := group.durations ++ span.2.durationMs.toList }

/-- `agg` -/
def spanGroupsOf (spans : List (ReadSpan F)) : List ((PyStr × PyStr) × SpanGroup F) :=
  keyedFold (fun span => (span.1.service, span.2.operation)) addSpan spans

/-- `short_ts(item.timestamp)[:5]` -/
def minuteOf (item : ModalityItem) : PyStr := (shortTs item.timestamp.text).take 5

/-- A span is added to the minutes of its service. -/
def addMinute (old : Option (List (PyStr × Nat))) (span : ReadSpan F) : List (PyStr × Nat) :=
  upsert (minuteOf span.1) (fun n => n.getD 0 + 1) (old.getD [])

/-- `volume` -/
def volumes (spans : List (ReadSpan F)) : List (PyStr × List (PyStr × Nat)) :=
  keyedFold (fun span => serviceOr span.1.service) addMinute spans

/-! ## Exemplars -/

/-- A span with a duration is slower than another; no order of NaN. -/
def slower (left right : ReadSpan F × F) : Bool :=
  PyFloat.lt (PyFloat.neg left.2) (PyFloat.neg right.2)

/-- The spans with a duration. -/
def timedSpans (spans : List (ReadSpan F)) : List (ReadSpan F × F) :=
  spans.filterMap fun span => span.2.durationMs.map fun duration => (span, duration)

/-- The slowest spans. -/
def slowestSpans (spans : List (ReadSpan F)) : List (ReadSpan F) :=
  ((PyRuntime.sort slower (timedSpans spans)).take exemplarLimit).map Prod.fst

/-- The first spans that show an error. -/
def errorSpans (spans : List (ReadSpan F)) : List (ReadSpan F) :=
  (spans.filter fun span => span.2.isErr).take exemplarLimit

/-- The spans that are repeated, each once. -/
def exemplars (spans : List (ReadSpan F)) : List ModalityItem :=
  ((errorSpans spans ++ slowestSpans spans).map Prod.fst).foldl
    (fun kept item => if item ∈ kept then kept else kept ++ [item]) []

/-! ## Rows -/

/-- `_percentile`, of values that are not none. -/
def percentile [PyRound F] (first : F) (rest : List F) (p : FloatLit) : Except PyExc F := do
  let last ← PyFloat.ofInt rest.length
  let rounded ← PyRound.round (PyFloat.mul (PyFloat.ofLit p) last : F)
  let idx := min rest.length (max 0 rounded).toNat
  return (first :: rest).getD idx first

/-- The durations of a group. -/
def durationText [PyRound F] (durations : List F) : Except PyExc PyStr :=
  match PyRuntime.sort PyFloat.lt durations with
  | [] => .ok (py "-")
  | first :: rest => do
    let half ← percentile first rest (.decimal false 5 (-1))
    let most ← percentile first rest (.decimal false 95 (-2))
    return PyFloat.general4 half ++ py "/" ++ PyFloat.general4 most ++ py "/" ++
      PyFloat.general4 (rest.getLastD first)

/-- The row of a group. -/
def spanGroupRow [PyRound F] (entry : (PyStr × PyStr) × SpanGroup F) : Except PyExc PyStr := do
  let durations ← durationText entry.2.durations
  return row [serviceOr entry.1.1, entry.1.2, py "×" ++ natText entry.2.count,
    py "err=" ++ natText entry.2.err, durations]

/-- The row of a service's minutes. -/
def volumeRow (entry : PyStr × List (PyStr × Nat)) : PyStr :=
  row [entry.1, (py " ").intercalate ((sortBy Prod.fst entry.2).map fun minute =>
    minute.1 ++ py "=" ++ natText minute.2)]

/-- A span as it is. -/
def exemplarRow (item : ModalityItem) : PyStr :=
  py "[" ++ shortTs item.timestamp.text ++ py "] " ++ serviceOr item.service ++ py " " ++ item.raw

/-- The rows of the spans that are repeated. -/
def exemplarRows (items : List ModalityItem) : List PyStr :=
  if items = [] then []
  else py "# exemplar 원문(가장 느린/에러 스팬) — [시각] 서비스 원문" :: items.map exemplarRow

/-- The line above the groups. -/
def traceHeader : PyStr :=
  py "# 트레이스 구간 집계 — 서비스<TAB>오퍼레이션<TAB>호출<TAB>에러<TAB>p50/p95/max(ms)"

/-- The line above the minutes. -/
def volumeHeader : PyStr :=
  py "# 서비스별 볼륨 타임라인(분) — 급감·소실 구간이 구조적 장애 신호"

/-- Groups with many errors first, then large ones. -/
def spanGroupOrder (entry : (PyStr × PyStr) × SpanGroup F) : Int ×ₗ Int :=
  toLex (-(entry.2.err : Int), -(entry.2.count : Int))

/-- `compress_traces` -/
def compressTraces (F : Type) [PyFloat F] [PyRound F] (items : List ModalityItem) :
    Except PyExc PyStr :=
  if items = [] then .ok emptyText
  else do
    let spans : List (ReadSpan F) ← readSpans items
    let groupRows ← (sortBy spanGroupOrder (spanGroupsOf spans)).mapM spanGroupRow
    return joinLines (traceHeader :: groupRows ++
      volumeHeader :: (sortBy Prod.fst (volumes spans)).map volumeRow ++
      exemplarRows (exemplars spans))

end Spans

end RcaBackend
