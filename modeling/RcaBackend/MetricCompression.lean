import RcaBackend.Attempts
import RcaBackend.LogCompression

/-!
# Compression of the metric lines

`compress_metrics` puts every (label, value) pair of every line into the series of its
service and label, and writes one row per series: the statistics before and after the
trigger, and first and largest of the values after it that deviate from those before.
Rows are ordered by the largest deviation, and lines without a pair are passed through.
-/

namespace RcaBackend

open KeyedFold

/-- A point of a series. -/
structure SeriesPoint (F : Type) where
  dt : Option DateTime
  ts : PyStr
  value : F
deriving DecidableEq

/-- A series of a service and label. -/
abbrev Series (F : Type) := (PyStr × PyStr) × List (SeriesPoint F)

section Series

variable {F : Type} [PyFloat F] [PyRuntime]

/-- The points of an item whose pairs are given, under the keys of their series. -/
def pointsOf (entry : ModalityItem × List (PyStr × F)) : List ((PyStr × PyStr) × SeriesPoint F) :=
  entry.2.map fun pair => ((entry.1.service, pair.1),
    { dt := parseTs entry.1.timestamp.text, ts := entry.1.timestamp.text, value := pair.2 })

/-- The pairs of the items. -/
def itemPairs (items : List ModalityItem) :
    Except PyExc (List (ModalityItem × List (PyStr × F))) :=
  items.mapM fun item => do return (item, ← metricPairs item.raw)

/-- The series of the items, and the items without a pair. -/
def metricSeries (items : List ModalityItem) :
    Except PyExc (List (Series F) × List ModalityItem) := do
  let parsed ← itemPairs items
  return (collect Prod.fst Prod.snd (parsed.flatMap pointsOf),
    (parsed.filter fun entry => entry.2.isEmpty).map Prod.fst)

omit [PyFloat F] [PyRuntime] in
/-- The points before the trigger, and the others. -/
def splitPoints (trigger : Option DateTime) (points : List (SeriesPoint F)) :
    Except PyExc (List (SeriesPoint F) × List (SeriesPoint F)) := do
  let judged ← points.mapM fun point => do return (point, ← beforeTrigger trigger point.dt)
  return ((judged.filter fun entry => entry.2).map Prod.fst,
    (judged.filter fun entry => !entry.2).map Prod.fst)

/-! ## Statistics -/

omit [PyRuntime] in
/-- `min(values)` -/
def smallest (first : F) (rest : List F) : F :=
  rest.foldl (fun least value => if PyFloat.lt value least then value else least) first

omit [PyRuntime] in
/-- `max(values, key=key)` -/
def largestBy {α : Type} (key : α → F) (first : α) (rest : List α) : α :=
  rest.foldl (fun most value => if PyFloat.lt (key most) (key value) then value else most) first

omit [PyRuntime] in
/-- `_series_stats`, and the text for a series without points. -/
def seriesStats : List F → Except PyExc PyStr
  | [] => .ok (py "n=0")
  | first :: rest => do
    let average ← PyFloat.mean (first :: rest)
    return py "n=" ++ natText (rest.length + 1) ++ py " mean=" ++ PyFloat.general4 average ++
      py " min=" ++ PyFloat.general4 (smallest first rest) ++
      py " max=" ++ PyFloat.general4 (largestBy id first rest)

/-- The deviant points, the points and values before the trigger given. -/
def deviantPoints (mu sigma : F) (incid : List (SeriesPoint F)) : List (SeriesPoint F) :=
  incid.filter fun point => isDeviant mu sigma point.value

omit [PyRuntime] in
/-- `abs(v - mu)` -/
def distance (mu : F) (point : SeriesPoint F) : F := PyFloat.abs (PyFloat.sub point.value mu)

/-- `onset` and `peak` of the deviant points. -/
def anomalyText (mu : F) (onset : SeriesPoint F) (others : List (SeriesPoint F)) : PyStr :=
  let peak := largestBy (distance mu) onset others
  py "onset=" ++ PyFloat.general4 onset.value ++ py "@" ++ shortTs onset.ts ++
    py " peak=" ++ PyFloat.general4 peak.value ++ py "@" ++ shortTs peak.ts

omit [PyRuntime] in
/-- The largest distance, in units of the deviation. -/
def deviationScore (mu sigma : F) (onset : SeriesPoint F) (others : List (SeriesPoint F)) : F :=
  let unit := if PyFloat.eq sigma (PyFloat.ofLit (wholeLit 0)) then PyFloat.ofLit (wholeLit 1)
    else sigma
  let score (point : SeriesPoint F) := PyFloat.div (distance mu point) unit
  largestBy id (score onset) (others.map score)

/-- The text on the deviant points, and the score of the series. -/
def anomalyOf (base incid : List (SeriesPoint F)) : Except PyExc (PyStr × F) :=
  if base = [] ∨ incid = [] then .ok (py "-", PyFloat.ofLit (wholeLit 0))
  else do
    let mu ← PyFloat.mean (base.map SeriesPoint.value)
    let sigma ← deviation (base.map SeriesPoint.value)
    match deviantPoints mu sigma incid with
    | [] => return (py "-", PyFloat.ofLit (wholeLit 0))
    | onset :: others => return (anomalyText mu onset others, deviationScore mu sigma onset others)

/-! ## Rows -/

/-- A row with what orders it. -/
structure ScoredRow (F : Type) where
  score : F
  service : PyStr
  label : PyStr
  line : PyStr

/-- The row of a series. -/
def seriesRow (trigger : Option DateTime) (series : Series F) : Except PyExc (ScoredRow F) := do
  let (base, incid) ← splitPoints trigger series.2
  let baseText ← seriesStats (base.map SeriesPoint.value)
  let incidText ← seriesStats (incid.map SeriesPoint.value)
  let (anomaly, score) ← anomalyOf base incid
  let service := serviceOr series.1.1
  return { score, service, label := series.1.2,
           line := row [service, series.1.2, py "base " ++ baseText, py "incid " ++ incidText,
             anomaly] }

omit [PyRuntime] in
/-- The order of the rows: large scores first, then service and label. -/
def moreDeviant (left right : ScoredRow F) : Bool :=
  if PyFloat.eq (PyFloat.neg left.score) (PyFloat.neg right.score) then
    decide (toLex (left.service, left.label) < toLex (right.service, right.label))
  else PyFloat.lt (PyFloat.neg left.score) (PyFloat.neg right.score)

/-- The lines without a pair. -/
def passThrough (unparsed : List ModalityItem) : List PyStr :=
  if unparsed = [] then []
  else py "# 미파싱 원문 통과 — [시각] 원문" :: unparsed.map fun item =>
    py "[" ++ shortTs item.timestamp.text ++ py "] " ++ item.raw

/-- The line above the rows. -/
def metricHeader : PyStr :=
  py "# 메트릭 시리즈 통계 (이상점 크기순 정렬 — 상위가 원인 후보) — " ++
    py "서비스<TAB>라벨<TAB>baseline(트리거 이전)<TAB>incident(이후)<TAB>이상점"

/-- `compress_metrics` -/
def compressMetrics (F : Type) [PyFloat F] (items : List ModalityItem) (triggerTime : PyStr) :
    Except PyExc PyStr :=
  if items = [] then .ok emptyText
  else do
    let (series, unparsed) ← metricSeries (F := F) items
    let scored ← series.mapM (seriesRow (parseTs triggerTime))
    return joinLines (metricHeader ::
      (PyRuntime.sort moreDeviant scored).map ScoredRow.line ++ passThrough unparsed)

end Series

end RcaBackend
