import RcaBackend.FirstWriteStore
import RcaBackend.JobTable
import RcaBackend.Timestamps
import RcaBackend.TransitionSystem

/-!
# The job system: ingest, workers, reaper, reconciler, cleaner

One process runs concurrent tasks on one event loop. A task runs alone between
two await points, so a step is one await: the database, file or HTTP operation
it waits for takes effect, and the code up to the next await follows. What the
environment decides is the outcome of the await. Any task may step next.

Every task's position and local variables are its program counter. A crash
loses the queue and all tasks; the table, the storage directory and Spring's
reports survive, and `lifespan` starts over: the workers at once, then startup
recovery, and only then requests, the reconciler, the cleaner and the periodic
reaper. `starts` and `starts_here` are ghost counts of RUNNING commits, over all
lifetimes and in this one; `posted` is the ghost history of handled POSTs.

Not modelled here: logging, `updated_at` (the environment chooses which rows a
cutoff selects), attempts inside the runner, and shutdown through `stop()`.
-/

namespace RcaBackend

/-- Rows and files hold what was dumped, whose integers are integers: nothing is coerced here. -/
instance dumpedInts : LaxInt := strictInt

/-- The settings that the tasks read. -/
structure Settings where
  maxJobRequeue : Nat
  orphanAge : Nat

/-- The three arrays of a bundle, the content of its file. -/
structure Signals where
  logs : List ModalityItem
  metrics : List ModalityItem
  traces : List ModalityItem
deriving DecidableEq

namespace IngestBundle

/-- The arrays that `split_and_save` writes to a file. -/
def signals (bundle : IngestBundle) : Signals := ⟨bundle.logs, bundle.metrics, bundle.traces⟩

/-- What `split_and_save` leaves for the row. -/
def light (bundle : IngestBundle) : IngestBundle :=
  { bundle with logs := [], metrics := [], traces := [] }

/-- `{**stored, **signals}`. -/
def withSignals (stored : IngestBundle) (content : Signals) : IngestBundle :=
  { stored with logs := content.logs, metrics := content.metrics, traces := content.traces }

/-- The idempotency key of a bundle's report. -/
def triggerKey (bundle : IngestBundle) : Except PyExc PyStr :=
  toSpringTs bundle.triggerInfo.triggerTime.text

end IngestBundle

/-- A file of the storage directory; a torn write has no content. -/
structure StoredFile where
  content : Option Signals
  mtime : Nat

/-- A report as Spring stores it: who posted it, and its `status` field. -/
structure Report where
  job : JobId
  status : Status
deriving DecidableEq, Repr

/-- Outcomes of an await, chosen by the environment. -/
inductive Outcome where
  /-- the operation completed -/
  | returns
  /-- it raised an exception with this text -/
  | raises (reason : PyStr)
  /-- `restore_bundle` found no usable file -/
  | signalsMissing (reason : PyStr)
  /-- a file write failed after its temporary file had been opened -/
  | torn
  /-- the runner's result passed validation -/
  | produced (result : RcaResult)
  /-- Spring handled the request, and its 2xx or 409 arrived -/
  | processed
  /-- Spring handled the request, and its answer was lost -/
  | responseLost
  /-- a 4xx other than 409 -/
  | rejected (reason : PyStr)
  /-- a 5xx, no connection, or an exception while assembling the payload -/
  | unavailable
  /-- a SELECT or DELETE with a cutoff, and the jobs older than it -/
  | selected (due : List JobId)
  /-- the sweep looks at one directory entry -/
  | visits (name : FileName)

/-- How a delivery counts for its caller. -/
inductive Delivery where
  | delivered
  | permanent (reason : PyStr)
  | transient

/-- What a finished delivery asks for: `_mark_done` or `_mark_failed`. -/
inductive Verdict where
  | done
  | failed (reason : PyStr)

/-! ## The attribute assignments of each session -/

namespace Write

/-- `_process` after `SignalsMissing`. -/
def missing (job : JobId) (row : IngestJob) (reason : PyStr) : Write :=
  ⟨job, row, { row with status := .failed, error := some reason }⟩

/-- `_process` before the analysis. -/
def running (job : JobId) (row : IngestJob) : Write := ⟨job, row, { row with status := .running }⟩

/-- `_process` with a validated result. -/
def delivering (job : JobId) (row : IngestJob) (result : RcaResult) : Write :=
  ⟨job, { row with status := .running },
    { row with status := .delivering, result := some result.stored, error := none }⟩

/-- `_process` without a result. -/
def finished (job : JobId) (row : IngestJob) : Write :=
  ⟨job, { row with status := .running }, { row with status := .done, error := none }⟩

/-- `_process` after the second failure. -/
def failed (job : JobId) (row : IngestJob) (reason : PyStr) : Write :=
  ⟨job, { row with status := .running }, { row with status := .failed, error := some reason }⟩

/-- `_mark_done` and `_mark_failed`. -/
def mark (job : JobId) (row : RowIn .delivering) : Verdict → Write
  | .done => ⟨job, row.1, { row.1 with status := .done }⟩
  | .failed reason => ⟨job, row.1, { row.1 with status := .failed, error := some reason }⟩

end Write

/-- The rows that `_recover_running` has selected, no job twice. -/
structure Batch where
  rows : List (JobId × RowIn .running)
  distinct : (rows.map Prod.fst).Nodup

/-- A worker: `_worker` and, inside it, `_process`. `row` is the row as its
session loaded it; from `analysing` on the session's status is RUNNING. -/
inductive Worker where
  | idle
  | selecting (job : JobId)
  | restoring (job : JobId) (row : IngestJob)
  | committingMissing (job : JobId) (row : IngestJob) (reason : PyStr)
  | committingRunning (job : JobId) (row : IngestJob) (bundle : IngestBundle)
  | analysing (job : JobId) (row : IngestJob) (bundle : IngestBundle) (attempt : Nat)
  | committingDelivering (job : JobId) (row : IngestJob) (bundle : IngestBundle)
      (result : RcaResult)
  | committingDone (job : JobId) (row : IngestJob) (bundle : IngestBundle)
  | committingFailed (job : JobId) (row : IngestJob) (bundle : IngestBundle) (reason : PyStr)
  | delivering (job : JobId) (path : Option FileName) (bundle : IngestBundle)
  | marking (job : JobId) (path : Option FileName) (verdict : Verdict)
  | committingMark (job : JobId) (path : Option FileName) (row : RowIn .delivering)
      (verdict : Verdict)
  | notifying (job : JobId) (path : Option FileName) (bundle : IngestBundle)
  | discarding (job : JobId) (path : Option FileName)

/-- `DeliveryReconciler`; `rest` is what its loop has not reached. -/
inductive Reconciler where
  | sleeping
  | redelivering (rest : List (JobId × RowIn .delivering))
  | posting (job : JobId) (path : Option FileName) (bundle : IngestBundle)
      (rest : List (JobId × RowIn .delivering))
  | marking (job : JobId) (path : Option FileName) (verdict : Verdict)
      (rest : List (JobId × RowIn .delivering))
  | committingMark (job : JobId) (path : Option FileName) (row : RowIn .delivering)
      (verdict : Verdict) (rest : List (JobId × RowIn .delivering))
  | discarding (job : JobId) (path : Option FileName) (rest : List (JobId × RowIn .delivering))

/-- `StuckJobReaper`: `recover_on_startup` up to `sweeping`, `_recover_running`
from `committing` on, both at startup and in the periodic loop. -/
inductive Reaper where
  | requeuing
  | enqueuingPending (ids : List JobId)
  | sweeping
  | sleeping
  | committing (batch : Batch)
  | enqueuing (ids : List JobId) (toFail : List (JobId × RowIn .running))
  | notifying (toFail : List (JobId × RowIn .running))
  | posting (job : JobId) (path : Option FileName) (bundle : IngestBundle)
      (toFail : List (JobId × RowIn .running))
  | discarding (job : JobId) (path : Option FileName) (toFail : List (JobId × RowIn .running))

/-- One `ingest_bundle` request. -/
inductive Request where
  | writing (bundle : IngestBundle)
  | committing (bundle : IngestBundle) (path : FileName)
  | refreshing (job : JobId) (path : FileName)
  | enqueuing (job : JobId)
  | rollingBack (path : Option FileName)
  | discarding (path : Option FileName)
  /-- 201 -/
  | created (job : JobId)
  /-- 503 -/
  | refused
  /-- the rollback itself raised -/
  | errored

/-- `JobCleaner`; `seen` is a ghost, the next id when the SELECT ran. -/
inductive Cleaner where
  | sleeping
  | reading
  | starting (keep : List FileName) (seen : JobId)
  | sweeping (keep : List FileName) (cutoff : Nat)

/-- The whole system. -/
structure World where
  jobs : JobTable
  nextJob : JobId
  files : FileName → Option StoredFile
  nextFile : Nat
  clock : Nat
  queue : List JobId
  workers : List Worker
  requests : List Request
  reaper : Reaper
  reconciler : Reconciler
  cleaner : Cleaner
  /-- `recover_on_startup` has finished, and `lifespan` has started the rest -/
  booted : Bool
  reports : PyStr → Option Report
  posted : List (PyStr × Report)
  starts : JobId → Nat
  startsHere : JobId → Nat

namespace World

/-! ## Shared operations -/

/-- The payload's key and report reach Spring: the first report for a key is
stored, a later one changes nothing. -/
def post (s : World) (key : PyStr) (report : Report) : World :=
  { s with
    reports := FirstWriteStore.put s.reports key report
    posted := (key, report) :: s.posted }

/-- `save_result` and `save_failure`, with the classification of `_post`. -/
def deliver (s : World) (bundle : IngestBundle) (report : Report) :
    Outcome → Option (World × Delivery)
  | .processed =>
    match bundle.triggerKey with
    | .ok key => some (s.post key report, .delivered)
    | .error _ => none
  | .responseLost =>
    match bundle.triggerKey with
    | .ok key => some (s.post key report, .transient)
    | .error _ => none
  | .rejected reason => some (s, .permanent reason)
  | .unavailable => some (s, .transient)
  | _ => none

/-- `restore_bundle` where it returns. -/
def restored (s : World) (row : IngestJob) : Option IngestBundle :=
  match row.signalsPath with
  | none => some row.bundle
  | some name => do
    let file ← s.files name
    let content ← file.content
    return row.bundle.withSignals content

/-- `bundle_store.discard`. -/
def discard (s : World) (path : Option FileName) : World :=
  { s with
    files :=
      match path with
      | none => s.files
      | some name => Function.update s.files name none }

/-- `RcaJobQueue.enqueue`. -/
def enqueue (s : World) (job : JobId) : World := { s with queue := s.queue ++ [job] }

/-- The ghost counts of a RUNNING commit. -/
def countStart (s : World) (job : JobId) : World :=
  { s with
    starts := Function.update s.starts job (s.starts job + 1)
    startsHere := Function.update s.startsHere job (s.startsHere job + 1) }

/-! ## The worker -/

/-- `_worker` and `_process`. -/
def stepWorker (s : World) : Worker → Outcome → Option (World × Worker)
  | .idle, .returns =>
    match s.queue with
    | [] => none
    | job :: rest => some ({ s with queue := rest }, .selecting job)
  | .selecting job, .returns =>
    match s.jobs job with
    | none => some (s, .idle)
    | some row => some (s, .restoring job row)
  | .selecting _, .raises _ => some (s, .idle)
  | .restoring job row, .returns =>
    (s.restored row).map fun bundle => (s, .committingRunning job row bundle)
  | .restoring job row, .signalsMissing reason =>
    if row.signalsPath = none then none else some (s, .committingMissing job row reason)
  | .restoring _ _, .raises _ => some (s, .idle)
  | .committingMissing job row reason, .returns =>
    (s.jobs.commit (.missing job row reason)).map
      fun jobs => ({ s with jobs }, .notifying job row.signalsPath row.bundle)
  | .committingMissing _ _ _, .raises _ => some (s, .idle)
  | .committingRunning job row bundle, .returns =>
    (s.jobs.commit (.running job row)).map
      fun jobs => ({ s.countStart job with jobs }, .analysing job row bundle 1)
  | .committingRunning _ _ _, .raises _ => some (s, .idle)
  | .analysing job row bundle _, .produced result =>
    some (s, .committingDelivering job row bundle result)
  | .analysing job row bundle _, .returns => some (s, .committingDone job row bundle)
  | .analysing job row bundle attempt, .raises reason =>
    -- `_run_rca` restarts the runner once
    if attempt = 1 then some (s, .analysing job row bundle 2)
    else some (s, .committingFailed job row bundle reason)
  | .committingDelivering job row bundle result, .returns =>
    (s.jobs.commit (.delivering job row result)).map
      fun jobs => ({ s with jobs }, .delivering job row.signalsPath bundle)
  | .committingDelivering job row bundle _, .raises reason =>
    some (s, .committingFailed job row bundle reason)
  | .committingDone job row _, .returns =>
    (s.jobs.commit (.finished job row)).map
      fun jobs => ({ s with jobs }, .discarding job row.signalsPath)
  | .committingDone job row bundle, .raises reason =>
    some (s, .committingFailed job row bundle reason)
  | .committingFailed job row bundle reason, .returns =>
    (s.jobs.commit (.failed job row reason)).map
      fun jobs => ({ s with jobs }, .notifying job row.signalsPath bundle)
  | .committingFailed _ _ _ _, .raises _ => some (s, .idle)
  | .delivering job path bundle, outcome =>
    match s.deliver bundle ⟨job, .done⟩ outcome with
    | some (s, .delivered) => some (s, .marking job path .done)
    | some (s, .permanent reason) => some (s, .marking job path (.failed reason))
    | some (s, .transient) => some (s, .idle)
    | none => none
  | .marking job path verdict, .returns =>
    match s.jobs job with
    | none => some (s, .discarding job path)
    | some row =>
      -- the worker discards the file even where the mark does nothing
      if same : row.status = .delivering then
        some (s, .committingMark job path ⟨row, same⟩ verdict)
      else some (s, .discarding job path)
  | .marking _ _ _, .raises _ => some (s, .idle)
  | .committingMark job path row verdict, .returns =>
    (s.jobs.commit (.mark job row verdict)).map
      fun jobs => ({ s with jobs }, .discarding job path)
  | .committingMark _ _ _ _, .raises _ => some (s, .idle)
  | .notifying job path bundle, outcome =>
    (s.deliver bundle ⟨job, .failed⟩ outcome).map fun sent => (sent.1, .discarding job path)
  | .discarding _ path, .returns => some (s.discard path, .idle)
  | .discarding _ _, .raises _ => some (s, .idle)
  | _, _ => none

/-! ## The reconciler -/

/-- `redeliver_once`, one row's restore or send, `_mark_done` and `_mark_failed`. -/
def stepReconciler (s : World) : Reconciler → Outcome → Option (World × Reconciler)
  | .sleeping, .selected due =>
    if s.booted then
      some (s, .redelivering
        ((s.jobs.select s.nextJob .delivering).filter fun entry => decide (entry.1 ∈ due)))
    else none
  | .redelivering [], .returns => some (s, .sleeping)
  | .redelivering ((job, row) :: rest), outcome =>
    match row.1.result with
    | none => if outcome matches .returns then some (s, .redelivering rest) else none
    | some stored =>
      let bundle : Option (Option IngestBundle) :=
        match outcome with
        | .returns => (s.restored row.1).map some
        | .signalsMissing _ =>
          if row.1.signalsPath = none then none else some (some row.1.bundle)
        | .raises _ => some none
        | _ => none
      match bundle, RcaResult.modelValidate stored with
      | none, _ => none
      | some (some bundle), .ok _ => some (s, .posting job row.1.signalsPath bundle rest)
      | some _, _ => some (s, .redelivering rest)
  | .posting job path bundle rest, outcome =>
    match s.deliver bundle ⟨job, .done⟩ outcome with
    | some (s, .delivered) => some (s, .marking job path .done rest)
    | some (s, .permanent reason) => some (s, .marking job path (.failed reason) rest)
    | some (s, .transient) => some (s, .redelivering rest)
    | none => none
  | .marking job path verdict rest, .returns =>
    match s.jobs job with
    | none => some (s, .redelivering rest)
    | some row =>
      if same : row.status = .delivering then
        some (s, .committingMark job path ⟨row, same⟩ verdict rest)
      else some (s, .redelivering rest)
  -- a database error here leaves `redeliver_once`
  | .marking _ _ _ _, .raises _ => some (s, .sleeping)
  | .committingMark job path row verdict rest, .returns =>
    (s.jobs.commit (.mark job row verdict)).map
      fun jobs => ({ s with jobs }, .discarding job path rest)
  | .committingMark _ _ _ _ _, .raises _ => some (s, .sleeping)
  | .discarding _ path rest, .returns => some (s.discard path, .redelivering rest)
  | .discarding _ _ rest, .raises _ => some (s, .redelivering rest)
  | _, _ => none

/-! ## The reaper -/

/-- `STUCK_REASON`. -/
def stuckReason : PyStr := py "워커 중단으로 회수 — RUNNING 잔류, 재투입 허용 횟수 소진"

/-- A row that `_recover_running` puts back into the queue. -/
def requeues (cfg : Settings) (row : RowIn .running) : Bool :=
  row.1.requeueCount < cfg.maxJobRequeue

/-- What `_recover_running` assigns to one row. -/
def recovery (cfg : Settings) (entry : JobId × RowIn .running) : Write :=
  ⟨entry.1, entry.2.1,
    if requeues cfg entry.2 then
      { entry.2.1 with requeueCount := entry.2.1.requeueCount + 1, status := .pending }
    else { entry.2.1 with status := .failed, error := some stuckReason }⟩

/-- The ids that the sweep will enqueue. -/
def toEnqueue (cfg : Settings) (jobs : List (JobId × RowIn .running)) : List JobId :=
  (jobs.filter fun entry => requeues cfg entry.2).map Prod.fst

/-- The rows that the sweep has failed. -/
def toFail (cfg : Settings) (jobs : List (JobId × RowIn .running)) :
    List (JobId × RowIn .running) := jobs.filter fun entry => !requeues cfg entry.2

/-- `recover_on_startup` or `reap_once` ends; the loop goes to sleep. -/
def recovered (s : World) : World × Reaper := ({ s with booted := true }, .sleeping)

/-- The RUNNING rows, those that a cutoff leaves. -/
def runningRows (s : World) (due : JobId → Bool) : Batch :=
  ⟨(s.jobs.select s.nextJob .running).filter fun entry => due entry.1,
    (s.jobs.select_nodup s.nextJob .running).sublist (List.filter_sublist.map _)⟩

/-- After the SELECT of `_recover_running`: no commit without rows. -/
def afterSelect (batch : Batch) : Reaper :=
  if batch.rows = [] then .enqueuing [] [] else .committing batch

/-- `recover_on_startup` and `reap_once`. -/
def stepReaper (cfg : Settings) (s : World) : Reaper → Outcome → Option (World × Reaper)
  | .requeuing, .returns =>
    some (s, .enqueuingPending ((s.jobs.select s.nextJob .pending).map Prod.fst))
  | .requeuing, .raises _ => some s.recovered
  | .enqueuingPending [], .returns => some (s, .sweeping)
  | .enqueuingPending (job :: rest), .returns => some (s.enqueue job, .enqueuingPending rest)
  | .sweeping, .returns => some (s, afterSelect (s.runningRows fun _ => true))
  | .sweeping, .raises _ => some s.recovered
  | .sleeping, .selected due =>
    if s.booted then some (s, afterSelect (s.runningRows fun job => decide (job ∈ due)))
    else none
  | .committing batch, .returns =>
    (s.jobs.commitAll (batch.rows.map (recovery cfg))).map fun jobs =>
      ({ s with jobs }, .enqueuing (toEnqueue cfg batch.rows) (toFail cfg batch.rows))
  | .committing _, .raises _ => some s.recovered
  | .enqueuing [] failing, .returns => some (s, .notifying failing)
  | .enqueuing (job :: rest) failing, .returns => some (s.enqueue job, .enqueuing rest failing)
  | .notifying [], .returns => some s.recovered
  | .notifying ((job, row) :: rest), .returns =>
    (s.restored row.1).map fun bundle => (s, .posting job row.1.signalsPath bundle rest)
  | .notifying ((job, row) :: rest), .signalsMissing _ =>
    if row.1.signalsPath = none then none
    else some (s, .posting job row.1.signalsPath row.1.bundle rest)
  | .notifying ((job, row) :: rest), .raises _ => some (s, .discarding job row.1.signalsPath rest)
  | .posting job path bundle rest, outcome =>
    (s.deliver bundle ⟨job, .failed⟩ outcome).map fun sent => (sent.1, .discarding job path rest)
  | .discarding _ path rest, .returns => some (s.discard path, .notifying rest)
  | .discarding _ _ rest, .raises _ => some (s, .notifying rest)
  | _, _ => none

/-! ## Ingest -/

/-- The row that `ingest_bundle` inserts. -/
def newRow (bundle : IngestBundle) (path : FileName) : IngestJob :=
  { status := .pending, bundle := bundle.light, signalsPath := some path, result := none,
    error := none, requeueCount := 0 }

/-- `ingest_bundle`. -/
def stepRequest (s : World) : Request → Outcome → Option (World × Request)
  | .writing bundle, .returns =>
    let name : FileName := ⟨s.nextFile, .json⟩
    some ({ s with
      files := Function.update s.files name (some ⟨some bundle.signals, s.clock⟩)
      nextFile := s.nextFile + 1 }, .committing bundle name)
  | .writing _, .raises _ => some (s, .rollingBack none)
  | .writing _, .torn =>
    some ({ s with
      files := Function.update s.files ⟨s.nextFile, .tmp⟩ (some ⟨none, s.clock⟩)
      nextFile := s.nextFile + 1 }, .rollingBack none)
  | .committing bundle path, .returns =>
    some ({ s with
      jobs := Function.update s.jobs s.nextJob (some (newRow bundle path))
      nextJob := s.nextJob + 1 }, .refreshing s.nextJob path)
  | .committing _ path, .raises _ => some (s, .rollingBack (some path))
  | .refreshing job _, .returns => some (s, .enqueuing job)
  | .refreshing _ path, .raises _ => some (s, .rollingBack (some path))
  | .enqueuing job, .returns => some (s.enqueue job, .created job)
  | .rollingBack path, .returns => some (s, .discarding path)
  | .rollingBack _, .raises _ => some (s, .errored)
  | .discarding path, .returns => some (s.discard path, .refused)
  | .discarding _, .raises _ => some (s, .refused)
  | _, _ => none

/-! ## The cleaner -/

/-- `DELETE ... WHERE status IN TERMINAL_STATUSES`, of the rows that are due. -/
def purge (jobs : JobTable) (due : List JobId) : JobTable := fun job =>
  match jobs job with
  | some row => if row.status.terminal ∧ job ∈ due then none else some row
  | none => none

/-- `files_in_use`. -/
def filesInUse (s : World) : List FileName :=
  (List.range s.nextJob).filterMap fun job =>
    match s.jobs job with
    | some row => if row.status.terminal then none else row.signalsPath
    | none => none

/-- An entry that `_sweep_sync` removes. -/
def sweeps (s : World) (keep : List FileName) (cutoff : Nat) (name : FileName) : Bool :=
  match s.files name with
  | some file => decide (name ∉ keep) && decide (file.mtime < cutoff)
  | none => false

/-- `purge_once`, `files_in_use` and `sweep_orphans`. -/
def stepCleaner (cfg : Settings) (s : World) : Cleaner → Outcome → Option (World × Cleaner)
  | .sleeping, .selected due =>
    if s.booted then some ({ s with jobs := purge s.jobs due }, .reading) else none
  | .reading, .returns => some (s, .starting s.filesInUse s.nextJob)
  | .reading, .raises _ => some (s, .sleeping)
  | .starting keep _, .returns => some (s, .sweeping keep (s.clock - cfg.orphanAge))
  | .sweeping keep cutoff, .visits name =>
    some (if s.sweeps keep cutoff name then s.discard (some name) else s, .sweeping keep cutoff)
  | .sweeping _ _, .returns => some (s, .sleeping)
  | _, _ => none

/-! ## The system -/

/-- The process dies and a new one enters `lifespan`. -/
def boot (s : World) : World :=
  { s with
    queue := []
    workers := s.workers.map fun _ => .idle
    requests := []
    reaper := .requeuing
    reconciler := .sleeping
    cleaner := .sleeping
    booted := false
    startsHere := fun _ => 0 }

/-- A first process on empty stores, with the given number of workers. -/
def initial (workers : Nat) : World :=
  { jobs := fun _ => none
    nextJob := 1
    files := fun _ => none
    nextFile := 0
    clock := 0
    queue := []
    workers := List.replicate workers .idle
    requests := []
    reaper := .requeuing
    reconciler := .sleeping
    cleaner := .sleeping
    booted := false
    reports := fun _ => none
    posted := []
    starts := fun _ => 0
    startsHere := fun _ => 0 }

end World

/-- What happens next. -/
inductive Action where
  | crash
  | tick
  | receive (bundle : IngestBundle)
  | worker (index : Nat) (outcome : Outcome)
  | request (index : Nat) (outcome : Outcome)
  | reaper (outcome : Outcome)
  | reconciler (outcome : Outcome)
  | cleaner (outcome : Outcome)

/-- One step of the system. -/
def step (cfg : Settings) (s : World) : Action → Option World
  | .crash => some s.boot
  | .tick => some { s with clock := s.clock + 1 }
  | .receive bundle =>
    if s.booted then some { s with requests := s.requests ++ [.writing bundle] } else none
  | .worker index outcome => do
    let (s', worker) ← s.stepWorker (← s.workers[index]?) outcome
    return { s' with workers := s'.workers.set index worker }
  | .request index outcome => do
    let (s', request) ← s.stepRequest (← s.requests[index]?) outcome
    return { s' with requests := s'.requests.set index request }
  | .reaper outcome => do
    let (s', reaper) ← s.stepReaper cfg s.reaper outcome
    return { s' with reaper }
  | .reconciler outcome => do
    let (s', reconciler) ← s.stepReconciler s.reconciler outcome
    return { s' with reconciler }
  | .cleaner outcome => do
    let (s', cleaner) ← s.stepCleaner cfg s.cleaner outcome
    return { s' with cleaner }

end RcaBackend
