import RcaBackend.JobSystem

/-!
# What one step can do

Each task's step function is inverted once into named rules, with every guard
of the branch that was taken. The invariants are proved from these rules and
from `step_jobs`, which says how one step can change the table.
-/

namespace RcaBackend

/-! ## Positions -/

namespace Worker

/-- The job that the worker is inside `_process` for. -/
def held : Worker → Option JobId
  | .idle => none
  | .selecting job | .restoring job _ | .committingMissing job _ _
  | .committingRunning job _ _ | .analysing job _ _ _ | .committingDelivering job _ _ _
  | .committingDone job _ _ | .committingFailed job _ _ _ | .delivering job _ _
  | .marking job _ _ | .committingMark job _ _ _ | .notifying job _ _
  | .discarding job _ => some job

/-- The job of a worker whose first commit is still to come. -/
def fresh : Worker → Option JobId
  | .selecting job | .restoring job _ | .committingMissing job _ _
  | .committingRunning job _ _ => some job
  | _ => none

/-- The row that such a worker has loaded. -/
def loaded : Worker → Option IngestJob
  | .restoring _ row | .committingMissing _ row _ | .committingRunning _ row _ => some row
  | _ => none

/-- The job and the loaded row of a worker between its RUNNING commit and the
commit that ends the analysis. -/
def running : Worker → Option (JobId × IngestJob)
  | .analysing job row _ _ | .committingDelivering job row _ _ | .committingDone job row _
  | .committingFailed job row _ _ => some (job, row)
  | _ => none

/-- What the worker is about to commit. -/
def write : Worker → Option Write
  | .committingMissing job row reason => some (.missing job row reason)
  | .committingRunning job row _ => some (.running job row)
  | .committingDelivering job row _ result => some (.delivering job row result)
  | .committingDone job row _ => some (.finished job row)
  | .committingFailed job row _ reason => some (.failed job row reason)
  | .committingMark job _ row verdict => some (.mark job row verdict)
  | _ => none

end Worker

/-- What the reconciler is about to commit. -/
def Reconciler.write : Reconciler → Option Write
  | .committingMark job _ row verdict _ => some (.mark job row verdict)
  | _ => none

namespace Reaper

/-- The rows that the reaper is about to commit. -/
def batch : Reaper → List (JobId × RowIn .running)
  | .committing batch => batch.rows
  | _ => []

/-- The jobs that the reaper is about to enqueue. -/
def backlog : Reaper → List JobId
  | .enqueuingPending ids | .enqueuing ids _ => ids
  | _ => []

end Reaper

namespace Request

/-- The job that a request is about to enqueue. -/
def backlog : Request → Option JobId
  | .refreshing job _ | .enqueuing job => some job
  | _ => none

/-- The request has its answer, 201 or 503. -/
def answered : Request → Bool
  | .created _ | .refused => true
  | _ => false

/-- The file of a request whose row is still to be committed. -/
def written : Request → Option FileName
  | .committing _ name => some name
  | _ => none

/-- The request is in its except block. -/
def undoing : Request → Bool
  | .rollingBack _ | .discarding _ => true
  | _ => false

end Request

/-! ## The rules -/

namespace World

/-- The steps of a worker. -/
inductive WorkerStep (s : World) : Worker → Outcome → World → Worker → Prop where
  | take {job : JobId} {rest : List JobId} (queued : s.queue = job :: rest) :
      WorkerStep s .idle .returns { s with queue := rest } (.selecting job)
  | absent {job : JobId} (missing : s.jobs job = none) :
      WorkerStep s (.selecting job) .returns s .idle
  | load {job : JobId} {row : IngestJob} (present : s.jobs job = some row) :
      WorkerStep s (.selecting job) .returns s (.restoring job row)
  | restore {job : JobId} {row : IngestJob} {bundle : IngestBundle}
      (usable : s.restored row = some bundle) :
      WorkerStep s (.restoring job row) .returns s (.committingRunning job row bundle)
  | lack {job : JobId} {row : IngestJob} {reason : PyStr} (split : row.signalsPath ≠ none) :
      WorkerStep s (.restoring job row) (.signalsMissing reason) s
        (.committingMissing job row reason)
  | abandon {worker : Worker} {job : JobId} {reason : PyStr} (fresh : worker.fresh = some job) :
      WorkerStep s worker (.raises reason) s .idle
  | forgo {job : JobId} {row : IngestJob} {reason : PyStr} {jobs : JobTable}
      (committed : s.jobs.commit (.missing job row reason) = some jobs) :
      WorkerStep s (.committingMissing job row reason) .returns { s with jobs }
        (.notifying job row.signalsPath row.bundle)
  | start {job : JobId} {row : IngestJob} {bundle : IngestBundle} {jobs : JobTable}
      (committed : s.jobs.commit (.running job row) = some jobs) :
      WorkerStep s (.committingRunning job row bundle) .returns { s.countStart job with jobs }
        (.analysing job row bundle 1)
  | restart {job : JobId} {row : IngestJob} {bundle : IngestBundle} {reason : PyStr} :
      WorkerStep s (.analysing job row bundle 1) (.raises reason) s (.analysing job row bundle 2)
  | exhaust {job : JobId} {row : IngestJob} {bundle : IngestBundle} {attempt : Nat}
      {reason : PyStr} :
      WorkerStep s (.analysing job row bundle attempt) (.raises reason) s
        (.committingFailed job row bundle reason)
  | conclude {job : JobId} {row : IngestJob} {bundle : IngestBundle} {attempt : Nat}
      {result : RcaResult} :
      WorkerStep s (.analysing job row bundle attempt) (.produced result) s
        (.committingDelivering job row bundle result)
  | nothing {job : JobId} {row : IngestJob} {bundle : IngestBundle} {attempt : Nat} :
      WorkerStep s (.analysing job row bundle attempt) .returns s (.committingDone job row bundle)
  | store {job : JobId} {row : IngestJob} {bundle : IngestBundle} {result : RcaResult}
      {jobs : JobTable} (committed : s.jobs.commit (.delivering job row result) = some jobs) :
      WorkerStep s (.committingDelivering job row bundle result) .returns { s with jobs }
        (.delivering job row.signalsPath bundle)
  | unstored {job : JobId} {row : IngestJob} {bundle : IngestBundle} {result : RcaResult}
      {reason : PyStr} :
      WorkerStep s (.committingDelivering job row bundle result) (.raises reason) s
        (.committingFailed job row bundle reason)
  | finish {job : JobId} {row : IngestJob} {bundle : IngestBundle} {jobs : JobTable}
      (committed : s.jobs.commit (.finished job row) = some jobs) :
      WorkerStep s (.committingDone job row bundle) .returns { s with jobs }
        (.discarding job row.signalsPath)
  | unfinished {job : JobId} {row : IngestJob} {bundle : IngestBundle} {reason : PyStr} :
      WorkerStep s (.committingDone job row bundle) (.raises reason) s
        (.committingFailed job row bundle reason)
  | fail {job : JobId} {row : IngestJob} {bundle : IngestBundle} {reason : PyStr}
      {jobs : JobTable} (committed : s.jobs.commit (.failed job row reason) = some jobs) :
      WorkerStep s (.committingFailed job row bundle reason) .returns { s with jobs }
        (.notifying job row.signalsPath bundle)
  | strand {job : JobId} {row : IngestJob} {bundle : IngestBundle} {cause reason : PyStr} :
      WorkerStep s (.committingFailed job row bundle cause) (.raises reason) s .idle
  | delivered {job : JobId} {path : Option FileName} {bundle : IngestBundle} {key : PyStr}
      (keyed : bundle.triggerKey = .ok key) :
      WorkerStep s (.delivering job path bundle) .processed (s.post key ⟨job, .done⟩)
        (.marking job path .done)
  | unanswered {job : JobId} {path : Option FileName} {bundle : IngestBundle} {key : PyStr}
      (keyed : bundle.triggerKey = .ok key) :
      WorkerStep s (.delivering job path bundle) .responseLost (s.post key ⟨job, .done⟩) .idle
  | rejected {job : JobId} {path : Option FileName} {bundle : IngestBundle} {reason : PyStr} :
      WorkerStep s (.delivering job path bundle) (.rejected reason) s
        (.marking job path (.failed reason))
  | unavailable {job : JobId} {path : Option FileName} {bundle : IngestBundle} :
      WorkerStep s (.delivering job path bundle) .unavailable s .idle
  | settled {job : JobId} {path : Option FileName} {verdict : Verdict}
      (other : s.jobs.statusOf job ≠ some .delivering) :
      WorkerStep s (.marking job path verdict) .returns s (.discarding job path)
  | observe {job : JobId} {path : Option FileName} {verdict : Verdict} {row : RowIn .delivering}
      (present : s.jobs job = some row.1) :
      WorkerStep s (.marking job path verdict) .returns s (.committingMark job path row verdict)
  | unread {job : JobId} {path : Option FileName} {verdict : Verdict} {reason : PyStr} :
      WorkerStep s (.marking job path verdict) (.raises reason) s .idle
  | mark {job : JobId} {path : Option FileName} {row : RowIn .delivering} {verdict : Verdict}
      {jobs : JobTable} (committed : s.jobs.commit (.mark job row verdict) = some jobs) :
      WorkerStep s (.committingMark job path row verdict) .returns { s with jobs }
        (.discarding job path)
  | unmarked {job : JobId} {path : Option FileName} {row : RowIn .delivering} {verdict : Verdict}
      {reason : PyStr} :
      WorkerStep s (.committingMark job path row verdict) (.raises reason) s .idle
  | notify {job : JobId} {path : Option FileName} {bundle : IngestBundle} {outcome : Outcome}
      {s' : World} {delivery : Delivery}
      (sent : s.deliver bundle ⟨job, .failed⟩ outcome = some (s', delivery)) :
      WorkerStep s (.notifying job path bundle) outcome s' (.discarding job path)
  | discard {job : JobId} {path : Option FileName} :
      WorkerStep s (.discarding job path) .returns (s.discard path) .idle
  | keep {job : JobId} {path : Option FileName} {reason : PyStr} :
      WorkerStep s (.discarding job path) (.raises reason) s .idle

/-- The steps of the reconciler. -/
inductive ReconcilerStep (s : World) : Reconciler → Outcome → World → Reconciler → Prop where
  | select {due : List JobId} (booted : s.booted = true) :
      ReconcilerStep s .sleeping (.selected due) s (.redelivering
        ((s.jobs.select s.nextJob .delivering).filter fun entry => decide (entry.1 ∈ due)))
  | finish : ReconcilerStep s (.redelivering []) .returns s .sleeping
  | skip {entry : JobId × RowIn .delivering} {rest : List (JobId × RowIn .delivering)}
      {outcome : Outcome} :
      ReconcilerStep s (.redelivering (entry :: rest)) outcome s (.redelivering rest)
  | restore {job : JobId} {row : RowIn .delivering} {rest : List (JobId × RowIn .delivering)}
      {bundle : IngestBundle} {outcome : Outcome} {stored : Json} {result : RcaResult}
      (usable : s.restored row.1 = some bundle ∨ bundle = row.1.bundle)
      (kept : row.1.result = some stored) (valid : RcaResult.modelValidate stored = .ok result) :
      ReconcilerStep s (.redelivering ((job, row) :: rest)) outcome s
        (.posting job row.1.signalsPath bundle rest)
  | delivered {job : JobId} {path : Option FileName} {bundle : IngestBundle}
      {rest : List (JobId × RowIn .delivering)} {key : PyStr}
      (keyed : bundle.triggerKey = .ok key) :
      ReconcilerStep s (.posting job path bundle rest) .processed (s.post key ⟨job, .done⟩)
        (.marking job path .done rest)
  | unanswered {job : JobId} {path : Option FileName} {bundle : IngestBundle}
      {rest : List (JobId × RowIn .delivering)} {key : PyStr}
      (keyed : bundle.triggerKey = .ok key) :
      ReconcilerStep s (.posting job path bundle rest) .responseLost (s.post key ⟨job, .done⟩)
        (.redelivering rest)
  | rejected {job : JobId} {path : Option FileName} {bundle : IngestBundle}
      {rest : List (JobId × RowIn .delivering)} {reason : PyStr} :
      ReconcilerStep s (.posting job path bundle rest) (.rejected reason) s
        (.marking job path (.failed reason) rest)
  | unavailable {job : JobId} {path : Option FileName} {bundle : IngestBundle}
      {rest : List (JobId × RowIn .delivering)} :
      ReconcilerStep s (.posting job path bundle rest) .unavailable s (.redelivering rest)
  | settled {job : JobId} {path : Option FileName} {verdict : Verdict}
      {rest : List (JobId × RowIn .delivering)}
      (other : s.jobs.statusOf job ≠ some .delivering) :
      ReconcilerStep s (.marking job path verdict rest) .returns s (.redelivering rest)
  | observe {job : JobId} {path : Option FileName} {verdict : Verdict}
      {rest : List (JobId × RowIn .delivering)} {row : RowIn .delivering}
      (present : s.jobs job = some row.1) :
      ReconcilerStep s (.marking job path verdict rest) .returns s
        (.committingMark job path row verdict rest)
  | unread {job : JobId} {path : Option FileName} {verdict : Verdict}
      {rest : List (JobId × RowIn .delivering)} {reason : PyStr} :
      ReconcilerStep s (.marking job path verdict rest) (.raises reason) s .sleeping
  | mark {job : JobId} {path : Option FileName} {row : RowIn .delivering} {verdict : Verdict}
      {rest : List (JobId × RowIn .delivering)} {jobs : JobTable}
      (committed : s.jobs.commit (.mark job row verdict) = some jobs) :
      ReconcilerStep s (.committingMark job path row verdict rest) .returns { s with jobs }
        (.discarding job path rest)
  | unmarked {job : JobId} {path : Option FileName} {row : RowIn .delivering} {verdict : Verdict}
      {rest : List (JobId × RowIn .delivering)} {reason : PyStr} :
      ReconcilerStep s (.committingMark job path row verdict rest) (.raises reason) s .sleeping
  | discard {job : JobId} {path : Option FileName} {rest : List (JobId × RowIn .delivering)} :
      ReconcilerStep s (.discarding job path rest) .returns (s.discard path) (.redelivering rest)
  | keep {job : JobId} {path : Option FileName} {rest : List (JobId × RowIn .delivering)}
      {reason : PyStr} :
      ReconcilerStep s (.discarding job path rest) (.raises reason) s (.redelivering rest)

/-- The steps of the reaper. -/
inductive ReaperStep (cfg : Settings) (s : World) :
    Reaper → Outcome → World → Reaper → Prop where
  | requeue : ReaperStep cfg s .requeuing .returns s
      (.enqueuingPending ((s.jobs.select s.nextJob .pending).map Prod.fst))
  | unread {reason : PyStr} : ReaperStep cfg s .requeuing (.raises reason)
      { s with booted := true } .sleeping
  | enqueuePending {job : JobId} {rest : List JobId} :
      ReaperStep cfg s (.enqueuingPending (job :: rest)) .returns (s.enqueue job)
        (.enqueuingPending rest)
  | enqueued : ReaperStep cfg s (.enqueuingPending []) .returns s .sweeping
  | sweep : ReaperStep cfg s .sweeping .returns s (afterSelect (s.runningRows fun _ => true))
  | unswept {reason : PyStr} : ReaperStep cfg s .sweeping (.raises reason)
      { s with booted := true } .sleeping
  | reap {due : List JobId} (booted : s.booted = true) :
      ReaperStep cfg s .sleeping (.selected due) s
        (afterSelect (s.runningRows fun job => decide (job ∈ due)))
  | recover {batch : Batch} {jobs : JobTable}
      (committed : s.jobs.commitAll (batch.rows.map (recovery cfg)) = some jobs) :
      ReaperStep cfg s (.committing batch) .returns { s with jobs }
        (.enqueuing (toEnqueue cfg batch.rows) (toFail cfg batch.rows))
  | unrecovered {batch : Batch} {reason : PyStr} :
      ReaperStep cfg s (.committing batch) (.raises reason) { s with booted := true } .sleeping
  | enqueue {job : JobId} {rest : List JobId} {failing : List (JobId × RowIn .running)} :
      ReaperStep cfg s (.enqueuing (job :: rest) failing) .returns (s.enqueue job)
        (.enqueuing rest failing)
  | requeued {failing : List (JobId × RowIn .running)} :
      ReaperStep cfg s (.enqueuing [] failing) .returns s (.notifying failing)
  | finish : ReaperStep cfg s (.notifying []) .returns { s with booted := true } .sleeping
  | restore {job : JobId} {row : RowIn .running} {rest : List (JobId × RowIn .running)}
      {bundle : IngestBundle} {outcome : Outcome} :
      ReaperStep cfg s (.notifying ((job, row) :: rest)) outcome s
        (.posting job row.1.signalsPath bundle rest)
  | unrestored {job : JobId} {row : RowIn .running} {rest : List (JobId × RowIn .running)}
      {reason : PyStr} :
      ReaperStep cfg s (.notifying ((job, row) :: rest)) (.raises reason) s
        (.discarding job row.1.signalsPath rest)
  | notify {job : JobId} {path : Option FileName} {bundle : IngestBundle}
      {rest : List (JobId × RowIn .running)} {outcome : Outcome} {s' : World}
      {delivery : Delivery}
      (sent : s.deliver bundle ⟨job, .failed⟩ outcome = some (s', delivery)) :
      ReaperStep cfg s (.posting job path bundle rest) outcome s' (.discarding job path rest)
  | discard {job : JobId} {path : Option FileName} {rest : List (JobId × RowIn .running)} :
      ReaperStep cfg s (.discarding job path rest) .returns (s.discard path) (.notifying rest)
  | keep {job : JobId} {path : Option FileName} {rest : List (JobId × RowIn .running)}
      {reason : PyStr} :
      ReaperStep cfg s (.discarding job path rest) (.raises reason) s (.notifying rest)

/-- The steps of a request. -/
inductive RequestStep (s : World) : Request → Outcome → World → Request → Prop where
  | write {bundle : IngestBundle} :
      RequestStep s (.writing bundle) .returns
        { s with
          files := Function.update s.files ⟨s.nextFile, .json⟩
            (some ⟨some bundle.signals, s.clock⟩)
          nextFile := s.nextFile + 1 }
        (.committing bundle ⟨s.nextFile, .json⟩)
  | unwritten {bundle : IngestBundle} {reason : PyStr} :
      RequestStep s (.writing bundle) (.raises reason) s (.rollingBack none)
  | torn {bundle : IngestBundle} :
      RequestStep s (.writing bundle) .torn
        { s with
          files := Function.update s.files ⟨s.nextFile, .tmp⟩ (some ⟨none, s.clock⟩)
          nextFile := s.nextFile + 1 }
        (.rollingBack none)
  | insert {bundle : IngestBundle} {path : FileName} :
      RequestStep s (.committing bundle path) .returns
        { s with
          jobs := Function.update s.jobs s.nextJob (some (newRow bundle path))
          nextJob := s.nextJob + 1 }
        (.refreshing s.nextJob path)
  | uncommitted {bundle : IngestBundle} {path : FileName} {reason : PyStr} :
      RequestStep s (.committing bundle path) (.raises reason) s (.rollingBack (some path))
  | refresh {job : JobId} {path : FileName} :
      RequestStep s (.refreshing job path) .returns s (.enqueuing job)
  | unrefreshed {job : JobId} {path : FileName} {reason : PyStr} :
      RequestStep s (.refreshing job path) (.raises reason) s (.rollingBack (some path))
  | enqueue {job : JobId} :
      RequestStep s (.enqueuing job) .returns (s.enqueue job) (.created job)
  | rollback {path : Option FileName} :
      RequestStep s (.rollingBack path) .returns s (.discarding path)
  | stuck {path : Option FileName} {reason : PyStr} :
      RequestStep s (.rollingBack path) (.raises reason) s .errored
  | discard {path : Option FileName} :
      RequestStep s (.discarding path) .returns (s.discard path) .refused
  | keep {path : Option FileName} {reason : PyStr} :
      RequestStep s (.discarding path) (.raises reason) s .refused

/-- The steps of the cleaner. -/
inductive CleanerStep (cfg : Settings) (s : World) :
    Cleaner → Outcome → World → Cleaner → Prop where
  | purge {due : List JobId} (booted : s.booted = true) :
      CleanerStep cfg s .sleeping (.selected due) { s with jobs := purge s.jobs due } .reading
  | read : CleanerStep cfg s .reading .returns s (.starting s.filesInUse s.nextJob)
  | unread {reason : PyStr} : CleanerStep cfg s .reading (.raises reason) s .sleeping
  | start {keep : List FileName} {seen : JobId} :
      CleanerStep cfg s (.starting keep seen) .returns s (.sweeping keep (s.clock - cfg.orphanAge))
  | remove {keep : List FileName} {cutoff : Nat} {name : FileName}
      (orphan : s.sweeps keep cutoff name = true) :
      CleanerStep cfg s (.sweeping keep cutoff) (.visits name) (s.discard (some name))
        (.sweeping keep cutoff)
  | pass {keep : List FileName} {cutoff : Nat} {name : FileName} :
      CleanerStep cfg s (.sweeping keep cutoff) (.visits name) s (.sweeping keep cutoff)
  | finish {keep : List FileName} {cutoff : Nat} :
      CleanerStep cfg s (.sweeping keep cutoff) .returns s .sleeping

/-! ## Inversion -/

/-- What has been delivered is posted. -/
theorem deliver_delivered {s s' : World} {bundle : IngestBundle} {report : Report}
    {outcome : Outcome} (sent : s.deliver bundle report outcome = some (s', .delivered)) :
    ∃ key, bundle.triggerKey = .ok key ∧ outcome = .processed ∧ s' = s.post key report := by
  unfold deliver at sent
  split at sent
  · split at sent
    · rename_i key keyed
      cases sent
      exact ⟨key, keyed, rfl, rfl⟩
    · cases sent
  · split at sent <;> cases sent
  all_goals cases sent

/-- A rejected report is not posted. -/
theorem deliver_permanent {s s' : World} {bundle : IngestBundle} {report : Report}
    {outcome : Outcome} {reason : PyStr}
    (sent : s.deliver bundle report outcome = some (s', .permanent reason)) :
    outcome = .rejected reason ∧ s' = s := by
  unfold deliver at sent
  split at sent
  · split at sent <;> cases sent
  · split at sent <;> cases sent
  · cases sent
    exact ⟨rfl, rfl⟩
  all_goals cases sent

/-- A report that will be sent again may have been posted. -/
theorem deliver_transient {s s' : World} {bundle : IngestBundle} {report : Report}
    {outcome : Outcome} (sent : s.deliver bundle report outcome = some (s', .transient)) :
    (outcome = .unavailable ∧ s' = s) ∨
      ∃ key, bundle.triggerKey = .ok key ∧ outcome = .responseLost ∧ s' = s.post key report := by
  unfold deliver at sent
  split at sent
  · split at sent <;> cases sent
  · split at sent
    · rename_i key keyed
      cases sent
      exact Or.inr ⟨key, keyed, rfl, rfl⟩
    · cases sent
  · cases sent
  · cases sent
    exact Or.inl ⟨rfl, rfl⟩
  · cases sent

/-- Whatever the answer, a delivery only posts its report. -/
theorem deliver_posts {s s' : World} {bundle : IngestBundle} {report : Report}
    {outcome : Outcome} {delivery : Delivery}
    (sent : s.deliver bundle report outcome = some (s', delivery)) :
    s' = s ∨ ∃ key, bundle.triggerKey = .ok key ∧ s' = s.post key report := by
  cases delivery with
  | delivered =>
    obtain ⟨key, keyed, -, posted⟩ := deliver_delivered sent
    exact Or.inr ⟨key, keyed, posted⟩
  | permanent reason => exact Or.inl (deliver_permanent sent).2
  | transient =>
    rcases deliver_transient sent with ⟨-, same⟩ | ⟨key, keyed, -, posted⟩
    · exact Or.inl same
    · exact Or.inr ⟨key, keyed, posted⟩

/-- What a step of a worker is. -/
theorem stepWorker_rule {s s' : World} {worker worker' : Worker} {outcome : Outcome}
    (taken : s.stepWorker worker outcome = some (s', worker')) :
    WorkerStep s worker outcome s' worker' := by
  unfold stepWorker at taken
  split at taken
  · split at taken
    · cases taken
    · rename_i queued
      cases taken
      exact .take queued
  · split at taken
    · rename_i missing
      cases taken
      exact .absent missing
    · rename_i present
      cases taken
      exact .load present
  · cases taken
    exact .abandon rfl
  · obtain ⟨bundle, usable, same⟩ := Option.map_eq_some_iff.mp taken
    cases same
    exact .restore usable
  · split at taken
    · cases taken
    · rename_i split
      cases taken
      exact .lack split
  · cases taken
    exact .abandon rfl
  · obtain ⟨jobs, committed, same⟩ := Option.map_eq_some_iff.mp taken
    cases same
    exact .forgo committed
  · cases taken
    exact .abandon rfl
  · obtain ⟨jobs, committed, same⟩ := Option.map_eq_some_iff.mp taken
    cases same
    exact .start committed
  · cases taken
    exact .abandon rfl
  · cases taken
    exact .conclude
  · cases taken
    exact .nothing
  · split at taken
    · rename_i attempted
      cases taken
      subst attempted
      exact .restart
    · cases taken
      exact .exhaust
  · obtain ⟨jobs, committed, same⟩ := Option.map_eq_some_iff.mp taken
    cases same
    exact .store committed
  · cases taken
    exact .unstored
  · obtain ⟨jobs, committed, same⟩ := Option.map_eq_some_iff.mp taken
    cases same
    exact .finish committed
  · cases taken
    exact .unfinished
  · obtain ⟨jobs, committed, same⟩ := Option.map_eq_some_iff.mp taken
    cases same
    exact .fail committed
  · cases taken
    exact .strand
  · split at taken
    · rename_i answered
      cases taken
      obtain ⟨key, keyed, rfl, rfl⟩ := deliver_delivered answered
      exact .delivered keyed
    · rename_i answered
      cases taken
      obtain ⟨rfl, rfl⟩ := deliver_permanent answered
      exact .rejected
    · rename_i answered
      cases taken
      rcases deliver_transient answered with ⟨rfl, rfl⟩ | ⟨key, keyed, rfl, rfl⟩
      · exact .unavailable
      · exact .unanswered keyed
    · cases taken
  · split at taken
    · rename_i missing
      cases taken
      exact .settled (by simp [JobTable.statusOf, missing])
    · rename_i row present
      split at taken
      · rename_i same
        cases taken
        exact .observe present
      · rename_i other
        cases taken
        exact .settled (by simp [JobTable.statusOf, present, other])
  · cases taken
    exact .unread
  · obtain ⟨jobs, committed, same⟩ := Option.map_eq_some_iff.mp taken
    cases same
    exact .mark committed
  · cases taken
    exact .unmarked
  · obtain ⟨sent, answered, same⟩ := Option.map_eq_some_iff.mp taken
    cases same
    exact .notify answered
  · cases taken
    exact .discard
  · cases taken
    exact .keep
  · cases taken

/-- What a step of the reconciler is. -/
theorem stepReconciler_rule {s s' : World} {reconciler reconciler' : Reconciler}
    {outcome : Outcome} (taken : s.stepReconciler reconciler outcome = some (s', reconciler')) :
    ReconcilerStep s reconciler outcome s' reconciler' := by
  unfold stepReconciler at taken
  split at taken
  · split at taken
    · rename_i booted
      cases taken
      exact .select booted
    · cases taken
  · cases taken
    exact .finish
  · split at taken
    · split at taken
      · cases taken
        exact .skip
      · cases taken
    · rename_i stored kept
      dsimp only at taken
      split at taken
      · cases taken
      · rename_i bundle result given valid
        cases taken
        refine .restore ?_ kept valid
        split at given
        · obtain ⟨restored, usable, same⟩ := Option.map_eq_some_iff.mp given
          cases same
          exact Or.inl usable
        · split at given <;> cases given
          exact Or.inr rfl
        · cases given
        · cases given
      · cases taken
        exact .skip
  · split at taken
    · rename_i answered
      cases taken
      obtain ⟨key, keyed, rfl, rfl⟩ := deliver_delivered answered
      exact .delivered keyed
    · rename_i answered
      cases taken
      obtain ⟨rfl, rfl⟩ := deliver_permanent answered
      exact .rejected
    · rename_i answered
      cases taken
      rcases deliver_transient answered with ⟨rfl, rfl⟩ | ⟨key, keyed, rfl, rfl⟩
      · exact .unavailable
      · exact .unanswered keyed
    · cases taken
  · split at taken
    · rename_i missing
      cases taken
      exact .settled (by simp [JobTable.statusOf, missing])
    · rename_i row present
      split at taken
      · rename_i same
        cases taken
        exact .observe present
      · rename_i other
        cases taken
        exact .settled (by simp [JobTable.statusOf, present, other])
  · cases taken
    exact .unread
  · obtain ⟨jobs, committed, same⟩ := Option.map_eq_some_iff.mp taken
    cases same
    exact .mark committed
  · cases taken
    exact .unmarked
  · cases taken
    exact .discard
  · cases taken
    exact .keep
  · cases taken

/-- What a step of the reaper is. -/
theorem stepReaper_rule {cfg : Settings} {s s' : World} {reaper reaper' : Reaper}
    {outcome : Outcome} (taken : s.stepReaper cfg reaper outcome = some (s', reaper')) :
    ReaperStep cfg s reaper outcome s' reaper' := by
  unfold stepReaper at taken
  split at taken
  · cases taken
    exact .requeue
  · cases taken
    exact .unread
  · cases taken
    exact .enqueued
  · cases taken
    exact .enqueuePending
  · cases taken
    exact .sweep
  · cases taken
    exact .unswept
  · split at taken
    · rename_i booted
      cases taken
      exact .reap booted
    · cases taken
  · obtain ⟨jobs, committed, same⟩ := Option.map_eq_some_iff.mp taken
    cases same
    exact .recover committed
  · cases taken
    exact .unrecovered
  · cases taken
    exact .requeued
  · cases taken
    exact .enqueue
  · cases taken
    exact .finish
  · obtain ⟨bundle, -, same⟩ := Option.map_eq_some_iff.mp taken
    cases same
    exact .restore
  · split at taken
    · cases taken
    · cases taken
      exact .restore
  · cases taken
    exact .unrestored
  · obtain ⟨sent, answered, same⟩ := Option.map_eq_some_iff.mp taken
    cases same
    exact .notify answered
  · cases taken
    exact .discard
  · cases taken
    exact .keep
  · cases taken

/-- What a step of a request is. -/
theorem stepRequest_rule {s s' : World} {request request' : Request} {outcome : Outcome}
    (taken : s.stepRequest request outcome = some (s', request')) :
    RequestStep s request outcome s' request' := by
  unfold stepRequest at taken
  split at taken
  · cases taken
    exact .write
  · cases taken
    exact .unwritten
  · cases taken
    exact .torn
  · cases taken
    exact .insert
  · cases taken
    exact .uncommitted
  · cases taken
    exact .refresh
  · cases taken
    exact .unrefreshed
  · cases taken
    exact .enqueue
  · cases taken
    exact .rollback
  · cases taken
    exact .stuck
  · cases taken
    exact .discard
  · cases taken
    exact .keep
  · cases taken

/-- What a step of the cleaner is. -/
theorem stepCleaner_rule {cfg : Settings} {s s' : World} {cleaner cleaner' : Cleaner}
    {outcome : Outcome} (taken : s.stepCleaner cfg cleaner outcome = some (s', cleaner')) :
    CleanerStep cfg s cleaner outcome s' cleaner' := by
  unfold stepCleaner at taken
  split at taken
  · split at taken
    · rename_i booted
      cases taken
      exact .purge booted
    · cases taken
  · cases taken
    exact .read
  · cases taken
    exact .unread
  · cases taken
    exact .start
  · cases taken
    split
    · rename_i orphan
      exact .remove orphan
    · exact .pass
  · cases taken
    exact .finish
  · cases taken

end World

open World

/-- The steps of the system. -/
inductive Step (cfg : Settings) (s : World) : Action → World → Prop where
  | crash : Step cfg s .crash s.boot
  | tick : Step cfg s .tick { s with clock := s.clock + 1 }
  | receive {bundle : IngestBundle} (booted : s.booted = true) :
      Step cfg s (.receive bundle) { s with requests := s.requests ++ [.writing bundle] }
  | worker {index : Nat} {outcome : Outcome} {old new : Worker} {s' : World}
      (found : s.workers[index]? = some old) (moved : s.WorkerStep old outcome s' new) :
      Step cfg s (.worker index outcome) { s' with workers := s'.workers.set index new }
  | request {index : Nat} {outcome : Outcome} {old new : Request} {s' : World}
      (found : s.requests[index]? = some old) (moved : s.RequestStep old outcome s' new) :
      Step cfg s (.request index outcome) { s' with requests := s'.requests.set index new }
  | reaper {outcome : Outcome} {new : Reaper} {s' : World}
      (moved : s.ReaperStep cfg s.reaper outcome s' new) :
      Step cfg s (.reaper outcome) { s' with reaper := new }
  | reconciler {outcome : Outcome} {new : Reconciler} {s' : World}
      (moved : s.ReconcilerStep s.reconciler outcome s' new) :
      Step cfg s (.reconciler outcome) { s' with reconciler := new }
  | cleaner {outcome : Outcome} {new : Cleaner} {s' : World}
      (moved : s.CleanerStep cfg s.cleaner outcome s' new) :
      Step cfg s (.cleaner outcome) { s' with cleaner := new }

/-- What a step of the system is. -/
theorem step_rule {cfg : Settings} {s s' : World} {action : Action}
    (taken : step cfg s action = some s') : Step cfg s action s' := by
  cases action with
  | crash =>
    cases taken
    exact .crash
  | tick =>
    cases taken
    exact .tick
  | receive bundle =>
    simp only [step] at taken
    split at taken
    · rename_i booted
      cases taken
      exact .receive booted
    · cases taken
  | worker index outcome =>
    obtain ⟨worker, found, rest⟩ := Option.bind_eq_some_iff.mp taken
    obtain ⟨after, moved, same⟩ := Option.bind_eq_some_iff.mp rest
    cases same
    exact .worker found (stepWorker_rule moved)
  | request index outcome =>
    obtain ⟨request, found, rest⟩ := Option.bind_eq_some_iff.mp taken
    obtain ⟨after, moved, same⟩ := Option.bind_eq_some_iff.mp rest
    cases same
    exact .request found (stepRequest_rule moved)
  | reaper outcome =>
    obtain ⟨after, moved, same⟩ := Option.bind_eq_some_iff.mp taken
    cases same
    exact .reaper (stepReaper_rule moved)
  | reconciler outcome =>
    obtain ⟨after, moved, same⟩ := Option.bind_eq_some_iff.mp taken
    cases same
    exact .reconciler (stepReconciler_rule moved)
  | cleaner outcome =>
    obtain ⟨after, moved, same⟩ := Option.bind_eq_some_iff.mp taken
    cases same
    exact .cleaner (stepCleaner_rule moved)

/-! ## Frames -/

/-- What a task's step leaves alone: every task's position, the clock and the
stage; ids are only used up. -/
structure Frame (s s' : World) : Prop where
  workers : s'.workers = s.workers
  requests : s'.requests = s.requests
  reaper : s'.reaper = s.reaper
  reconciler : s'.reconciler = s.reconciler
  cleaner : s'.cleaner = s.cleaner
  clock : s'.clock = s.clock
  booted : s'.booted = s.booted
  nextJob : s.nextJob ≤ s'.nextJob
  nextFile : s.nextFile ≤ s'.nextFile

/-- Nothing has changed. -/
theorem Frame.refl (s : World) : Frame s s :=
  ⟨rfl, rfl, rfl, rfl, rfl, rfl, rfl, Nat.le_refl _,
      Nat.le_refl _⟩

/-- A delivery changes the reports only. -/
theorem Frame.of_post {s s' : World} {bundle : IngestBundle} {report : Report}
    {outcome : Outcome} {delivery : Delivery}
    (sent : s.deliver bundle report outcome = some (s', delivery)) : Frame s s' := by
  rcases deliver_posts sent with rfl | ⟨key, keyed, rfl⟩
  · exact .refl _
  · exact ⟨rfl, rfl, rfl, rfl, rfl, rfl, rfl, Nat.le_refl _,
      Nat.le_refl _⟩

section

variable {cfg : Settings} {s s' : World} {outcome : Outcome}

/-- What a worker leaves alone. -/
theorem World.WorkerStep.frame {old new : Worker} (moved : s.WorkerStep old outcome s' new) :
    Frame s s' := by
  cases moved with
  | notify sent => exact .of_post sent
  | _ => exact ⟨rfl, rfl, rfl, rfl, rfl, rfl, rfl, Nat.le_refl _,
      Nat.le_refl _⟩

/-- What the reconciler leaves alone. -/
theorem World.ReconcilerStep.frame {old new : Reconciler}
    (moved : s.ReconcilerStep old outcome s' new) : Frame s s' := by
  cases moved with
  | _ => exact ⟨rfl, rfl, rfl, rfl, rfl, rfl, rfl, Nat.le_refl _,
      Nat.le_refl _⟩

/-- The reaper's step may end the startup. -/
theorem World.ReaperStep.frame {old new : Reaper} (moved : s.ReaperStep cfg old outcome s' new) :
    Frame { s with booted := s'.booted } s' := by
  cases moved with
  | notify sent =>
    have kept := Frame.of_post sent
    rw [kept.booted]
    exact kept
  | _ => exact ⟨rfl, rfl, rfl, rfl, rfl, rfl, rfl, Nat.le_refl _, Nat.le_refl _⟩

/-- The reaper ends the startup when it goes to sleep. -/
theorem World.ReaperStep.booted {old new : Reaper} (moved : s.ReaperStep cfg old outcome s' new) :
    s'.booted = s.booted ∨ (s'.booted = true ∧ new = .sleeping) := by
  cases moved with
  | unread | unswept | unrecovered | finish => exact Or.inr ⟨rfl, rfl⟩
  | notify sent => exact Or.inl (Frame.of_post sent).booted
  | _ => exact Or.inl rfl

/-- What a request leaves alone. -/
theorem World.RequestStep.frame {old new : Request} (moved : s.RequestStep old outcome s' new) :
    Frame s s' := by
  cases moved with
  | write | torn => exact ⟨rfl, rfl, rfl, rfl, rfl, rfl, rfl, Nat.le_refl _, Nat.le_succ _⟩
  | insert => exact ⟨rfl, rfl, rfl, rfl, rfl, rfl, rfl, Nat.le_succ _, Nat.le_refl _⟩
  | _ => exact ⟨rfl, rfl, rfl, rfl, rfl, rfl, rfl, Nat.le_refl _,
      Nat.le_refl _⟩

/-- What the cleaner leaves alone. -/
theorem World.CleanerStep.frame {old new : Cleaner}
    (moved : s.CleanerStep cfg old outcome s' new) : Frame s s' := by
  cases moved with
  | _ => exact ⟨rfl, rfl, rfl, rfl, rfl, rfl, rfl, Nat.le_refl _,
      Nat.le_refl _⟩

end

/-! ## The table -/

/-- The writes that a step commits. -/
def writes (cfg : Settings) (s : World) : Action → List Write
  | .worker index .returns => (s.workers[index]?.bind Worker.write).toList
  | .reconciler .returns => s.reconciler.write.toList
  | .reaper .returns => s.reaper.batch.map (recovery cfg)
  | _ => []

/-- How a step can change the row of a job. -/
inductive RowChange (s : World) (committed : List Write) (s' : World) (job : JobId) : Prop where
  | kept (same : s'.jobs job = s.jobs job)
  | written {w : Write} (member : w ∈ committed) (here : w.job = job)
      (value : s'.jobs job = (s.jobs job).map (IngestJob.overwrite w.loaded w.target))
  | inserted {bundle : IngestBundle} {path : FileName} (next : job = s.nextJob)
      (value : s'.jobs job = some (newRow bundle path))
  | purged {row : IngestJob} (stored : s.jobs job = some row)
      (terminal : row.status.terminal = true) (gone : s'.jobs job = none)

end RcaBackend
