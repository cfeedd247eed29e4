import RcaBackend.Contracts
import Mathlib.Logic.Function.Basic

/-!
# The `ingest_job` table and what a commit does to it

A session loads a row, assigns attributes and commits. The commit sends an
UPDATE by primary key for the columns whose assigned value differs from the
loaded one, and nothing when there is none; it takes no lock and checks no
version, so the columns it does not send keep whatever the database holds by
then. An UPDATE whose row has been deleted makes the commit raise.

`created_at` and `updated_at` are left out. Which rows a cutoff on `updated_at`
selects is decided by the environment.
-/

namespace RcaBackend

abbrev JobId := Nat

/-- `IngestJob.status`. -/
inductive Status where
  | pending | running | delivering | done | failed
deriving DecidableEq, Repr

/-- `TERMINAL_STATUSES`. -/
def Status.terminal : Status → Bool
  | .done | .failed => true
  | .pending | .running | .delivering => false

/-- `SIGNAL` files are renamed from `.tmp` to `.json` when they are complete. -/
inductive Suffix where
  | json | tmp
deriving DecidableEq, Repr

/-- The name of a file in the storage directory; the stem is `uuid4().hex`. -/
structure FileName where
  stem : Nat
  suffix : Suffix
deriving DecidableEq, Repr

/-- A row of `ingest_job`. The `bundle` column is given by the bundle it
validates to: without the three arrays if these went to a file. -/
structure IngestJob where
  status : Status
  bundle : IngestBundle
  signalsPath : Option FileName
  result : Option Json
  error : Option PyStr
  requeueCount : Nat
deriving DecidableEq

/-- The table, by primary key. -/
abbrev JobTable := JobId → Option IngestJob

/-- A row that a session loaded with the given status. -/
abbrev RowIn (status : Status) := {row : IngestJob // row.status = status}

namespace IngestJob

/-- The row after an UPDATE of the columns that the session changed. No code
assigns `bundle` or `signals_path`. -/
def overwrite (loaded target row : IngestJob) : IngestJob :=
  { row with
    status := if target.status = loaded.status then row.status else target.status
    result := if target.result = loaded.result then row.result else target.result
    error := if target.error = loaded.error then row.error else target.error
    requeueCount :=
      if target.requeueCount = loaded.requeueCount then row.requeueCount
      else target.requeueCount }

@[simp] theorem overwrite_bundle (loaded target row : IngestJob) :
    (overwrite loaded target row).bundle = row.bundle := rfl

@[simp] theorem overwrite_signalsPath (loaded target row : IngestJob) :
    (overwrite loaded target row).signalsPath = row.signalsPath := rfl

/-- A write that assigns a new status sets it; another leaves it alone. -/
theorem overwrite_status (loaded target row : IngestJob) :
    (overwrite loaded target row).status =
      if target.status = loaded.status then row.status else target.status := rfl

end IngestJob

/-- What one session is about to commit: the row as loaded and as assigned. -/
structure Write where
  job : JobId
  loaded : IngestJob
  target : IngestJob

namespace JobTable

/-- The committed status of a job. -/
def statusOf (jobs : JobTable) (job : JobId) : Option Status := (jobs job).map (·.status)

/-- The table after the UPDATE of one write. -/
def overwritten (jobs : JobTable) (w : Write) : JobTable :=
  Function.update jobs w.job ((jobs w.job).map (IngestJob.overwrite w.loaded w.target))

/-- `db.commit()` of a session with one loaded row; `none` where it raises. -/
def commit (jobs : JobTable) (w : Write) : Option JobTable :=
  if w.target ≠ w.loaded ∧ jobs w.job = none then none else some (jobs.overwritten w)

/-- `db.commit()` of a session with several loaded rows, all or none. -/
def commitAll (jobs : JobTable) : List Write → Option JobTable
  | [] => some jobs
  | w :: rest => (jobs.commit w).bind fun jobs => jobs.commitAll rest

/-- `SELECT ... WHERE status = ...`, in primary key order. -/
def select (jobs : JobTable) (bound : JobId) (status : Status) : List (JobId × RowIn status) :=
  (List.range bound).filterMap fun job =>
    match jobs job with
    | some row => if same : row.status = status then some (job, ⟨row, same⟩) else none
    | none => none

/-! ## What the operations do -/

theorem commit_eq {jobs jobs' : JobTable} {w : Write} (committed : jobs.commit w = some jobs') :
    jobs' = jobs.overwritten w := by
  unfold commit at committed
  split at committed
  · cases committed
  · exact (Option.some.inj committed).symm

/-- A commit that changes a column has found its row. -/
theorem commit_found {jobs jobs' : JobTable} {w : Write} (committed : jobs.commit w = some jobs')
    (changed : w.target ≠ w.loaded) : ∃ row, jobs w.job = some row := by
  unfold commit at committed
  split at committed
  · cases committed
  · rename_i found
    exact Option.ne_none_iff_exists'.mp fun missing => found ⟨changed, missing⟩

/-- Rows that no write of the transaction names keep their value. -/
theorem commitAll_other {jobs jobs' : JobTable} {ws : List Write}
    (committed : jobs.commitAll ws = some jobs') {job : JobId} (other : job ∉ ws.map Write.job) :
    jobs' job = jobs job := by
  induction ws generalizing jobs with
  | nil =>
    obtain rfl : jobs = jobs' := Option.some.inj committed
    rfl
  | cons w rest inductionHypothesis =>
    simp only [List.map_cons, List.mem_cons, not_or] at other
    obtain ⟨middle, first, remaining⟩ := Option.bind_eq_some_iff.mp committed
    rw [inductionHypothesis remaining other.2, commit_eq first]
    exact Function.update_of_ne other.1 _ _

/-- A transaction over distinct jobs updates each row by its own write. -/
theorem commitAll_mem {jobs jobs' : JobTable} {ws : List Write}
    (committed : jobs.commitAll ws = some jobs') (distinct : (ws.map Write.job).Nodup)
    {w : Write} (member : w ∈ ws) :
    jobs' w.job = (jobs w.job).map (IngestJob.overwrite w.loaded w.target) := by
  induction ws generalizing jobs with
  | nil => cases member
  | cons first rest inductionHypothesis =>
    obtain ⟨fresh, distinct⟩ := List.nodup_cons.mp distinct
    obtain ⟨middle, written, remaining⟩ := Option.bind_eq_some_iff.mp committed
    have updated := commit_eq written
    rcases List.mem_cons.mp member with same | later
    · rw [same, commitAll_other remaining fresh, updated]
      exact Function.update_self _ _ _
    · have other : w.job ≠ first.job := fun same =>
        fresh (same ▸ List.mem_map_of_mem later)
      rw [inductionHypothesis remaining distinct later, updated]
      exact congrArg _ (Function.update_of_ne other _ _)

theorem overwritten_other {jobs : JobTable} {w : Write} {job : JobId} (other : job ≠ w.job) :
    jobs.overwritten w job = jobs job := Function.update_of_ne other _ _

theorem overwritten_self (jobs : JobTable) (w : Write) :
    jobs.overwritten w w.job = (jobs w.job).map (IngestJob.overwrite w.loaded w.target) :=
  Function.update_self _ _ _

/-- A commit that changes the status of a row assigns it. -/
theorem commit_status {jobs jobs' : JobTable} {w : Write} (committed : jobs.commit w = some jobs')
    (changed : w.target.status ≠ w.loaded.status) :
    jobs'.statusOf w.job = (jobs w.job).map fun _ => w.target.status := by
  rw [commit_eq committed, statusOf, overwritten_self, Option.map_map]
  refine congrArg (fun f => Option.map f (jobs w.job)) (funext fun row => ?_)
  exact if_neg changed

/-- A selected row is in the table, with the status asked for. -/
theorem mem_select {jobs : JobTable} {bound : JobId} {status : Status} {job : JobId}
    {row : RowIn status} (selected : (job, row) ∈ jobs.select bound status) :
    jobs job = some row.1 ∧ job < bound := by
  obtain ⟨id, inRange, found⟩ := List.mem_filterMap.mp selected
  split at found
  · rename_i stored present
    split at found
    · obtain ⟨rfl, rfl⟩ := Prod.mk.inj (Option.some.inj found)
      exact ⟨present, List.mem_range.mp inRange⟩
    · cases found
  · cases found

/-- Every row with the status is selected. -/
theorem select_complete {jobs : JobTable} {bound : JobId} {status : Status} {job : JobId}
    {row : IngestJob} (present : jobs job = some row) (same : row.status = status)
    (below : job < bound) : (job, ⟨row, same⟩) ∈ jobs.select bound status := by
  refine List.mem_filterMap.mpr ⟨job, List.mem_range.mpr below, ?_⟩
  simp [present, same]

/-- The selected ids, in primary key order. -/
theorem select_ids (jobs : JobTable) (bound : JobId) (status : Status) :
    (jobs.select bound status).map Prod.fst =
      (List.range bound).filter fun job => jobs.statusOf job = some status := by
  unfold select
  induction List.range bound with
  | nil => rfl
  | cons job rest inductionHypothesis =>
    cases present : jobs job with
    | none => simp [present, statusOf, inductionHypothesis]
    | some row =>
      by_cases same : row.status = status
      · simp [present, same, statusOf, inductionHypothesis]
      · simp [present, same, statusOf, inductionHypothesis]

/-- No job is selected twice. -/
theorem select_nodup (jobs : JobTable) (bound : JobId) (status : Status) :
    ((jobs.select bound status).map Prod.fst).Nodup := by
  rw [select_ids]
  exact List.nodup_range.filter _

/-- The ids that a SELECT returns are those of the rows with the status. -/
theorem mem_select_ids {jobs : JobTable} {bound : JobId} {status : Status} {job : JobId} :
    job ∈ (jobs.select bound status).map Prod.fst ↔
      job < bound ∧ jobs.statusOf job = some status := by
  rw [select_ids, List.mem_filter, List.mem_range, decide_eq_true_eq]

end JobTable

end RcaBackend
