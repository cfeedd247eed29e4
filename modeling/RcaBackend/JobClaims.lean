import RcaBackend.JobSteps
import Mathlib.Data.List.Nodup

/-!
# Unstarted claims on a job

A job whose analysis has yet to start is claimed by a queue entry, by a worker
before its first commit, or by a reaper or request about to enqueue it.
`JobChange` lists what one step can do to the row, the claims and the number of
starts of one job. `Sound` holds on every run, whatever crashes or raises: a job
has at most one such claim, and a RUNNING job has none.
-/

namespace RcaBackend

open World

/-- One if the position concerns the job. -/
def claim (position : Option JobId) (job : JobId) : Nat := if position = some job then 1 else 0

/-- Nobody has no claim. -/
@[simp] theorem claim_none (job : JobId) : claim none job = 0 := rfl

/-- A holder has one claim on its own job. -/
theorem claim_self (job : JobId) : claim (some job) job = 1 := if_pos rfl

/-- And none on another one. -/
theorem claim_other {own job : JobId} (other : own ≠ job) : claim (some own) job = 0 :=
  if_neg fun same => other (Option.some.inj same)

namespace World

/-- The claims on a job that may still start its analysis. -/
def unstarted (s : World) (job : JobId) : Nat :=
  s.queue.count job + s.workers.countP (fun worker => worker.fresh = some job) +
    s.reaper.backlog.count job + s.requests.countP (fun request => request.backlog = some job)

/-- What a row holds after the write, if there is a row. -/
def Applies (s s' : World) (w : Write) (job : JobId) : Prop :=
  w.job = job ∧ s'.jobs job = (s.jobs job).map (IngestJob.overwrite w.loaded w.target)

end World

/-- What a step can do to one job. -/
inductive JobChange (cfg : Settings) (s : World) (action : Action) (s' : World) (job : JobId) :
    Prop where
  | idle (row : s'.jobs job = s.jobs job) (claims : s'.unstarted job = s.unstarted job)
      (starts : s'.starts job = s.starts job)
  | crashed (crash : action = .crash) (row : s'.jobs job = s.jobs job)
      (claims : s'.unstarted job = 0) (starts : s'.starts job = s.starts job)
  | abandoned {index : Nat} {reason : PyStr} {worker : Worker}
      (raised : action = .worker index (.raises reason)) (found : s.workers[index]? = some worker)
      (fresh : worker.fresh = some job) (row : s'.jobs job = s.jobs job)
      (claims : s'.unstarted job + 1 = s.unstarted job) (starts : s'.starts job = s.starts job)
  | vanished (missing : s.jobs job = none) (row : s'.jobs job = none)
      (claims : s'.unstarted job + 1 = s.unstarted job) (starts : s'.starts job = s.starts job)
  | forgone {index : Nat} {loaded : IngestJob} {reason : PyStr}
      (committing : action = .worker index .returns)
      (found : s.workers[index]? = some (.committingMissing job loaded reason))
      (applied : s.Applies s' (.missing job loaded reason) job)
      (claims : s'.unstarted job + 1 = s.unstarted job) (starts : s'.starts job = s.starts job)
  | started {index : Nat} {loaded : IngestJob} {bundle : IngestBundle}
      (committing : action = .worker index .returns)
      (found : s.workers[index]? = some (.committingRunning job loaded bundle))
      (committed : ∃ jobs, s.jobs.commit (.running job loaded) = some jobs)
      (applied : s.Applies s' (.running job loaded) job)
      (claims : s'.unstarted job + 1 = s.unstarted job)
      (starts : s'.starts job = s.starts job + 1)
  | concluded {index : Nat} {worker : Worker} {w : Write}
      (committing : action = .worker index .returns) (found : s.workers[index]? = some worker)
      (late : worker.fresh = none) (pending : worker.write = some w) (applied : s.Applies s' w job)
      (claims : s'.unstarted job = s.unstarted job) (starts : s'.starts job = s.starts job)
  | reconciled {w : Write} (committing : action = .reconciler .returns)
      (pending : s.reconciler.write = some w) (applied : s.Applies s' w job)
      (claims : s'.unstarted job = s.unstarted job) (starts : s'.starts job = s.starts job)
  | recovered {entry : JobId × RowIn .running} (committing : action = .reaper .returns)
      (selected : entry ∈ s.reaper.batch) (applied : s.Applies s' (recovery cfg entry) job)
      (claims : s'.unstarted job = s.unstarted job + if requeues cfg entry.2 then 1 else 0)
      (starts : s'.starts job = s.starts job)
  | requeued (listing : action = .reaper .returns) (reading : s.reaper = .requeuing)
      (pending : s.jobs.statusOf job = some .pending) (row : s'.jobs job = s.jobs job)
      (claims : s'.unstarted job = s.unstarted job + 1) (starts : s'.starts job = s.starts job)
  | inserted {index : Nat} {bundle : IngestBundle} {path : FileName}
      (committing : action = .request index .returns)
      (found : s.requests[index]? = some (.committing bundle path)) (next : job = s.nextJob)
      (advanced : s'.nextJob = s.nextJob + 1) (row : s'.jobs job = some (newRow bundle path))
      (claims : s'.unstarted job = s.unstarted job + 1) (starts : s'.starts job = s.starts job)
  | unlisted {index : Nat} {reason : PyStr} {path : FileName}
      (raised : action = .request index (.raises reason))
      (found : s.requests[index]? = some (.refreshing job path)) (row : s'.jobs job = s.jobs job)
      (claims : s'.unstarted job + 1 = s.unstarted job) (starts : s'.starts job = s.starts job)
  | purged {stored : IngestJob} (booted : s.booted = true) (present : s.jobs job = some stored)
      (terminal : stored.status.terminal = true) (row : s'.jobs job = none)
      (claims : s'.unstarted job = s.unstarted job) (starts : s'.starts job = s.starts job)

/-! ## Counting the claims after a step -/

section Counting

variable {s t : World} {index : Nat} {job : JobId}

/-- A worker's step changes the claims by its queue operation and its position. -/
theorem unstarted_worker (lost gained : Nat) {old new : Worker}
    (found : s.workers[index]? = some old) (workers : t.workers = s.workers.set index new)
    (requests : t.requests = s.requests) (reaper : t.reaper = s.reaper)
    (balanced : t.queue.count job + claim new.fresh job + lost =
      s.queue.count job + claim old.fresh job + gained) :
    t.unstarted job + lost = s.unstarted job + gained := by
  have counted := TransitionSystem.countP_set (fun worker => worker.fresh = some job) s.workers
    index old new found
  simp only [decide_eq_true_eq] at counted
  simp only [claim] at balanced
  simp only [unstarted, workers, requests, reaper]
  omega

/-- A request's step changes the claims by its queue operation and its position. -/
theorem unstarted_request (lost gained : Nat) {old new : Request}
    (found : s.requests[index]? = some old) (requests : t.requests = s.requests.set index new)
    (workers : t.workers = s.workers) (reaper : t.reaper = s.reaper)
    (balanced : t.queue.count job + claim new.backlog job + lost =
      s.queue.count job + claim old.backlog job + gained) :
    t.unstarted job + lost = s.unstarted job + gained := by
  have counted := TransitionSystem.countP_set (fun request => request.backlog = some job)
    s.requests index old new found
  simp only [decide_eq_true_eq] at counted
  simp only [claim] at balanced
  simp only [unstarted, workers, requests, reaper]
  omega

/-- A reaper's step changes the claims by its queue operation and its backlog. -/
theorem unstarted_reaper (gained : Nat) {new : Reaper} (reaper : t.reaper = new)
    (workers : t.workers = s.workers) (requests : t.requests = s.requests)
    (balanced : t.queue.count job + new.backlog.count job =
      s.queue.count job + s.reaper.backlog.count job + gained) :
    t.unstarted job = s.unstarted job + gained := by
  simp only [unstarted, workers, requests, reaper]
  omega

end Counting

/-! ## The step lemma -/

section Steps

variable {cfg : Settings} {s s' : World}

/-- A single write changes the row of its own job only. -/
theorem applies_or_other (s' : World) {w : Write} {jobs : JobTable}
    (committed : s.jobs.commit w = some jobs) (table : s'.jobs = jobs)
    (job : JobId) : s.Applies s' w job ∨ (w.job ≠ job ∧ s'.jobs job = s.jobs job) := by
  rw [JobTable.commit_eq committed] at table
  by_cases here : w.job = job
  · refine Or.inl ⟨here, ?_⟩
    rw [table, ← here]
    exact JobTable.overwritten_self _ _
  · refine Or.inr ⟨here, ?_⟩
    rw [table]
    exact JobTable.overwritten_other fun same => here same.symm

/-- What a step of a worker does to a job. -/
theorem worker_change {index : Nat} {outcome : Outcome} {old new : Worker}
    (found : s.workers[index]? = some old) (moved : s.WorkerStep old outcome s' new) (job : JobId) :
    JobChange cfg s (.worker index outcome) { s' with workers := s'.workers.set index new } job := by
  cases moved with
  | take queued =>
    refine .idle rfl (unstarted_worker 0 0 found rfl rfl rfl ?_) rfl
    simp only [queued, List.count_cons, Worker.fresh, claim, beq_iff_eq, Option.some.injEq,
      reduceCtorEq, if_false]
  | absent missing =>
    rename_i own
    by_cases mine : own = job
    · subst mine
      refine .vanished missing missing (unstarted_worker 1 0 found rfl rfl rfl ?_) rfl
      simp only [Worker.fresh, claim_self, claim_none]
    · refine .idle rfl (unstarted_worker 0 0 found rfl rfl rfl ?_) rfl
      simp only [Worker.fresh, claim_other mine, claim_none]
  | abandon fresh =>
    rename_i own reason
    by_cases mine : own = job
    · subst mine
      refine .abandoned rfl found fresh rfl (unstarted_worker 1 0 found rfl rfl rfl ?_) rfl
      rw [fresh, claim_self]
      rfl
    · refine .idle rfl (unstarted_worker 0 0 found rfl rfl rfl ?_) rfl
      rw [fresh, claim_other mine]
      rfl
  | forgo committed =>
    rename_i own row reason jobs
    rcases applies_or_other { s with jobs } committed rfl job with applied | ⟨mine, kept⟩
    · obtain rfl : own = job := applied.1
      refine .forgone rfl found applied (unstarted_worker 1 0 found rfl rfl rfl ?_) rfl
      simp only [Worker.fresh, claim_self, claim_none]
    · refine .idle kept (unstarted_worker 0 0 found rfl rfl rfl ?_) rfl
      simp only [Worker.fresh, claim_other (show own ≠ job from mine), claim_none]
  | start committed =>
    rename_i own row bundle jobs
    rcases applies_or_other { s.countStart own with jobs } committed rfl job with
      applied | ⟨mine, kept⟩
    · obtain rfl : own = job := applied.1
      refine .started rfl found ⟨_, committed⟩ applied
        (unstarted_worker 1 0 found rfl rfl rfl ?_) (Function.update_self _ _ _)
      simp only [countStart, Worker.fresh, claim_self, claim_none]
    · replace mine : own ≠ job := mine
      refine .idle kept (unstarted_worker 0 0 found rfl rfl rfl ?_)
        (Function.update_of_ne mine.symm _ _)
      simp only [countStart, Worker.fresh, claim_other mine, claim_none]
  | store committed | finish committed | fail committed | mark committed =>
    rcases applies_or_other { s with jobs := _ } committed rfl job with
      applied | ⟨mine, kept⟩
    · exact .concluded rfl found rfl rfl applied (unstarted_worker 0 0 found rfl rfl rfl rfl) rfl
    · exact .idle kept (unstarted_worker 0 0 found rfl rfl rfl rfl) rfl
  | notify sent =>
    rcases deliver_posts sent with rfl | ⟨key, keyed, rfl⟩
    · exact .idle rfl (unstarted_worker 0 0 found rfl rfl rfl rfl) rfl
    · exact .idle rfl (unstarted_worker 0 0 found rfl rfl rfl rfl) rfl
  | _ => exact .idle rfl (unstarted_worker 0 0 found rfl rfl rfl rfl) rfl

/-- What a step of a request does to a job. -/
theorem request_change {index : Nat} {outcome : Outcome} {old new : Request}
    (found : s.requests[index]? = some old) (moved : s.RequestStep old outcome s' new)
    (job : JobId) :
    JobChange cfg s (.request index outcome)
      { s' with requests := s'.requests.set index new } job := by
  cases moved with
  | insert =>
    by_cases next : s.nextJob = job
    · subst next
      refine .inserted rfl found rfl rfl (Function.update_self _ _ _)
        (unstarted_request 0 1 found rfl rfl rfl ?_) rfl
      simp only [Request.backlog, claim_self, claim_none]
    · refine .idle (Function.update_of_ne (Ne.symm next) _ _)
        (unstarted_request 0 0 found rfl rfl rfl ?_) rfl
      simp only [Request.backlog, claim_other next, claim_none]
  | unrefreshed =>
    rename_i own path reason
    by_cases mine : own = job
    · subst mine
      refine .unlisted rfl found rfl (unstarted_request 1 0 found rfl rfl rfl ?_) rfl
      simp only [Request.backlog, claim_self, claim_none]
    · refine .idle rfl (unstarted_request 0 0 found rfl rfl rfl ?_) rfl
      simp only [Request.backlog, claim_other mine, claim_none]
  | enqueue =>
    refine .idle rfl (unstarted_request 0 0 found rfl rfl rfl ?_) rfl
    simp only [World.enqueue, List.count_append, List.count_singleton, Request.backlog, claim,
      beq_iff_eq, Option.some.injEq, reduceCtorEq, if_false]
  | _ => exact .idle rfl (unstarted_request 0 0 found rfl rfl rfl rfl) rfl

/-- What a step of the reconciler does to a job. -/
theorem reconciler_change {outcome : Outcome} {new : Reconciler}
    (moved : s.ReconcilerStep s.reconciler outcome s' new) (job : JobId) :
    JobChange cfg s (.reconciler outcome) { s' with reconciler := new } job := by
  generalize position : s.reconciler = old at moved
  cases moved with
  | mark committed =>
    rcases applies_or_other { s with jobs := _ } committed rfl job with
      applied | ⟨mine, kept⟩
    · exact .reconciled rfl (by rw [position]; rfl) applied rfl rfl
    · exact .idle kept rfl rfl
  | _ => exact .idle rfl rfl rfl

/-- Nothing is left to be enqueued after a SELECT. -/
@[simp] theorem afterSelect_backlog (batch : Batch) : (afterSelect batch).backlog = [] := by
  unfold afterSelect
  split <;> rfl

/-- The sweep enqueues the selected rows that it does not fail, each once. -/
theorem count_toEnqueue (batch : Batch) {entry : JobId × RowIn .running}
    (selected : entry ∈ batch.rows) :
    (toEnqueue cfg batch.rows).count entry.1 = if requeues cfg entry.2 then 1 else 0 := by
  have distinct : (toEnqueue cfg batch.rows).Nodup :=
    batch.distinct.sublist (List.filter_sublist.map _)
  split
  · rename_i requeued
    exact List.count_eq_one_of_mem distinct <| List.mem_map_of_mem (List.mem_filter.mpr ⟨selected, requeued⟩)
  · rename_i failed
    apply List.count_eq_zero.mpr
    intro listed
    obtain ⟨other, member, same⟩ := List.mem_map.mp listed
    obtain ⟨present, requeued⟩ := List.mem_filter.mp member
    have : other = entry := List.inj_on_of_nodup_map batch.distinct present selected same
    exact failed (this ▸ requeued)

/-- What a step of the reaper does to a job. -/
theorem reaper_change {outcome : Outcome} {new : Reaper}
    (moved : s.ReaperStep cfg s.reaper outcome s' new) (job : JobId) :
    JobChange cfg s (.reaper outcome) { s' with reaper := new } job := by
  generalize position : s.reaper = old at moved
  cases moved with
  | requeue =>
    have distinct := s.jobs.select_nodup s.nextJob .pending
    by_cases listed : job ∈ (s.jobs.select s.nextJob .pending).map Prod.fst
    · refine .requeued rfl position (JobTable.mem_select_ids.mp listed).2 rfl
        (unstarted_reaper 1 rfl rfl rfl ?_) rfl
      simp only [Reaper.backlog, position, List.count_nil,
        List.count_eq_one_of_mem distinct listed]
    · refine .idle rfl (unstarted_reaper 0 rfl rfl rfl ?_) rfl
      simp only [Reaper.backlog, position, List.count_nil, List.count_eq_zero.mpr listed]
  | recover committed =>
    rename_i batch jobs
    have distinct : ((batch.rows.map (recovery cfg)).map Write.job).Nodup := by
      rw [List.map_map]
      exact batch.distinct
    by_cases selected : job ∈ (batch.rows.map (recovery cfg)).map Write.job
    · obtain ⟨w, member, here⟩ := List.mem_map.mp selected
      obtain ⟨entry, listed, rfl⟩ := List.mem_map.mp member
      obtain rfl : entry.1 = job := here
      have batched : entry ∈ s.reaper.batch := by
        rw [position]
        exact listed
      refine .recovered rfl batched ⟨rfl, JobTable.commitAll_mem committed distinct member⟩
        (unstarted_reaper _ rfl rfl rfl ?_) rfl
      simp only [Reaper.backlog, position, List.count_nil, count_toEnqueue batch listed]
      omega
    · refine .idle (JobTable.commitAll_other committed selected)
        (unstarted_reaper 0 rfl rfl rfl ?_) rfl
      have absent : job ∉ toEnqueue cfg batch.rows := by
        intro listed
        obtain ⟨entry, member, same⟩ := List.mem_map.mp listed
        apply selected
        rw [List.map_map]
        exact List.mem_map.mpr ⟨entry, (List.mem_filter.mp member).1, same⟩
      simp only [Reaper.backlog, position, List.count_nil, List.count_eq_zero.mpr absent]
  | enqueuePending | enqueue =>
    refine .idle rfl (unstarted_reaper 0 rfl rfl rfl ?_) rfl
    simp only [World.enqueue, List.count_append, Reaper.backlog, position, List.count_cons,
      List.count_nil]
    omega
  | sweep | reap =>
    refine .idle rfl (unstarted_reaper 0 rfl rfl rfl ?_) rfl
    simp only [afterSelect_backlog, position]
    rfl
  | notify sent =>
    rcases deliver_posts sent with rfl | ⟨key, keyed, rfl⟩
    · exact .idle rfl (unstarted_reaper 0 rfl rfl rfl (by simp only [position]; rfl)) rfl
    · exact .idle rfl (unstarted_reaper 0 rfl rfl rfl (by simp only [position]; rfl)) rfl
  | _ => exact .idle rfl (unstarted_reaper 0 rfl rfl rfl (by simp only [position]; rfl)) rfl

/-- What a step of the cleaner does to a job. -/
theorem cleaner_change {outcome : Outcome} {new : Cleaner}
    (moved : s.CleanerStep cfg s.cleaner outcome s' new) (job : JobId) :
    JobChange cfg s (.cleaner outcome) { s' with cleaner := new } job := by
  generalize s.cleaner = old at moved
  cases moved with
  | purge booted =>
    rename_i due
    cases stored : s.jobs job with
    | none => exact .idle (by simp [purge, stored]) rfl rfl
    | some row =>
      by_cases gone : row.status.terminal ∧ job ∈ due
      · exact .purged booted stored gone.1 (by simp [purge, stored, gone]) rfl rfl
      · exact .idle (by simp only [purge, stored, gone, if_false]) rfl rfl
  | _ => exact .idle rfl rfl rfl

/-- A new process has claims on no job. -/
theorem unstarted_boot (s : World) (job : JobId) : s.boot.unstarted job = 0 := by
  simp [unstarted, boot, Reaper.backlog, Worker.fresh]

/-- Every step changes every job in one of the listed ways. -/
theorem step_change {action : Action} (taken : Step cfg s action s') (job : JobId) :
    JobChange cfg s action s' job := by
  cases taken with
  | crash =>
    exact .crashed rfl rfl (unstarted_boot s job) rfl
  | tick => exact .idle rfl rfl rfl
  | receive booted =>
    refine .idle rfl ?_ rfl
    simp [unstarted, Request.backlog]
  | worker found moved => exact worker_change found moved job
  | request found moved => exact request_change found moved job
  | reaper moved => exact reaper_change moved job
  | reconciler moved => exact reconciler_change moved job
  | cleaner moved => exact cleaner_change moved job

/-- The commit of a worker is one of the writes of its step. -/
theorem mem_writes_worker (cfg : Settings) {index : Nat} {worker : Worker} {w : Write}
    (found : s.workers[index]? = some worker) (writing : worker.write = some w) :
    w ∈ writes cfg s (.worker index .returns) := by
  simp [writes, found, writing]

/-- The commit of the reconciler is one of the writes of its step. -/
theorem mem_writes_reconciler (cfg : Settings) {w : Write} (writing : s.reconciler.write = some w) :
    w ∈ writes cfg s (.reconciler .returns) := by
  simp [writes, writing]

/-- The row's part of a change. -/
theorem JobChange.row {action : Action} {job : JobId} (change : JobChange cfg s action s' job) :
    RowChange s (writes cfg s action) s' job := by
  cases change with
  | idle row | crashed _ row | abandoned _ _ _ row | requeued _ _ _ row | unlisted _ _ row =>
    exact .kept row
  | vanished missing row => exact .kept (row.trans missing.symm)
  | forgone committing found applied =>
    exact .written (committing ▸ mem_writes_worker cfg found rfl) applied.1 applied.2
  | started committing found _ applied =>
    exact .written (committing ▸ mem_writes_worker cfg found rfl) applied.1 applied.2
  | concluded committing found _ writing applied =>
    exact .written (committing ▸ mem_writes_worker cfg found writing) applied.1 applied.2
  | reconciled committing writing applied =>
    exact .written (committing ▸ mem_writes_reconciler cfg writing) applied.1 applied.2
  | recovered committing selected applied =>
    refine .written ?_ applied.1 applied.2
    rw [committing]
    exact List.mem_map_of_mem selected
  | inserted _ _ next _ row => exact .inserted next row
  | purged _ present terminal row => exact .purged present terminal row

/-- How a step changes the row of a job. -/
theorem step_jobs {action : Action} (taken : Step cfg s action s') (job : JobId) :
    RowChange s (writes cfg s action) s' job := (step_change taken job).row

end Steps

end RcaBackend
