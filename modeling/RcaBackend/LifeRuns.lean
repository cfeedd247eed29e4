import RcaBackend.JobLives

/-!
# Every life is lived

The lives say exactly what can happen to a job: each of them, with no more requeues than the
limit, is the word of some run, with any positive number of workers. The run is built along the
life. Between its statuses the first worker and the reaper stand where the next status can be
reached from, and the other workers stay where they are.
-/

namespace RcaBackend

open World

/-- The statuses of job 1 in some run that ends in the given world. The run starts with one
worker and the given number of others. -/
def Occurs (cfg : Settings) (others : Nat) (s : World) (word : List Status) : Prop :=
  ∃ c : Chronicled, TransitionSystem.Reaches (chronicledStep cfg) (Unhurried cfg)
    ⟨World.initial (others + 1), fun _ => []⟩ c ∧ c.world = s ∧ c.history 1 = word

/-- Job 1 is the only one, and the first worker and the reaper stand at the given positions. -/
structure Solo (s : World) (row : IngestJob) (queue : List JobId) (worker : Worker)
    (reaper : Reaper) : Prop where
  alone : s.jobs 0 = none
  present : s.jobs 1 = some row
  next : s.nextJob = 2
  queue : s.queue = queue
  first : s.workers[0]? = some worker
  reaper : s.reaper = reaper
  booted : s.booted = true
  split : row.signalsPath ≠ none
  stored : s.restored row = some (.bare .epoch)

/-- A run with these statuses ends with job 1 alone and the given positions. -/
def LivesAt (cfg : Settings) (others : Nat) (word : List Status) (row : IngestJob)
    (queue : List JobId) (worker : Worker) (reaper : Reaper) : Prop :=
  ∃ s, Occurs cfg others s word ∧ Solo s row queue worker reaper

section Steps

variable {cfg : Settings} {others : Nat} {s s' : World} {action : Action} {word : List Status}
  {row row' : IngestJob} {queue : List JobId} {worker : Worker} {reaper : Reaper}

/-- One step more. -/
theorem Occurs.next (occurs : Occurs cfg others s word) (uncontended : Uncontended cfg s action)
    (taken : step cfg s action = some s') : Occurs cfg others s' (word ++ entered s s' 1) := by
  obtain ⟨c, reached, rfl, rfl⟩ := occurs
  have recorded : chronicledStep cfg c action =
      some ⟨s', fun job => c.history job ++ entered c.world s' job⟩ := by
    rw [chronicledStep, taken, Option.map_some]
  exact ⟨_, .step reached uncontended recorded, rfl, rfl⟩

/-- A step that keeps the row. -/
theorem Occurs.quiet (occurs : Occurs cfg others s word) (uncontended : Uncontended cfg s action)
    (taken : step cfg s action = some s') (same : s'.jobs = s.jobs) :
    Occurs cfg others s' word := by
  have quiet : entered s s' 1 = [] := entered_same (by rw [same])
  have occurs := occurs.next uncontended taken
  rwa [quiet, List.append_nil] at occurs

/-- A step that gives the row another status. -/
theorem Occurs.enters (occurs : Occurs cfg others s word) (uncontended : Uncontended cfg s action)
    (taken : step cfg s action = some s') (before : s.jobs 1 = some row)
    (now : s'.jobs 1 = some row') (changed : row'.status ≠ row.status) :
    Occurs cfg others s' (word ++ [row'.status]) := by
  have entering : entered s s' 1 = [row'.status] :=
    entered_new now (by simpa [JobTable.statusOf, before] using changed.symm)
  exact entering ▸ occurs.next uncontended taken

/-- A step of the first worker, and its new position. -/
theorem step_solo_worker (cfg : Settings) (first : s.workers[0]? = some worker)
    {outcome : Outcome} {t : World} {worker' : Worker}
    (taken : s.stepWorker worker outcome = some (t, worker')) :
    step cfg s (.worker 0 outcome) = some { t with workers := t.workers.set 0 worker' } := by
  simp [step, first, taken]

/-- The first worker stands where it was put. -/
theorem first_replaced {workers : List Worker} {worker worker' : Worker}
    (first : workers[0]? = some worker) : (workers.set 0 worker')[0]? = some worker' := by
  cases workers with
  | nil => cases first
  | cons head rest => rfl

/-- A worker's step without a commit. -/
theorem LivesAt.work {queue' : List JobId} {worker' : Worker} (outcome : Outcome)
    (lives : LivesAt cfg others word row queue worker reaper)
    (silent : outcome = .returns → worker.write = none)
    (taken : ∀ s, Solo s row queue worker reaper →
      ∃ reports posted, s.stepWorker worker outcome =
        some ({ s with queue := queue', reports, posted }, worker')) :
    LivesAt cfg others word row queue' worker' reaper := by
  obtain ⟨s, occurs, solo⟩ := lives
  obtain ⟨reports, posted, moved⟩ := taken s solo
  have stepped := step_solo_worker cfg solo.first moved
  refine ⟨_, occurs.quiet ?_ stepped rfl, ?_⟩
  · intro w member
    cases outcome with
    | returns => simp [writes, solo.first, silent rfl] at member
    | _ => cases member
  · exact ⟨solo.alone, solo.present, solo.next, rfl, first_replaced solo.first, solo.reaper,
      solo.booted, solo.split, solo.stored⟩

/-- A worker's commit over the row that its session has read. -/
theorem LivesAt.commit {worker' : Worker} {w : Write}
    (lives : LivesAt cfg others word row queue worker reaper)
    (writing : worker.write = some w) (here : w.job = 1) (same : row.status = w.loaded.status)
    (changed : w.target.status ≠ w.loaded.status)
    (taken : ∀ s jobs, Solo s row queue worker reaper → s.jobs.commit w = some jobs →
      ∃ starts startsHere, s.stepWorker worker .returns =
        some ({ s with jobs, starts, startsHere }, worker')) :
    LivesAt cfg others (word ++ [w.target.status]) (IngestJob.overwrite w.loaded w.target row) queue
      worker' reaper := by
  obtain ⟨s, occurs, solo⟩ := lives
  have committed : s.jobs.commit w = some (s.jobs.overwritten w) := by
    rw [JobTable.commit, if_neg]
    simp [here, solo.present]
  obtain ⟨starts, startsHere, moved⟩ := taken s _ solo committed
  have stepped := step_solo_worker cfg solo.first moved
  have now : s.jobs.overwritten w 1 = some (IngestJob.overwrite w.loaded w.target row) := by
    have updated := JobTable.overwritten_self s.jobs w
    rwa [here, solo.present, Option.map_some] at updated
  have status : (IngestJob.overwrite w.loaded w.target row).status = w.target.status := by
    rw [IngestJob.overwrite_status, if_neg changed]
  have other : (IngestJob.overwrite w.loaded w.target row).status ≠ row.status := by
    rw [status, same]
    exact changed
  have uncontended : Uncontended cfg s (.worker 0 .returns) := by
    intro only member stored present
    obtain rfl : only = w := by simpa [writes, solo.first, writing] using member
    rw [here, solo.present] at present
    cases present
    exact same
  have entering := occurs.enters uncontended stepped solo.present now other
  rw [status] at entering
  have elsewhere : s.jobs.overwritten w 0 = s.jobs 0 :=
    JobTable.overwritten_other (by rw [here]; decide)
  exact ⟨_, entering, ⟨elsewhere.trans solo.alone, now, solo.next, solo.queue,
    first_replaced solo.first, solo.reaper, solo.booted, solo.split, solo.stored⟩⟩

/-- A step of the reaper without a commit. -/
theorem LivesAt.reap {queue' : List JobId} {reaper' : Reaper} (outcome : Outcome)
    (lives : LivesAt cfg others word row queue worker reaper)
    (silent : outcome = .returns → reaper.batch = [])
    (taken : ∀ s, Solo s row queue worker reaper → ∃ booted, booted = true ∧
      s.stepReaper cfg reaper outcome = some ({ s with queue := queue', booted }, reaper')) :
    LivesAt cfg others word row queue' worker reaper' := by
  obtain ⟨s, occurs, solo⟩ := lives
  obtain ⟨booted, still, moved⟩ := taken s solo
  have stepped : step cfg s (.reaper outcome) =
      some { s with queue := queue', booted, reaper := reaper' } := by
    simp [step, solo.reaper, moved]
  refine ⟨_, occurs.quiet ?_ stepped rfl, ?_⟩
  · intro w member
    cases outcome with
    | returns => simp [writes, solo.reaper, silent rfl] at member
    | _ => cases member
  · exact ⟨solo.alone, solo.present, solo.next, rfl, solo.first, rfl, still, solo.split,
      solo.stored⟩

end Steps

/-! ## From one status to the next -/

/-- A run with these statuses ends with job 1 at the given status and count. -/
def Stands (cfg : Settings) (others : Nat) (word : List Status) (status : Status) (requeues : Nat)
    (queue : List JobId) (worker : Worker) : Prop :=
  ∃ row, row.status = status ∧ row.requeueCount = requeues ∧
    LivesAt cfg others word row queue worker .sleeping

/-- Where the next status of a life can be reached from. -/
def Poised (cfg : Settings) (others : Nat) (word : List Status) (status : Status)
    (requeues : Nat) : Prop :=
  match status with
  | .pending => Stands cfg others word .pending requeues [1] .idle
  | .running =>
    ∃ loaded, Stands cfg others word .running requeues [] (.analysing 1 loaded (.bare .epoch) 1)
  | .delivering =>
    ∃ path, Stands cfg others word .delivering requeues [] (.delivering 1 path (.bare .epoch))
  | .done => ∃ worker, Stands cfg others word .done requeues [] worker
  | .failed => ∃ worker, Stands cfg others word .failed requeues [] worker

section Advancing

variable {cfg : Settings} {others : Nat} {word : List Status} {row loaded : IngestJob}
  {requeues : Nat} {queue : List JobId} {worker : Worker}

/-- A commit that leaves the count alone. -/
theorem LivesAt.assigns {worker' : Worker} {w : Write}
    (lives : LivesAt cfg others word row queue worker .sleeping)
    (writing : worker.write = some w) (here : w.job = 1) (same : row.status = w.loaded.status)
    (changed : w.target.status ≠ w.loaded.status)
    (unassigned : w.target.requeueCount = w.loaded.requeueCount)
    (taken : ∀ s jobs, Solo s row queue worker .sleeping → s.jobs.commit w = some jobs →
      ∃ starts startsHere, s.stepWorker worker .returns =
        some ({ s with jobs, starts, startsHere }, worker')) :
    Stands cfg others (word ++ [w.target.status]) w.target.status row.requeueCount queue
      worker' := by
  refine ⟨_, ?_, ?_, lives.commit writing here same changed taken⟩
  · rw [IngestJob.overwrite_status, if_neg changed]
  · exact if_pos unassigned

/-- A worker has taken the waiting job and loaded its row. -/
theorem LivesAt.claimed (waiting : LivesAt cfg others word row [1] .idle .sleeping) :
    LivesAt cfg others word row [] (.restoring 1 row) .sleeping := by
  have taken : LivesAt cfg others word row [] (.selecting 1) .sleeping := by
    refine waiting.work .returns (fun _ => rfl) ?_
    intro s solo
    exact ⟨s.reports, s.posted, by simp [stepWorker, solo.queue]⟩
  refine taken.work .returns (fun _ => rfl) ?_
  intro s solo
  refine ⟨s.reports, s.posted, ?_⟩
  simp [stepWorker, solo.present, ← solo.queue]

/-- The worker takes the job and starts it. -/
theorem poised_take (poised : Poised cfg others word .pending requeues) :
    Poised cfg others (word ++ [.running]) .running requeues := by
  obtain ⟨row, pending, rfl, waiting⟩ := poised
  have restored : LivesAt cfg others word row [] (.committingRunning 1 row (.bare .epoch))
      .sleeping := by
    refine waiting.claimed.work .returns (fun _ => rfl) ?_
    intro s solo
    refine ⟨s.reports, s.posted, ?_⟩
    simp [stepWorker, solo.stored, ← solo.queue]
  refine ⟨row, restored.assigns (w := .running 1 row) rfl rfl rfl ?_ rfl ?_⟩
  · simp [Write.running, pending]
  · intro s jobs solo committed
    exact ⟨_, _, by rw [stepWorker, committed]; rfl⟩

/-- The worker finds the file of the job gone. -/
theorem poised_forgo (poised : Poised cfg others word .pending requeues) :
    Poised cfg others (word ++ [.failed]) .failed requeues := by
  obtain ⟨row, pending, rfl, waiting⟩ := poised
  have lacking : LivesAt cfg others word row [] (.committingMissing 1 row []) .sleeping := by
    refine waiting.claimed.work (.signalsMissing []) (by simp) ?_
    intro s solo
    refine ⟨s.reports, s.posted, ?_⟩
    simp [stepWorker, solo.split, ← solo.queue]
  refine ⟨.notifying 1 row.signalsPath row.bundle,
    lacking.assigns (w := .missing 1 row []) rfl rfl rfl ?_ rfl ?_⟩
  · simp [Write.missing, pending]
  · intro s jobs solo committed
    exact ⟨s.starts, s.startsHere, by rw [stepWorker, committed]; rfl⟩

/-- The analysis ends with a result. -/
theorem poised_deliver (poised : Poised cfg others word .running requeues) :
    Poised cfg others (word ++ [.delivering]) .delivering requeues := by
  obtain ⟨loaded, row, running, rfl, analysing⟩ := poised
  have produced : LivesAt cfg others word row []
      (.committingDelivering 1 loaded (.bare .epoch) (.bare [])) .sleeping := by
    refine analysing.work (.produced (.bare [])) (by simp) ?_
    intro s solo
    exact ⟨s.reports, s.posted, by simp [stepWorker, ← solo.queue]⟩
  refine ⟨loaded.signalsPath, produced.assigns (w := .delivering 1 loaded (.bare [])) rfl rfl
    running (by simp [Write.delivering]) rfl ?_⟩
  intro s jobs solo committed
  exact ⟨s.starts, s.startsHere, by rw [stepWorker, committed]; rfl⟩

/-- The analysis ends without one. -/
theorem poised_finish (poised : Poised cfg others word .running requeues) :
    Poised cfg others (word ++ [.done]) .done requeues := by
  obtain ⟨loaded, row, running, rfl, analysing⟩ := poised
  have returned : LivesAt cfg others word row [] (.committingDone 1 loaded (.bare .epoch))
      .sleeping := by
    refine analysing.work .returns (fun _ => rfl) ?_
    intro s solo
    exact ⟨s.reports, s.posted, by simp [stepWorker, ← solo.queue]⟩
  refine ⟨.discarding 1 loaded.signalsPath,
    returned.assigns (w := .finished 1 loaded) rfl rfl running (by simp [Write.finished]) rfl ?_⟩
  intro s jobs solo committed
  exact ⟨s.starts, s.startsHere, by rw [stepWorker, committed]; rfl⟩

/-- Both attempts have failed. -/
theorem LivesAt.exhausted
    (analysing : LivesAt cfg others word row [] (.analysing 1 loaded (.bare .epoch) 1) .sleeping) :
    LivesAt cfg others word row [] (.committingFailed 1 loaded (.bare .epoch) []) .sleeping := by
  have again : LivesAt cfg others word row [] (.analysing 1 loaded (.bare .epoch) 2) .sleeping := by
    refine analysing.work (.raises []) (by simp) ?_
    intro s solo
    exact ⟨s.reports, s.posted, by simp [stepWorker, ← solo.queue]⟩
  refine again.work (.raises []) (by simp) ?_
  intro s solo
  exact ⟨s.reports, s.posted, by simp [stepWorker, ← solo.queue]⟩

/-- Both attempts fail. -/
theorem poised_fail (poised : Poised cfg others word .running requeues) :
    Poised cfg others (word ++ [.failed]) .failed requeues := by
  obtain ⟨loaded, row, running, rfl, analysing⟩ := poised
  refine ⟨.notifying 1 loaded.signalsPath (.bare .epoch),
    analysing.exhausted.assigns (w := .failed 1 loaded []) rfl rfl running
      (by simp [Write.failed]) rfl ?_⟩
  intro s jobs solo committed
  exact ⟨s.starts, s.startsHere, by rw [stepWorker, committed]; rfl⟩

/-- The worker marks the row with the verdict of a delivery. -/
theorem stands_marked {path : Option FileName} (verdict : Verdict)
    (delivering : row.status = .delivering)
    (marking : LivesAt cfg others word row [] (.marking 1 path verdict) .sleeping) :
    ∃ worker, Stands cfg others
      (word ++ [(Write.mark 1 ⟨row, delivering⟩ verdict).target.status])
      (Write.mark 1 ⟨row, delivering⟩ verdict).target.status row.requeueCount [] worker := by
  have observed : LivesAt cfg others word row [] (.committingMark 1 path ⟨row, delivering⟩ verdict)
      .sleeping := by
    refine marking.work .returns (fun _ => rfl) ?_
    intro s solo
    refine ⟨s.reports, s.posted, ?_⟩
    simp [stepWorker, solo.present, delivering, ← solo.queue]
  refine ⟨.discarding 1 path,
    observed.assigns (w := .mark 1 ⟨row, delivering⟩ verdict) rfl ?_ ?_ ?_ ?_ ?_⟩
  · cases verdict <;> rfl
  · cases verdict <;> rfl
  · cases verdict <;> simp [Write.mark, delivering]
  · cases verdict <;> rfl
  · intro s jobs solo committed
    exact ⟨s.starts, s.startsHere, by rw [stepWorker, committed]; rfl⟩

/-- A bundle at the epoch has a key for Spring. -/
theorem epoch_key : ∃ key, (IngestBundle.bare .epoch).triggerKey = .ok key := by
  have returned : (IngestBundle.bare .epoch).triggerKey.toOption.isSome = true := by decide
  cases keyed : (IngestBundle.bare .epoch).triggerKey with
  | ok key => exact ⟨key, rfl⟩
  | error raised =>
    rw [keyed] at returned
    cases returned

/-- Spring takes the report. -/
theorem poised_done (poised : Poised cfg others word .delivering requeues) :
    Poised cfg others (word ++ [.done]) .done requeues := by
  obtain ⟨path, row, delivering, rfl, sending⟩ := poised
  obtain ⟨key, keyed⟩ := epoch_key
  have marking : LivesAt cfg others word row [] (.marking 1 path .done) .sleeping := by
    refine sending.work .processed (by simp) ?_
    intro s solo
    refine ⟨(s.post key ⟨1, .done⟩).reports, (s.post key ⟨1, .done⟩).posted, ?_⟩
    simp [stepWorker, deliver, keyed, post, ← solo.queue]
  exact stands_marked .done delivering marking

/-- Spring rejects the report. -/
theorem poised_reject (poised : Poised cfg others word .delivering requeues) :
    Poised cfg others (word ++ [.failed]) .failed requeues := by
  obtain ⟨path, row, delivering, rfl, sending⟩ := poised
  have marking : LivesAt cfg others word row [] (.marking 1 path (.failed [])) .sleeping := by
    refine sending.work (.rejected []) (by simp) ?_
    intro s solo
    exact ⟨s.reports, s.posted, by simp [stepWorker, deliver, ← solo.queue]⟩
  exact stands_marked (.failed []) delivering marking

/-- The reaper's SELECT finds the job that no worker holds any more. -/
theorem selected_solo {s : World} {reaper : Reaper} (running : row.status = .running)
    (solo : Solo s row queue worker reaper) :
    (s.runningRows fun job => decide (job ∈ [1])).rows = [(1, ⟨row, running⟩)] := by
  simp [runningRows, JobTable.select, solo.next, List.range_succ, solo.alone, solo.present, running]

/-- The reaper's commit raises the count. -/
theorem LivesAt.recovered {running : row.status = .running} {batch : Batch}
    (rows : batch.rows = [(1, ⟨row, running⟩)]) (wanted : row.requeueCount < cfg.maxJobRequeue)
    (lives : LivesAt cfg others word row queue worker (.committing batch)) :
    ∃ row', row'.status = .pending ∧ row'.requeueCount = row.requeueCount + 1 ∧
      LivesAt cfg others (word ++ [.pending]) row' queue worker (.enqueuing [1] []) := by
  obtain ⟨s, occurs, solo⟩ := lives
  have requeued : requeues cfg ⟨row, running⟩ = true := decide_eq_true wanted
  obtain ⟨w, recovering⟩ : ∃ w : Write, w = ⟨1, row,
      { row with requeueCount := row.requeueCount + 1, status := .pending }⟩ := ⟨_, rfl⟩
  have same : recovery cfg (1, ⟨row, running⟩) = w := by simp [recovery, requeued, recovering]
  have here : w.job = 1 := by rw [recovering]
  have committed : s.jobs.commit w = some (s.jobs.overwritten w) := by
    rw [JobTable.commit, if_neg]
    simp [here, solo.present]
  have stepped : step cfg s (.reaper .returns) =
      some { s with jobs := s.jobs.overwritten w, reaper := .enqueuing [1] [] } := by
    simp [step, solo.reaper, stepReaper, rows, JobTable.commitAll, same, committed, toEnqueue,
      toFail, requeued]
  have now : s.jobs.overwritten w 1 = some (IngestJob.overwrite w.loaded w.target row) := by
    have updated := JobTable.overwritten_self s.jobs w
    rwa [here, solo.present, Option.map_some] at updated
  have status : (IngestJob.overwrite w.loaded w.target row).status = .pending := by
    simp [IngestJob.overwrite, recovering, running]
  have uncontended : Uncontended cfg s (.reaper .returns) := by
    intro only member stored present
    obtain rfl : only = w := by simpa [writes, solo.reaper, Reaper.batch, rows, same] using member
    rw [here, solo.present] at present
    cases present
    rw [recovering]
  have entering := occurs.enters uncontended stepped solo.present now
    (by rw [status, running]; decide)
  rw [status] at entering
  refine ⟨_, status, ?_, _, entering, ?_⟩
  · simp [IngestJob.overwrite, recovering]
  · have elsewhere : s.jobs.overwritten w 0 = s.jobs 0 :=
      JobTable.overwritten_other (by rw [here]; decide)
    exact ⟨elsewhere.trans solo.alone, now, solo.next, solo.queue, solo.first, rfl, solo.booted,
      solo.split, solo.stored⟩

/-- The worker cannot store its failure, and the reaper puts the job back. -/
theorem poised_requeue (poised : Poised cfg others word .running requeues)
    (wanted : requeues < cfg.maxJobRequeue) :
    Poised cfg others (word ++ [.pending]) .pending (requeues + 1) := by
  obtain ⟨loaded, row, running, rfl, analysing⟩ := poised
  -- the last commit of the worker raises, and the row stays RUNNING
  have stranded : LivesAt cfg others word row [] .idle .sleeping := by
    refine analysing.exhausted.work (.raises []) (by simp) ?_
    intro s solo
    exact ⟨s.reports, s.posted, by simp [stepWorker, ← solo.queue]⟩
  let batch : Batch := ⟨[(1, ⟨row, running⟩)], by simp⟩
  have found : LivesAt cfg others word row [] .idle (.committing batch) := by
    refine stranded.reap (.selected [1]) (by simp) ?_
    intro s solo
    have selected : s.runningRows (fun job => decide (job ∈ [1])) = batch := by
      have rows := selected_solo running solo
      generalize s.runningRows (fun job => decide (job ∈ [1])) = found at rows
      cases found
      cases rows
      rfl
    refine ⟨true, rfl, ?_⟩
    rw [stepReaper, if_pos solo.booted, selected]
    simp [afterSelect, batch, ← solo.queue, ← solo.booted]
  obtain ⟨row', pending, raised, committed⟩ := found.recovered rfl wanted
  refine ⟨row', pending, raised, ?_⟩
  have enqueued : LivesAt cfg others (word ++ [.pending]) row' [1] .idle (.enqueuing [] []) := by
    refine committed.reap .returns (fun _ => rfl) ?_
    intro s solo
    exact ⟨s.booted, solo.booted, by simp [stepReaper, enqueue, solo.queue]⟩
  have notified : LivesAt cfg others (word ++ [.pending]) row' [1] .idle (.notifying []) := by
    refine enqueued.reap .returns (fun _ => rfl) ?_
    intro s solo
    exact ⟨s.booted, solo.booted, by simp [stepReaper, ← solo.queue]⟩
  refine notified.reap .returns (fun _ => rfl) ?_
  intro s solo
  exact ⟨true, rfl, by simp [stepReaper, recovered, ← solo.queue]⟩

end Advancing

/-! ## The runs -/

/-- The startup finds no table, and a bundle is received. -/
def ingestion : List Action :=
  [.reaper (.raises []), .receive (.bare .epoch), .request 0 .returns, .request 0 .returns,
    .request 0 .returns, .request 0 .returns]

/-- The job is ingested. -/
theorem poised_born (cfg : Settings) (others : Nat) : Poised cfg others [.pending] .pending 0 := by
  have executed : TransitionSystem.run (chronicledStep cfg)
      ⟨World.initial (others + 1), fun _ => []⟩ ingestion = some _ := rfl
  have permitted : TransitionSystem.allows (chronicledStep cfg) (Unhurried cfg)
      ⟨World.initial (others + 1), fun _ => []⟩ ingestion := by
    refine TransitionSystem.allows_of_forall ?_
    intro action member state w written
    simp only [ingestion, List.mem_cons, List.not_mem_nil, or_false] at member
    rcases member with rfl | rfl | rfl | rfl | rfl | rfl <;> simp [writes] at written
  refine ⟨newRow (.bare .epoch) ⟨0, .json⟩, rfl, rfl, _, ⟨_, .of_run executed permitted, rfl, rfl⟩,
    ?_⟩
  exact ⟨rfl, rfl, rfl, rfl, rfl, rfl, rfl, by simp [newRow], rfl⟩

/-- A life within the limit leads to a state from which its next status can be reached. -/
theorem life_poised (cfg : Settings) (others : Nat) {word : List Status} {status : Status}
    {requeues : Nat} (life : Life word status requeues) (capped : requeues ≤ cfg.maxJobRequeue) :
    Poised cfg others word status requeues := by
  induction life with
  | born => exact poised_born cfg others
  | next life advances inductionHypothesis =>
    have poised := inductionHypothesis (Nat.le_trans (Nat.le_add_right _ _) capped)
    cases advances with
    | take => exact poised_take poised
    | forgo => exact poised_forgo poised
    | requeue => exact poised_requeue poised capped
    | deliver => exact poised_deliver poised
    | finish => exact poised_finish poised
    | fail => exact poised_fail poised
    | done => exact poised_done poised
    | reject => exact poised_reject poised

/-- What leads on has occurred. -/
theorem Poised.occurs {cfg : Settings} {others : Nat} {word : List Status} {status : Status}
    {requeues : Nat} (poised : Poised cfg others word status requeues) :
    ∃ s, Occurs cfg others s word := by
  have led {queue : List JobId} {worker : Worker}
      (stands : Stands cfg others word status requeues queue worker) :
      ∃ s, Occurs cfg others s word := by
    obtain ⟨row, -, -, s, occurs, -⟩ := stands
    exact ⟨s, occurs⟩
  cases status with
  | pending => exact led poised
  | running | delivering | done | failed =>
    obtain ⟨_, stands⟩ := poised
    exact led stands

/-- The words that a job's statuses can form in a run are exactly these, for any positive number
of workers: none before it is inserted, and then some requeues within the limit and one
ending. -/
theorem lives_exact (cfg : Settings) (others : Nat) (word : List Status) :
    (∃ c : Chronicled, TransitionSystem.Reaches (chronicledStep cfg) (Unhurried cfg)
        ⟨World.initial (others + 1), fun _ => []⟩ c ∧ c.history 1 = word) ↔
      word = [] ∨ ∃ status requeues, requeues ≤ cfg.maxJobRequeue ∧
        ∃ ending ∈ endings status, word = cycles requeues ++ ending := by
  constructor
  · rintro ⟨c, reached, rfl⟩
    rcases (reached_lived (initial_initial (others + 1)) reached 1).lived with
      ⟨unborn, -⟩ | ⟨status, requeues, life, capped, -⟩
    · exact Or.inl unborn
    · exact Or.inr ⟨status, requeues, capped, life.word⟩
  · rintro (rfl | ⟨status, requeues, capped, parts⟩)
    · exact ⟨_, .refl, rfl⟩
    · have poised := life_poised cfg others (life_iff.mpr parts) capped
      obtain ⟨s, c, reached, -, history⟩ := poised.occurs
      exact ⟨c, reached, history⟩

end RcaBackend
