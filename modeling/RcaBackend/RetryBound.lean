import RcaBackend.JobInvariants

/-!
# Retries are bounded over crashes and restarts

A start of the analysis uses up an unstarted claim, and a claim on a job that has
been started before comes from a sweep that raises `requeue_count`, or from the
PENDING rows of a restart, which a sweep has raised before. So starts and
unstarted claims together stay within one more than `requeue_count`.
-/

namespace RcaBackend

open World

/-- A process that starts on an empty table. -/
structure Initial (s : World) : Prop extends Starting s where
  empty : ∀ job, s.jobs job = none
  unstarted : ∀ job, s.starts job = 0

/-- A first process with any number of workers has no jobs. -/
theorem initial_initial (workers : Nat) : Initial (World.initial workers) :=
  ⟨initial_starting workers, fun _ => rfl, fun _ => rfl⟩

/-- The potential of a job: its starts, its claims and its `requeue_count`. -/
structure Bounded (cfg : Settings) (s : World) : Prop where
  spent : ∀ job row, s.jobs job = some row →
    s.starts job + s.unstarted job ≤ 1 + row.requeueCount
  pending : ∀ job row, s.jobs job = some row → row.status = .pending →
    s.starts job ≤ row.requeueCount
  capped : ∀ job row, s.jobs job = some row → row.requeueCount ≤ cfg.maxJobRequeue
  agreed : ∀ entry ∈ s.reaper.batch, ∀ row, s.jobs entry.1 = some row →
    row.requeueCount = entry.2.1.requeueCount
  total : ∀ job, s.starts job ≤ 1 + cfg.maxJobRequeue
  unborn : ∀ job, s.nextJob ≤ job → s.starts job = 0

section Counts

variable {cfg : Settings} {s s' : World} {job : JobId} {w : Write} {row' : IngestJob}

/-- Only the sweep assigns `requeue_count`. -/
theorem Worker.write_requeueCount {worker : Worker} (pending : worker.write = some w) :
    w.target.requeueCount = w.loaded.requeueCount := by
  cases worker with
  | committingMark _ _ _ verdict =>
    cases pending
    cases verdict <;> rfl
  | committingMissing | committingRunning | committingDelivering | committingDone
  | committingFailed =>
    cases pending
    rfl
  | _ => cases pending

/-- The reconciler leaves the count of requeues alone. -/
theorem Reconciler.write_requeueCount {reconciler : Reconciler}
    (pending : reconciler.write = some w) : w.target.requeueCount = w.loaded.requeueCount := by
  cases reconciler with
  | committingMark _ _ _ verdict =>
    cases pending
    cases verdict <;> rfl
  | _ => cases pending

/-- A write that does not assign `requeue_count` keeps it. -/
theorem World.Applies.requeueCount (applied : s.Applies s' w job)
    (unassigned : w.target.requeueCount = w.loaded.requeueCount)
    (now : s'.jobs job = some row') :
    ∃ row, s.jobs job = some row ∧ row'.requeueCount = row.requeueCount := by
  obtain ⟨row, present, rfl⟩ := applied.found now
  exact ⟨row, present, if_pos unassigned⟩

/-- How a step changes `requeue_count`: by a requeueing sweep only. -/
theorem requeueCount_change {action : Action} (change : JobChange cfg s action s' job)
    (now : s'.jobs job = some row') :
    (∃ row, s.jobs job = some row ∧ row'.requeueCount = row.requeueCount) ∨
      (job = s.nextJob ∧ row'.requeueCount = 0) ∨
      ∃ entry ∈ s.reaper.batch, action = .reaper .returns ∧ entry.1 = job ∧
        requeues cfg entry.2 = true ∧ row'.requeueCount = entry.2.1.requeueCount + 1 := by
  cases change with
  | idle same | crashed _ same | abandoned _ _ _ same | requeued _ _ _ same | unlisted _ _ same =>
    exact Or.inl ⟨row', same ▸ now, rfl⟩
  | vanished _ gone | purged _ _ _ gone =>
    rw [gone] at now
    cases now
  | forgone _ _ applied | started _ _ _ applied => exact Or.inl (applied.requeueCount rfl now)
  | concluded _ _ _ pending applied =>
    exact Or.inl (applied.requeueCount (Worker.write_requeueCount pending) now)
  | reconciled _ pending applied =>
    exact Or.inl (applied.requeueCount (Reconciler.write_requeueCount pending) now)
  | @recovered entry committing selected applied =>
    by_cases wanted : requeues cfg entry.2 = true
    · obtain ⟨row, present, rfl⟩ := applied.found now
      refine Or.inr (Or.inr ⟨entry, selected, committing, applied.1, wanted, ?_⟩)
      simp [recovery, wanted, IngestJob.overwrite]
    · refine Or.inl (applied.requeueCount ?_ now)
      simp [recovery, wanted]
  | inserted _ _ next _ inserted =>
    rw [inserted] at now
    cases now
    exact Or.inr (Or.inl ⟨next, rfl⟩)

end Counts

/-! ## The potential is preserved -/

section Potential

variable {cfg : Settings} {s s' : World} {action : Action}

/-- A row that is requeued is below the limit. -/
theorem requeues_below {row : RowIn .running} (wanted : requeues cfg row = true) :
    row.1.requeueCount < cfg.maxJobRequeue := of_decide_eq_true wanted

/-- A requeued row has its raised count. -/
theorem recovered_row {job : JobId} {row' : IngestJob} {entry : JobId × RowIn .running}
    (sound : Sound s) (bounded : Bounded cfg s) (selected : entry ∈ s.reaper.batch)
    (applied : s.Applies s' (recovery cfg entry) job) (now : s'.jobs job = some row') :
    ∃ row, s.jobs job = some row ∧ s.unstarted job = 0 ∧
      row'.requeueCount = row.requeueCount + if requeues cfg entry.2 then 1 else 0 := by
  obtain ⟨row, present, rfl⟩ := applied.found now
  have here : entry.1 = job := applied.1
  have agreed := bounded.agreed entry selected row (here ▸ present)
  refine ⟨row, present, here ▸ (sound.batch entry selected).2, ?_⟩
  by_cases wanted : requeues cfg entry.2 = true
  · simp [recovery, wanted, IngestJob.overwrite, agreed]
  · simp [recovery, wanted, IngestJob.overwrite]

/-- A start is paid by the insertion or by a requeue. -/
theorem bounded_spent (taken : Step cfg s action s') (sound : Sound s) (bounded : Bounded cfg s)
    (job : JobId) (row' : IngestJob) (now : s'.jobs job = some row') :
    s'.starts job + s'.unstarted job ≤ 1 + row'.requeueCount := by
  cases step_change taken job with
  | idle same | crashed _ same | abandoned _ _ _ same | unlisted _ _ same =>
    have spent := bounded.spent job row' (same ▸ now)
    omega
  | vanished _ gone | purged _ _ _ gone =>
    rw [gone] at now
    cases now
  | forgone _ _ applied | started _ _ _ applied =>
    obtain ⟨row, present, same⟩ := applied.requeueCount rfl now
    have spent := bounded.spent job row present
    omega
  | concluded _ _ _ pending applied =>
    obtain ⟨row, present, same⟩ := applied.requeueCount (Worker.write_requeueCount pending) now
    have spent := bounded.spent job row present
    omega
  | reconciled _ pending applied =>
    obtain ⟨row, present, same⟩ :=
      applied.requeueCount (Reconciler.write_requeueCount pending) now
    have spent := bounded.spent job row present
    omega
  | recovered _ selected applied =>
    obtain ⟨row, present, rested, raised⟩ := recovered_row sound bounded selected applied now
    have spent := bounded.spent job row present
    omega
  | requeued _ _ pending same claims =>
    have present : s.jobs job = some row' := same ▸ now
    have before := bounded.pending job row' present (by simpa [JobTable.statusOf, present] using pending)
    have rested := sound.requeuing (by assumption) job
    omega
  | inserted _ _ next =>
    have rested := (sound.beyond job (Nat.le_of_eq next.symm)).2
    have unborn := bounded.unborn job (Nat.le_of_eq next.symm)
    omega

/-- A waiting job has been started once for each requeue at most. -/
theorem bounded_pending (taken : Step cfg s action s') (sound : Sound s)
    (bounded : Bounded cfg s) (job : JobId) (row' : IngestJob) (now : s'.jobs job = some row')
    (waiting : row'.status = .pending) : s'.starts job ≤ row'.requeueCount := by
  have status : s'.jobs.statusOf job = some .pending := by simp [JobTable.statusOf, now, waiting]
  -- a PENDING row before the step gives the bound before the step
  have before {row : IngestJob} (present : s.jobs job = some row)
      (still : s.jobs.statusOf job = some .pending) : s.starts job ≤ row.requeueCount := by
    refine bounded.pending job row present ?_
    simpa [JobTable.statusOf, present] using still
  cases step_change taken job with
  | idle same | crashed _ same | abandoned _ _ _ same | unlisted _ _ same | requeued _ _ _ same =>
    have := bounded.pending job row' (same ▸ now) waiting
    omega
  | vanished _ gone | purged _ _ _ gone =>
    rw [gone] at now
    cases now
  | forgone _ _ applied =>
    obtain ⟨row, present, same⟩ := applied.requeueCount rfl now
    rcases applied.statusOf status with assigned | still
    · cases assigned
    · have := before present still
      omega
  | started _ found _ applied => cases applied.assigned (sound.start_changed found) status
  | concluded _ _ late pending applied =>
    obtain ⟨row, present, same⟩ := applied.requeueCount (Worker.write_requeueCount pending) now
    rcases applied.statusOf status with assigned | still
    · have := Worker.late_target late pending
      simp [← assigned] at this
    · have := before present still
      omega
  | reconciled _ pending applied =>
    obtain ⟨row, present, same⟩ :=
      applied.requeueCount (Reconciler.write_requeueCount pending) now
    rcases applied.statusOf status with assigned | still
    · have := Reconciler.target pending
      simp [← assigned] at this
    · have := before present still
      omega
  | recovered _ selected applied =>
    obtain ⟨row, present, rested, raised⟩ := recovered_row sound bounded selected applied now
    have assigned := applied.assigned (recovery_changed _) status
    rw [recovery_target] at assigned
    split at assigned
    · rename_i wanted
      rw [if_pos wanted] at raised
      have := bounded.spent job row present
      omega
    · cases assigned
  | inserted _ _ next =>
    have unborn := bounded.unborn job (Nat.le_of_eq next.symm)
    omega

/-- No row counts more requeues than the limit. -/
theorem bounded_capped (taken : Step cfg s action s') (bounded : Bounded cfg s) (job : JobId)
    (row' : IngestJob) (now : s'.jobs job = some row') :
    row'.requeueCount ≤ cfg.maxJobRequeue := by
  rcases requeueCount_change (step_change taken job) now with
    ⟨row, present, same⟩ | ⟨-, zero⟩ | ⟨entry, -, -, -, wanted, raised⟩
  · have := bounded.capped job row present
    omega
  · omega
  · have := requeues_below wanted
    omega

/-- A row that the reaper has selected counts the requeues that the table counts. -/
theorem bounded_agreed (taken : Step cfg s action s') (sound : Sound s) (bounded : Bounded cfg s)
    (entry : JobId × RowIn .running) (member : entry ∈ s'.reaper.batch) (row' : IngestJob)
    (now : s'.jobs entry.1 = some row') : row'.requeueCount = entry.2.1.requeueCount := by
  have origin := batch_step taken member
  rcases requeueCount_change (step_change taken entry.1) now with
    ⟨row, present, same⟩ | ⟨next, -⟩ | ⟨other, selected, committing, -⟩
  · rw [same]
    rcases origin with ⟨kept, -⟩ | ⟨read, -⟩
    · exact bounded.agreed entry kept row present
    · rw [read] at present
      cases present
      rfl
  · have below : entry.1 < s.nextJob := by
      rcases origin with ⟨kept, -⟩ | ⟨-, below, -⟩
      · exact (sound.batch entry kept).1
      · exact below
    exact absurd next (Nat.ne_of_lt below)
  · -- the sweep that commits a batch leaves it
    rcases origin with ⟨-, quiet⟩ | ⟨-, -, ⟨reading, -⟩ | ⟨due, reading, -⟩⟩
    · exact absurd committing (quiet _)
    · rw [reading] at selected
      cases selected
    · rw [reading] at selected
      cases selected

/-- A job is started once more than the limit of requeues at most, also where its row is
deleted. -/
theorem bounded_total (taken : Step cfg s action s') (sound : Sound s) (bounded : Bounded cfg s)
    (job : JobId) : s'.starts job ≤ 1 + cfg.maxJobRequeue := by
  have before := bounded.total job
  cases step_change taken job with
  | started _ found committed _ claims starts =>
    obtain ⟨jobs, committed⟩ := committed
    have changed := sound.start_changed found
    obtain ⟨row, present⟩ := JobTable.commit_found committed fun same =>
      changed (congrArg (·.status) same)
    have spent := bounded.spent job row present
    have capped := bounded.capped job row present
    omega
  | _ => omega

/-- A job that has not been inserted has not been started. -/
theorem bounded_unborn (taken : Step cfg s action s') (sound : Sound s) (bounded : Bounded cfg s)
    (job : JobId) (beyond : s'.nextJob ≤ job) : s'.starts job = 0 := by
  have before := Nat.le_trans (nextJob_mono taken) beyond
  have unborn := bounded.unborn job before
  have rested := (sound.beyond job before).2
  cases step_change taken job with
  | _ => omega

/-- Every step keeps the bounds. -/
theorem bounded_step (taken : Step cfg s action s') (sound : Sound s) (bounded : Bounded cfg s) :
    Bounded cfg s' :=
  ⟨bounded_spent taken sound bounded, bounded_pending taken sound bounded,
    bounded_capped taken bounded, bounded_agreed taken sound bounded,
    bounded_total taken sound bounded, bounded_unborn taken sound bounded⟩

end Potential

/-! ## The bound -/

/-- Without jobs there are no starts. -/
theorem Initial.bounded {s : World} (cfg : Settings) (initial : Initial s) : Bounded cfg s := by
  refine ⟨fun job row present => ?_, fun job row present => ?_, fun job row present => ?_,
    fun entry member => ?_, fun job => ?_, fun job _ => initial.unstarted job⟩
  · rw [initial.empty] at present
    cases present
  · rw [initial.empty] at present
    cases present
  · rw [initial.empty] at present
    cases present
  · rw [initial.booting] at member
    cases member
  · rw [initial.unstarted job]
    exact Nat.zero_le _

/-- Over any number of process lifetimes, in any interleaving and with any
operation failing, `requeue_count` stays within `max_job_requeue` and the
analysis of a job starts at most once more than that. -/
theorem retries_bounded (cfg : Settings) {start s : World} (initial : Initial start)
    (reached : TransitionSystem.Reaches (step cfg) (fun _ _ => True) start s) (job : JobId) :
    (∀ row, s.jobs job = some row → row.requeueCount ≤ cfg.maxJobRequeue) ∧
      s.starts job ≤ 1 + cfg.maxJobRequeue := by
  have bounded : Bounded cfg s := by
    refine reached.invariant (Bounded cfg) (initial.bounded cfg) ?_
    intro state action next before bounded _ taken
    have sound := (reached_sound initial.toStarting before).2
    exact bounded_step (step_rule taken) sound bounded
  exact ⟨bounded.capped job, bounded.total job⟩

/-- A job is started, lost in a crash, swept and started again. -/
def crashRun : List Action :=
  [.reaper (.raises []), .receive (.bare .epoch), .request 0 .returns, .request 0 .returns,
    .request 0 .returns, .request 0 .returns, .worker 0 .returns, .worker 0 .returns,
    .worker 0 .returns, .worker 0 .returns, .crash, .reaper .returns, .reaper .returns,
    .reaper .returns, .reaper .returns, .reaper .returns, .worker 0 .returns, .worker 0 .returns,
    .worker 0 .returns, .worker 0 .returns]

/-- The job that is lost in a crash is started twice, with one requeue. -/
theorem retries_bounded_crashRun :
    ((TransitionSystem.run (step ⟨1, 0⟩) (World.initial 1) crashRun).map fun s => s.starts 1) =
        some 2 ∧
      ∀ s, TransitionSystem.run (step ⟨1, 0⟩) (World.initial 1) crashRun = some s →
        (∀ row, s.jobs 1 = some row → row.requeueCount ≤ 1) ∧ s.starts 1 ≤ 2 :=
  ⟨by decide, fun _ executed =>
    retries_bounded ⟨1, 0⟩ (initial_initial 1) (.of_any_run executed) 1⟩

end RcaBackend
