import RcaBackend.JobInvariants

/-!
# Who holds a PENDING job

No periodic loop looks at PENDING rows, so such a job needs a queue entry, a
worker, or a step that is about to enqueue it. Three exception edges break this:
one of `_process` before its first commit, one of `refresh` after the commit of
an ingest, and one of the PENDING SELECT at startup. Where none of them is
taken, every PENDING job stays accounted for, in any interleaving.
-/

namespace RcaBackend

open World

/-- The reaper is about to enqueue all PENDING jobs. -/
def Reaper.listing : Reaper → Bool
  | .requeuing => true
  | _ => false

/-- Someone will process the job: it is queued, a worker is inside `_process`
for it, or a reaper or request is about to enqueue it. -/
def World.Accounted (s : World) (job : JobId) : Prop :=
  job ∈ s.queue ∨ (∃ worker ∈ s.workers, worker.held = some job) ∨
    (s.reaper.listing = true ∨ job ∈ s.reaper.backlog) ∨
    ∃ request ∈ s.requests, request.backlog = some job

instance (s : World) (job : JobId) : Decidable (s.Accounted job) :=
  inferInstanceAs (Decidable (_ ∨ _ ∨ (_ ∨ _) ∨ _))

/-- The step raises while nobody else holds the PENDING job concerned. -/
def Strands (s : World) : Action → Prop
  | .worker index (.raises _) => ∃ worker job, s.workers[index]? = some worker ∧
      worker.fresh = some job ∧ s.jobs.statusOf job = some .pending
  | .request index (.raises _) => ∃ job path,
      s.requests[index]? = some (.refreshing job path) ∧ s.jobs.statusOf job = some .pending
  | .reaper (.raises _) => s.reaper = .requeuing ∧ ∃ job, s.jobs.statusOf job = some .pending
  | _ => False

/-- Every PENDING job has an unstarted claim, or is about to be listed. -/
def World.Owned (s : World) : Prop :=
  ∀ job, s.jobs.statusOf job = some .pending → s.reaper = .requeuing ∨ 0 < s.unstarted job

section Owned

variable {cfg : Settings} {s s' : World} {action : Action}

/-- An unstarted claim accounts for the job. -/
theorem accounted_of_unstarted {job : JobId} (claimed : 0 < s.unstarted job) :
    s.Accounted job := by
  unfold unstarted at claimed
  by_cases queued : job ∈ s.queue
  · exact Or.inl queued
  by_cases listed : job ∈ s.reaper.backlog
  · exact Or.inr (Or.inr (Or.inl (Or.inr listed)))
  have noEntry := List.count_eq_zero.mpr queued
  have noListing := List.count_eq_zero.mpr listed
  by_cases working : 0 < s.workers.countP fun worker => worker.fresh = some job
  · obtain ⟨worker, member, fresh⟩ := List.countP_pos_iff.mp working
    exact Or.inr (Or.inl ⟨worker, member, Worker.held_of_fresh (of_decide_eq_true fresh)⟩)
  · have requested : 0 < s.requests.countP fun request => request.backlog = some job := by omega
    obtain ⟨request, member, pending⟩ := List.countP_pos_iff.mp requested
    exact Or.inr (Or.inr (Or.inr ⟨request, member, of_decide_eq_true pending⟩))

/-- The startup lists every PENDING job that is in the table. -/
theorem listed_at_startup (sound : Sound s) {outcome : Outcome} {new : Reaper} {after : World}
    (reading : s.reaper = .requeuing) (moved : s.ReaperStep cfg s.reaper outcome after new)
    (quiet : ¬ Strands s (.reaper outcome)) {job : JobId}
    (pending : after.jobs.statusOf job = some .pending) :
    0 < ({ after with reaper := new } : World).unstarted job := by
  rw [reading] at moved
  cases moved with
  | requeue =>
    have below : job < s.nextJob := by
      by_contra beyond
      have missing := (sound.beyond job (Nat.le_of_not_lt beyond)).1
      simp [JobTable.statusOf, missing] at pending
    have listed := List.count_pos_iff.mpr (JobTable.mem_select_ids.mpr ⟨below, pending⟩)
    simp only [unstarted, Reaper.backlog]
    omega
  | unread => exact absurd ⟨reading, job, pending⟩ quiet

theorem owned_step (taken : Step cfg s action s') (sound : Sound s) (owned : s.Owned)
    (quiet : ¬ Strands s action) : s'.Owned := by
  intro job pending
  have kept (row : s'.jobs job = s.jobs job) : s.jobs.statusOf job = some .pending :=
    (congrArg (Option.map _) row.symm).trans pending
  by_cases reading : s.reaper = .requeuing
  · rcases reaper_step taken with ⟨same, -⟩ | rfl | ⟨outcome, after, rfl, form, moved⟩
    · exact Or.inl (same.trans reading)
    · exact Or.inl rfl
    · right
      rw [form]
      exact listed_at_startup sound reading moved quiet (by rw [form] at pending; exact pending)
  cases step_change taken job with
  | idle row claims =>
    have claimed := (owned job (kept row)).resolve_left reading
    omega
  | crashed crash =>
    subst crash
    cases taken
    exact Or.inl rfl
  | abandoned raised found fresh row =>
    subst raised
    exact absurd ⟨_, job, found, fresh, kept row⟩ quiet
  | unlisted raised found row =>
    subst raised
    exact absurd ⟨job, _, found, kept row⟩ quiet
  | vanished _ row | purged _ _ _ row => simp [JobTable.statusOf, row] at pending
  | forgone _ found applied =>
    -- the worker has loaded the row as PENDING, so its commit changes the status
    have before := (applied.statusOf pending).resolve_left fun same => by cases same
    have loaded := sound.current _ (List.mem_of_getElem? found) job _ rfl rfl before
    have changed : Status.failed ≠ _ := fun same => by cases same.trans loaded
    cases applied.assigned changed pending
  | started _ found _ applied => cases applied.assigned (sound.start_changed found) pending
  | concluded _ _ late writing applied claims =>
    rcases applied.statusOf pending with assigned | before
    · have := Worker.late_target late writing
      simp [← assigned] at this
    · have claimed := (owned job before).resolve_left reading
      omega
  | reconciled _ writing applied claims =>
    rcases applied.statusOf pending with assigned | before
    · have := Reconciler.target writing
      simp [← assigned] at this
    · have claimed := (owned job before).resolve_left reading
      omega
  | recovered _ _ applied claims =>
    have assigned := applied.assigned (recovery_changed _) pending
    rw [recovery_target] at assigned
    split at assigned
    · rename_i wanted
      rw [if_pos wanted] at claims
      omega
    · cases assigned
  | requeued _ again => exact absurd again reading
  | inserted => omega

end Owned

/-- Where no step strands a job, every PENDING job is accounted for. -/
theorem pending_accounted {cfg : Settings} {start s : World} (starting : Starting start)
    (reached : TransitionSystem.Reaches (step cfg) (fun s action => ¬ Strands s action) start s)
    (job : JobId) (pending : s.jobs.statusOf job = some .pending) : s.Accounted job := by
  have owned : s.Owned := by
    refine reached.invariant World.Owned ?_ ?_
    · intro job _
      rw [starting.booting]
      exact Or.inl rfl
    · intro state action next before owned quiet taken
      exact owned_step (step_rule taken) (reached_sound starting before).2 owned quiet
  rcases owned job pending with listing | claimed
  · exact Or.inr (Or.inr (Or.inl (Or.inl (by rw [listing]; rfl))))
  · exact accounted_of_unstarted claimed

/-- Startup on an empty table, then one ingest. -/
def ingestRun : List Action :=
  [.reaper .returns, .reaper .returns, .reaper .returns, .reaper .returns, .reaper .returns,
    .receive (.bare .epoch), .request 0 .returns, .request 0 .returns, .request 0 .returns,
    .request 0 .returns]

theorem pending_accounted_ingestRun :
    ∃ s, TransitionSystem.run (step ⟨1, 0⟩) (World.initial 1) ingestRun = some s ∧
      s.jobs.statusOf 1 = some .pending ∧ s.Accounted 1 := by
  obtain ⟨s, executed, pending⟩ := TransitionSystem.run_passes (step ⟨1, 0⟩) (World.initial 1)
    ingestRun (fun s => decide (s.jobs.statusOf 1 = some .pending)) (by decide)
  have waiting := of_decide_eq_true pending
  refine ⟨s, executed, waiting, pending_accounted (initial_starting 1) (.of_run executed ?_) 1
    waiting⟩
  apply TransitionSystem.allows_of_forall
  intro action member state strands
  simp only [ingestRun, List.mem_cons, List.not_mem_nil, or_false] at member
  rcases member with rfl | rfl | rfl | rfl | rfl | rfl | rfl | rfl | rfl | rfl <;> exact strands

/-- The worker's SELECT fails: the job stays PENDING, and nothing holds it. -/
theorem pending_stranded :
    ∃ s, TransitionSystem.run (step ⟨1, 0⟩) (World.initial 1)
        (ingestRun ++ [.worker 0 .returns, .worker 0 (.raises [])]) = some s ∧
      s.jobs.statusOf 1 = some .pending ∧ ¬ s.Accounted 1 := by
  obtain ⟨s, executed, stranded⟩ := TransitionSystem.run_passes (step ⟨1, 0⟩) (World.initial 1)
    (ingestRun ++ [.worker 0 .returns, .worker 0 (.raises [])])
    (fun s => decide (s.jobs.statusOf 1 = some .pending ∧ ¬ s.Accounted 1)) (by decide)
  exact ⟨s, executed, of_decide_eq_true stranded⟩

end RcaBackend
