import RcaBackend.JobStages

/-!
# The ages that the reaper and the reconciler wait for

`updated_at` cannot tell a job that is being analysed from one that a dead worker
has left RUNNING, nor a report that its worker is sending from one that waits for
another attempt. `stuck_job_after_seconds` and `grace_seconds` stand in for that
knowledge. The job system runs here against the clock of the database: every
UPDATE and INSERT stamps its row, a worker's awaits have limits, and the two
loops select by age. Where the two ages exceed what the limits add up to, a job
that a worker holds is never selected.
-/

namespace RcaBackend

open World

/-- The limits of a worker's awaits and the two ages, in seconds. -/
structure Timing where
  /-- `rca_overall_timeout_seconds`, the limit of one attempt -/
  overall : Nat
  /-- a commit -/
  commit : Nat
  /-- a request to Spring -/
  post : Nat
  /-- a SELECT -/
  read : Nat
  /-- `stuck_job_after_seconds` -/
  stuckAfter : Nat
  /-- `grace_seconds` -/
  grace : Nat

/-- The job system with every row's `updated_at` and the time at which each
worker began its current await. -/
structure Timed where
  world : World
  updated : JobId → Nat
  begun : Nat → Nat

/-- An action, and the time of the statements that it sends to the database. -/
structure TimedAction where
  action : Action
  stamp : Nat

/-- The step writes the row: an UPDATE of a changed column, or the INSERT. -/
def touches (cfg : Settings) (s : World) (action : Action) (s' : World) (job : JobId) : Bool :=
  ((writes cfg s action).any fun w => decide (w.job = job) && decide (w.target ≠ w.loaded)) ||
    ((s.jobs job).isNone && (s'.jobs job).isSome)

/-- The worker that steps begins its next await. -/
def Timed.entered (t : Timed) : Action → Nat → Nat
  | .worker index _ => Function.update t.begun index t.world.clock
  | _ => t.begun

/-- `func.now()` is the default and the `onupdate` of `updated_at`. -/
def timedStep (cfg : Settings) (t : Timed) (event : TimedAction) : Option Timed :=
  (step cfg t.world event.action).map fun next =>
    { world := next
      updated := fun job =>
        if touches cfg t.world event.action next job then event.stamp else t.updated job
      begun := t.entered event.action }

namespace Worker

/-- The limit of a worker's await. -/
def limit (timing : Timing) : Worker → Option Nat
  | .committingMissing _ _ _ | .committingRunning _ _ _ | .committingDelivering _ _ _ _
  | .committingDone _ _ _ | .committingFailed _ _ _ _ | .committingMark _ _ _ _ =>
    some timing.commit
  | .analysing _ _ _ _ => some timing.overall
  | .delivering _ _ _ => some timing.post
  | .marking _ _ _ => some timing.read
  | _ => none

/-- How long after its last UPDATE of the job a worker can have begun its await. -/
def spent (timing : Timing) : Worker → Option (JobId × Nat)
  | .analysing job _ _ attempt =>
    some (job, timing.commit + if attempt = 1 then 0 else timing.overall)
  | .committingDelivering job _ _ _ | .committingDone job _ _ =>
    some (job, timing.commit + 2 * timing.overall)
  | .committingFailed job _ _ _ => some (job, 2 * timing.commit + 2 * timing.overall)
  | .delivering job _ _ => some (job, timing.commit)
  | .marking job _ _ => some (job, timing.commit + timing.post)
  | .committingMark job _ _ _ => some (job, timing.commit + timing.post + timing.read)
  | _ => none

end Worker

/-- The jobs that a SELECT with a cutoff may return. -/
def Outcome.due : Outcome → List JobId
  | .selected due => due
  | _ => []

/-- Awaits keep their limits, statements run while they are awaited, and the loops
select rows of their age; the process lives on, and its startup sweep finds no
row that it has committed RUNNING itself. -/
def Timely (timing : Timing) (t : Timed) (event : TimedAction) : Prop :=
  match event.action with
  | .crash => False
  | .tick => ∀ entry ∈ t.world.workers.zipIdx, ∀ limit ∈ entry.1.limit timing,
      t.world.clock < t.begun entry.2 + limit
  | .worker index _ => t.begun index ≤ event.stamp ∧ event.stamp ≤ t.world.clock
  | .reaper outcome =>
    (∀ job ∈ outcome.due, t.updated job + timing.stuckAfter ≤ t.world.clock) ∧
      (t.world.booted = false →
        ∀ entry ∈ t.world.collected outcome, t.world.startsHere entry.1 = 0)
  | .reconciler outcome => ∀ job ∈ outcome.due, t.updated job + timing.grace ≤ t.world.clock
  | .receive _ | .request _ _ | .cleaner _ => True

instance (timing : Timing) (t : Timed) : ∀ event, Decidable (Timely timing t event)
  | ⟨.crash, _⟩ => isFalse id
  | ⟨.tick, _⟩ => inferInstanceAs (Decidable (∀ _ ∈ _, ∀ _ ∈ _, _ < _))
  | ⟨.worker _ _, _⟩ => inferInstanceAs (Decidable (_ ≤ _ ∧ _ ≤ _))
  | ⟨.reaper _, _⟩ => inferInstanceAs (Decidable ((∀ _ ∈ _, _ ≤ _) ∧ (_ → ∀ _ ∈ _, _ = _)))
  | ⟨.reconciler _, _⟩ => inferInstanceAs (Decidable (∀ _ ∈ _, _ ≤ _))
  | ⟨.receive _, _⟩ | ⟨.request _ _, _⟩ | ⟨.cleaner _, _⟩ => isTrue trivial

/-! ## What a step stamps -/

section Stamps

variable {cfg : Settings} {s s' : World} {action : Action} {job : JobId}

/-- A worker writes the row of its own job. -/
theorem Worker.held_of_write {worker : Worker} {w : Write} (writing : worker.write = some w) :
    worker.held = some w.job := by
  cases worker with
  | committingMark own path row verdict =>
    cases writing
    exact congrArg some (Write.mark_job own row verdict).symm
  | committingMissing | committingRunning | committingDelivering | committingDone
  | committingFailed =>
    cases writing
    rfl
  | _ => cases writing

theorem Worker.held_of_spent {timing : Timing} {worker : Worker} {budget : Nat}
    (spends : worker.spent timing = some (job, budget)) : worker.held = some job := by
  cases worker with
  | analysing | committingDelivering | committingDone | committingFailed | delivering | marking
  | committingMark =>
    cases spends
    rfl
  | _ => cases spends

theorem Worker.running_of_spent {timing : Timing} {worker : Worker} {budget : Nat}
    (unsent : worker.handed = none) (spends : worker.spent timing = some (job, budget)) :
    ∃ row, worker.running = some (job, row) := by
  cases worker with
  | analysing | committingDelivering | committingDone | committingFailed =>
    cases spends
    exact ⟨_, rfl⟩
  | delivering | marking | committingMark => cases unsent
  | _ => cases spends

/-- A row that a job has had before is stamped by a write of the job only. -/
theorem untouched (taken : Step cfg s action s') (issued : job < s.nextJob)
    (others : ∀ w ∈ writes cfg s action, w.job ≠ job) : touches cfg s action s' job = false := by
  have unwritten : ((writes cfg s action).any fun w =>
      decide (w.job = job) && decide (w.target ≠ w.loaded)) = false := by
    refine List.any_eq_false.mpr fun w member => ?_
    simp [others w member]
  have kept : ((s.jobs job).isNone && (s'.jobs job).isSome) = false := by
    cases now : s'.jobs job with
    | none => simp
    | some row' =>
      obtain ⟨row, present, -⟩ := columns_step taken issued now
      simp [present]
  unfold touches
  rw [unwritten, kept]
  rfl

/-- A write of a changed column stamps its row. -/
theorem touched {w : Write} (member : w ∈ writes cfg s action) (changed : w.target ≠ w.loaded) :
    touches cfg s action s' w.job = true := by
  have written : ((writes cfg s action).any fun other =>
      decide (other.job = w.job) && decide (other.target ≠ other.loaded)) = true := by
    refine List.any_eq_true.mpr ⟨w, member, ?_⟩
    simp [changed]
  unfold touches
  rw [written]
  rfl

/-- While a worker waits, no other task writes its job's row. -/
theorem foreign_writes (cfg : Settings) (exclusive : Exclusive s) {index : Nat} {worker : Worker}
    (found : s.workers[index]? = some worker) (held : worker.held = some job)
    (unsent : ∀ w, s.reconciler.write = some w → w.job ≠ job)
    (waiting : ∀ outcome, action ≠ .worker index outcome) :
    ∀ w ∈ writes cfg s action, w.job ≠ job := by
  intro w member same
  unfold writes at member
  split at member
  · rename_i acting
    obtain ⟨other, there, writing⟩ := Option.bind_eq_some_iff.mp (Option.mem_toList.mp member)
    have also := Worker.held_of_write writing
    rw [same] at also
    obtain rfl := exclusive.index_eq found there held also
    exact waiting _ rfl
  · exact unsent w (Option.mem_toList.mp member) same
  · obtain ⟨entry, selected, rfl⟩ := List.mem_map.mp member
    refine exclusive.batch_free selected (List.mem_of_getElem? found) ?_
    rw [held]
    exact congrArg some same.symm
  · cases member

theorem clock_step (taken : Step cfg s action s') (still : action ≠ .tick) :
    s'.clock = s.clock := by
  cases taken with
  | crash => rfl
  | tick => exact absurd rfl still
  | receive booted => rfl
  | worker found moved => exact moved.frame.clock
  | request found moved => exact moved.frame.clock
  | reaper moved => exact moved.frame.clock
  | reconciler moved => exact moved.frame.clock
  | cleaner moved => exact moved.frame.clock

/-- The await that a worker begins follows its commit of the row, or an await of
the same stage that has written nothing. -/
theorem World.WorkerStep.spent {timing : Timing} {outcome : Outcome} {old new : Worker}
    {after : World} {budget : Nat} (moved : s.WorkerStep old outcome after new)
    (spends : new.spent timing = some (job, budget)) :
    (∃ w, outcome = .returns ∧ old.write = some w ∧ w.job = job ∧
        ((∀ row, old.loaded = some row → row.status ≠ .running) → w.target ≠ w.loaded) ∧
        old.limit timing = some timing.commit ∧ budget = timing.commit) ∨
      ∃ before limit, old.spent timing = some (job, before) ∧ old.limit timing = some limit ∧
        before + limit ≤ budget ∧ old.handed = new.handed ∧
        (outcome = .returns → old.write = none) := by
  cases moved with
  | start committed =>
    cases spends
    refine Or.inl ⟨_, rfl, rfl, rfl, fun idle same => idle _ rfl ?_, rfl, rfl⟩
    exact (congrArg IngestJob.status same).symm
  | store committed =>
    cases spends
    refine Or.inl ⟨_, rfl, rfl, rfl, fun _ same => ?_, rfl, rfl⟩
    cases congrArg IngestJob.status same
  | restart =>
    cases spends
    refine Or.inr ⟨_, _, rfl, rfl, ?_, rfl, nofun⟩
    simp
  | exhaust | conclude =>
    cases spends
    refine Or.inr ⟨_, _, rfl, rfl, ?_, rfl, nofun⟩
    split <;> omega
  | nothing =>
    cases spends
    refine Or.inr ⟨_, _, rfl, rfl, ?_, rfl, fun _ => rfl⟩
    split <;> omega
  | unstored | unfinished =>
    cases spends
    refine Or.inr ⟨_, _, rfl, rfl, ?_, rfl, nofun⟩
    omega
  | delivered | rejected | observe =>
    cases spends
    exact Or.inr ⟨_, _, rfl, rfl, Nat.le_refl _, rfl, fun _ => rfl⟩
  | _ => cases spends

end Stamps

/-! ## Workers keep ahead of the ages -/

/-- What a step of the timed system does. -/
structure TimedRule (cfg : Settings) (t : Timed) (event : TimedAction) (t' : Timed) : Prop where
  taken : Step cfg t.world event.action t'.world
  updated : ∀ job, t'.updated job =
    if touches cfg t.world event.action t'.world job then event.stamp else t.updated job
  begun : t'.begun = t.entered event.action

/-- Every running await of a worker is within its limit, and has begun within the
budget since the UPDATE of the row. -/
structure Clocked (timing : Timing) (t : Timed) : Prop where
  prompt : ∀ index worker limit, t.world.workers[index]? = some worker →
    worker.limit timing = some limit → t.world.clock ≤ t.begun index + limit
  analysing : ∀ index worker job budget, t.world.workers[index]? = some worker →
    worker.handed = none → worker.spent timing = some (job, budget) →
    t.begun index ≤ t.updated job + budget

section Budgets

variable {cfg : Settings} {timing : Timing} {t t' : Timed} {event : TimedAction}

theorem timed_rule (taken : timedStep cfg t event = some t') : TimedRule cfg t event t' := by
  obtain ⟨next, moved, same⟩ := Option.map_eq_some_iff.mp taken
  cases same
  exact ⟨step_rule moved, fun _ => rfl, rfl⟩

theorem Timed.entered_other {index : Nat} {action : Action}
    (waiting : ∀ outcome, action ≠ .worker index outcome) :
    t.entered action index = t.begun index := by
  cases action with
  | worker acting outcome =>
    have other : index ≠ acting := fun same => waiting outcome (by rw [same])
    exact Function.update_of_ne other _ _
  | _ => rfl

theorem Timed.entered_own (index : Nat) (outcome : Outcome) :
    t.entered (.worker index outcome) index = t.world.clock := Function.update_self _ _ _

/-- A statement of a worker's await is not older than the await. -/
theorem Timely.stamped {index : Nat} {outcome : Outcome} (timely : Timely timing t event)
    (acting : event.action = .worker index outcome) : t.begun index ≤ event.stamp := by
  unfold Timely at timely
  rw [acting] at timely
  exact timely.1

/-- Time passes only while every await stays within its limit. -/
theorem Timely.ticks {index limit : Nat} {worker : Worker} (timely : Timely timing t event)
    (ticking : event.action = .tick) (found : t.world.workers[index]? = some worker)
    (limited : worker.limit timing = some limit) : t.world.clock < t.begun index + limit := by
  unfold Timely at timely
  rw [ticking] at timely
  exact timely (worker, index) (List.mem_zipIdx_iff_getElem?.mpr found) limit limited

theorem clocked_prompt (rule : TimedRule cfg t event t') (timely : Timely timing t event)
    (clocked : Clocked timing t) {index limit : Nat} {worker : Worker}
    (found : t'.world.workers[index]? = some worker)
    (limited : worker.limit timing = some limit) : t'.world.clock ≤ t'.begun index + limit := by
  rw [rule.begun]
  rcases worker_step rule.taken found with
    ⟨kept, waiting⟩ | rfl | ⟨outcome, old, after, acting, here, moved, form⟩
  · rw [Timed.entered_other waiting]
    by_cases ticking : event.action = .tick
    · have before := timely.ticks ticking kept limited
      have later : t'.world.clock = t.world.clock + 1 := by
        have taken := rule.taken
        rw [ticking] at taken
        generalize t'.world = next at taken
        cases taken
        rfl
      omega
    · rw [clock_step rule.taken ticking]
      exact clocked.prompt index worker limit kept limited
  · cases limited
  · rw [clock_step rule.taken (by rw [acting]; exact nofun), acting, Timed.entered_own]
    exact Nat.le_add_right _ _

/-- One worker's budget: a row that nobody else writes keeps its time, an UPDATE of
the worker restarts it, and an await uses up its limit. -/
theorem budget_step (rule : TimedRule cfg t event t') (timely : Timely timing t event)
    (sound : Sound t.world) (exclusive : Exclusive t.world) (clocked : Clocked timing t)
    {index budget : Nat} {worker : Worker} {job : JobId}
    (found : t'.world.workers[index]? = some worker)
    (spends : worker.spent timing = some (job, budget))
    (before : ∀ old spent, t.world.workers[index]? = some old → old.handed = worker.handed →
      old.spent timing = some (job, spent) → t.begun index ≤ t.updated job + spent)
    (unsent : t.world.workers[index]? = some worker →
      ∀ w, t.world.reconciler.write = some w → w.job ≠ job) :
    t'.begun index ≤ t'.updated job + budget := by
  have kept {own : Worker} {spent : Nat} (present : t.world.workers[index]? = some own)
      (spends : own.spent timing = some (job, spent))
      (others : ∀ w ∈ writes cfg t.world event.action, w.job ≠ job) :
      t'.updated job = t.updated job := by
    have held := Worker.held_of_spent spends
    have issued := exclusive.issued own (List.mem_of_getElem? present) job held
    rw [rule.updated, untouched rule.taken issued others]
    rfl
  rw [rule.begun]
  rcases worker_step rule.taken found with
    ⟨present, waiting⟩ | rfl | ⟨outcome, old, after, acting, here, moved, form⟩
  · have held := Worker.held_of_spent spends
    have others := foreign_writes cfg exclusive present held (unsent present) waiting
    rw [Timed.entered_other waiting, kept present spends others]
    exact before worker budget present rfl spends
  · cases spends
  · rw [acting, Timed.entered_own]
    rcases moved.spent spends with
      ⟨w, rfl, writing, rfl, changes, limited, rfl⟩ |
        ⟨spent, limit, spends, limited, paid, same, silent⟩
    · have changed := changes (sound.loaded old (List.mem_of_getElem? here))
      have stamped := timely.stamped acting
      have prompt := clocked.prompt index old timing.commit here limited
      have member : w ∈ writes cfg t.world event.action := by
        rw [acting]
        exact mem_writes_worker cfg here writing
      rw [rule.updated, touched member changed, if_pos rfl]
      omega
    · have prompt := clocked.prompt index old limit here limited
      have known := before old spent here same spends
      have others : ∀ w ∈ writes cfg t.world event.action, w.job ≠ job := by
        intro w member
        rw [acting] at member
        cases outcome with
        | returns => simp [writes, here, silent rfl] at member
        | _ => cases member
      rw [kept here spends others]
      omega

end Budgets

/-! ## The reaper -/

section Reaper

variable {cfg : Settings} {timing : Timing} {t t' : Timed} {event : TimedAction}

/-- A RUNNING row that a worker holds is one that it is analysing. -/
theorem analysing_of_running (staged : Staged t.world) {worker : Worker} {job : JobId}
    (member : worker ∈ t.world.workers) (held : worker.held = some job)
    (running : t.world.jobs.statusOf job = some .running) :
    ∃ row, worker.running = some (job, row) := by
  have unstarted (fresh : worker.fresh = some job) : False := by
    have pending := staged.unstarted job (unstarted_pos member fresh)
    rw [running] at pending
    cases pending
  have sent (handed : worker.handed = some job) : False := by
    have status := (staged.handed worker member job handed).2 .running running
    cases status
  have finished (closed : worker.closed = some job) : False := by
    have status := (staged.closed worker member job closed).2 .running running
    cases status
  cases worker with
  | idle => cases held
  | selecting | restoring | committingMissing | committingRunning => exact (unstarted held).elim
  | analysing | committingDelivering | committingDone | committingFailed =>
    cases held
    exact ⟨_, rfl⟩
  | delivering | marking | committingMark => exact (sent held).elim
  | notifying | discarding => exact (finished held).elim

/-- An analysis uses up two attempts and three commits at most. -/
theorem Worker.analysis_bounded {worker : Worker} {job : JobId} {row : IngestJob}
    (running : worker.running = some (job, row)) :
    worker.handed = none ∧ ∃ budget limit, worker.spent timing = some (job, budget) ∧
      worker.limit timing = some limit ∧
      budget + limit ≤ 2 * timing.overall + 3 * timing.commit := by
  cases worker with
  | analysing own loaded bundle attempt =>
    cases running
    refine ⟨rfl, _, _, rfl, rfl, ?_⟩
    split <;> omega
  | committingDelivering | committingDone | committingFailed =>
    cases running
    refine ⟨rfl, _, _, rfl, rfl, ?_⟩
    omega
  | _ => cases running

/-- A RUNNING row that a worker holds is younger than an analysis can last. -/
theorem Clocked.young (clocked : Clocked timing t) (staged : Staged t.world) {worker : Worker}
    {job : JobId} (member : worker ∈ t.world.workers) (held : worker.held = some job)
    (running : t.world.jobs.statusOf job = some .running) :
    t.world.clock ≤ t.updated job + (2 * timing.overall + 3 * timing.commit) := by
  obtain ⟨index, found⟩ := List.mem_iff_getElem?.mp member
  obtain ⟨row, analysing⟩ := analysing_of_running staged member held running
  obtain ⟨unsent, budget, limit, spends, limited, bounded⟩ := Worker.analysis_bounded analysing
  have prompt := clocked.prompt index worker limit found limited
  have begun := clocked.analysing index worker job budget found unsent spends
  omega

/-- What makes an old RUNNING row one that no worker holds. -/
theorem Timely.undisputed (timely : Timely timing t event) (phased : Phased t.world)
    (staged : Staged t.world) (clocked : Clocked timing t)
    (slack : 2 * timing.overall + 3 * timing.commit < timing.stuckAfter) :
    Undisputed t.world event.action := by
  unfold Timely at timely
  cases acting : event.action with
  | crash =>
    rw [acting] at timely
    exact timely
  | reaper outcome =>
    rw [acting] at timely
    intro entry found
    have running := (collected_running found).1
    split
    · -- the periodic reaper has selected the row by its age
      rename_i booted
      intro worker member held
      have young := clocked.young staged member held running
      unfold World.collected at found
      split at found
      · rename_i sweeping
        have down := phased.recovering (by rw [sweeping]; rfl)
        rw [booted] at down
        cases down
      · have due := of_decide_eq_true (mem_runningRows found).2.2
        have old := timely.1 entry.1 due
        omega
      · cases found
    · rename_i down
      exact timely.2 (Bool.eq_false_iff.mpr down) entry found
  | _ => trivial

theorem clocked_step (rule : TimedRule cfg t event t') (timely : Timely timing t event)
    (sound : Sound t.world) (exclusive : Exclusive t.world) (staged : Staged t.world)
    (clocked : Clocked timing t) : Clocked timing t' := by
  constructor
  · intro index worker limit found limited
    exact clocked_prompt rule timely clocked found limited
  · intro index worker job budget found unsent spends
    refine budget_step rule timely sound exclusive clocked found spends ?_ ?_
    · intro old spent here same spends
      exact clocked.analysing index old job spent here (same.trans unsent) spends
    · intro here w writing same
      -- the reconciler writes rows that have left RUNNING
      obtain ⟨row, analysing⟩ := Worker.running_of_spent unsent spends
      have running := staged.running worker (List.mem_of_getElem? here) job row analysing
      obtain ⟨-, sending, -⟩ := Reconciler.mark_write writing
      have status := (staged.sent w.job sending).2 .running (same ▸ running)
      cases status

end Reaper

/-! ## Runs -/

section Runs

variable {cfg : Settings} {timing : Timing} {start t : Timed}

/-- Nothing holds a job of a process that has just entered `lifespan`. -/
theorem Starting.staged {s : World} (starting : Starting s) : Staged s := by
  have idle {worker : Worker} (member : worker ∈ s.workers) : worker = .idle := by
    rw [starting.booting] at member
    obtain ⟨old, -, same⟩ := List.mem_map.mp member
    exact same.symm
  have asleep : s.reconciler = .sleeping := by
    rw [starting.booting]
    rfl
  have reading : s.reaper = .requeuing := by
    rw [starting.booting]
    rfl
  refine ⟨fun job claimed => ?_, fun worker member job row analysing => ?_, fun entry member => ?_,
    fun worker member job sending => ?_, fun job sending => ?_,
    fun worker member job finished => ?_, fun job finished => ?_, fun job finished => ?_⟩
  · rw [starting.booting, unstarted_boot] at claimed
    cases claimed
  · rw [idle member] at analysing
    cases analysing
  · rw [reading] at member
    cases member
  · rw [idle member] at sending
    cases sending
  · rw [asleep] at sending
    cases sending
  · rw [idle member] at finished
    cases finished
  · rw [asleep] at finished
    cases finished
  · rw [reading] at finished
    cases finished

theorem Starting.clocked (starting : Starting start.world) : Clocked timing start := by
  have idle {index : Nat} {worker : Worker} (found : start.world.workers[index]? = some worker) :
      worker = .idle := by
    rw [starting.booting] at found
    obtain ⟨old, -, same⟩ := List.mem_map.mp (List.mem_of_getElem? found)
    exact same.symm
  constructor
  · intro index worker limit found limited
    rw [idle found] at limited
    cases limited
  · intro index worker job budget found _ spends
    rw [idle found] at spends
    cases spends

/-- The invariants of the timed system. -/
structure TimedInvariant (timing : Timing) (t : Timed) : Prop where
  phased : Phased t.world
  sound : Sound t.world
  exclusive : Exclusive t.world
  staged : Staged t.world
  clocked : Clocked timing t

theorem timed_invariant (starting : Starting start.world)
    (slack : 2 * timing.overall + 3 * timing.commit < timing.stuckAfter)
    (reached : TransitionSystem.Reaches (timedStep cfg) (Timely timing) start t) :
    TimedInvariant timing t := by
  refine reached.invariant (TimedInvariant timing)
    ⟨starting.phased, starting.sound, starting.exclusive, starting.staged, starting.clocked⟩ ?_
  rintro state event next - ⟨phased, sound, exclusive, staged, clocked⟩ timely taken
  have rule := timed_rule taken
  have undisputed := timely.undisputed phased staged clocked slack
  exact ⟨phased_step rule.taken phased, sound_step rule.taken phased sound,
    exclusive_step rule.taken sound exclusive undisputed,
    staged_step rule.taken sound exclusive staged,
    clocked_step rule timely sound exclusive staged clocked⟩

/-- A worker that restarts its runner just within the limits, and a reaper that
looks meanwhile. -/
def restartedRun : List TimedAction :=
  [⟨.reaper .returns, 0⟩, ⟨.reaper .returns, 0⟩, ⟨.worker 0 .returns, 0⟩, ⟨.worker 0 .returns, 0⟩,
    ⟨.worker 0 .returns, 0⟩, ⟨.reaper .returns, 0⟩, ⟨.reaper .returns, 0⟩, ⟨.reaper .returns, 0⟩,
    ⟨.reaper .returns, 0⟩, ⟨.tick, 0⟩, ⟨.worker 0 .returns, 0⟩, ⟨.tick, 0⟩,
    ⟨.worker 0 (.raises []), 2⟩, ⟨.tick, 0⟩, ⟨.worker 0 (.produced (.bare [])), 3⟩, ⟨.tick, 0⟩]

/-- The run of a process that finds one PENDING job, with times of no row yet. -/
def Timed.restarted : Timed := ⟨World.restarted, fun _ => 0, fun _ => 0⟩

end Runs

/-! ## The bound is tight -/

section Tight

variable (cfg : Settings) (timing : Timing)

/-- The row of the job that the restart finds, and its bundle. -/
def restartedRow : IngestJob := newRow (.bare .epoch) ⟨0, .json⟩

/-- The table after the job's RUNNING commit. -/
def runningJobs : JobTable := World.restarted.jobs.overwritten (.running 1 restartedRow)

/-- The one worker has the job and has begun its await, the loop of the reaper sleeps, and the
row was last updated at the time zero. -/
structure Busy (t : Timed) (jobs : JobTable) (worker : Worker) (begun clock : Nat) : Prop where
  jobs : t.world.jobs = jobs
  nextJob : t.world.nextJob = 2
  queue : t.world.queue = []
  workers : t.world.workers = [worker]
  reaper : t.world.reaper = .sleeping
  booted : t.world.booted = true
  clock : t.world.clock = clock
  updated : t.updated 1 = 0
  begun : t.begun 0 = begun

/-- Time passes while a worker's await lasts. -/
theorem Busy.waits {t : Timed} {jobs : JobTable} {worker : Worker} {begun clock : Nat}
    (busy : Busy t jobs worker begun clock) (seconds : Nat)
    (patient : ∀ limit ∈ worker.limit timing, clock + seconds ≤ begun + limit) :
    ∃ t', TransitionSystem.Reaches (timedStep cfg) (Timely timing) t t' ∧
      Busy t' jobs worker begun (clock + seconds) := by
  induction seconds with
  | zero => exact ⟨t, .refl, busy⟩
  | succ seconds inductionHypothesis =>
    obtain ⟨t', reached, busy⟩ := inductionHypothesis fun limit limited => by
      have room := patient limit limited
      omega
    have timely : Timely timing t' ⟨.tick, 0⟩ := by
      intro entry listed limit limited
      rw [busy.workers] at listed
      obtain rfl := List.mem_singleton.mp listed
      have room := patient limit limited
      rw [busy.clock, busy.begun]
      omega
    refine ⟨_, .step reached timely rfl, ?_⟩
    refine ⟨busy.jobs, busy.nextJob, busy.queue, busy.workers, busy.reaper, busy.booted, ?_, ?_,
      busy.begun⟩
    · rw [← Nat.add_assoc, ← busy.clock]
    · have kept : touches cfg t'.world .tick { t'.world with clock := t'.world.clock + 1 } 1 =
          false := by
        cases present : t'.world.jobs 1 <;> simp [touches, writes, present]
      simp only [kept]
      exact busy.updated

/-- The worker goes on to its next await without an UPDATE. -/
theorem Busy.goes {t : Timed} {jobs : JobTable} {worker next : Worker} {begun clock : Nat}
    (busy : Busy t jobs worker begun clock) (early : begun ≤ clock) (outcome : Outcome)
    (unwritten : outcome ≠ .returns)
    (moves : ∀ s : World, s.stepWorker worker outcome = some (s, next)) :
    ∃ t', TransitionSystem.Reaches (timedStep cfg) (Timely timing) t t' ∧
      Busy t' jobs next clock clock := by
  have taken : timedStep cfg t ⟨.worker 0 outcome, clock⟩ = some
      { world := { t.world with workers := t.world.workers.set 0 next }
        updated := fun job => if touches cfg t.world (.worker 0 outcome)
          { t.world with workers := t.world.workers.set 0 next } job then clock else t.updated job
        begun := Function.update t.begun 0 t.world.clock } := by
    have stepped : step cfg t.world (.worker 0 outcome) =
        some { t.world with workers := t.world.workers.set 0 next } := by
      simp [step, busy.workers, moves]
    simp only [timedStep, stepped, Option.map_some]
    rfl
  have timely : Timely timing t ⟨.worker 0 outcome, clock⟩ := by
    refine ⟨?_, ?_⟩
    · simpa only [busy.begun] using early
    · rw [busy.clock]
  refine ⟨_, .step .refl timely taken, ?_⟩
  refine ⟨busy.jobs, busy.nextJob, busy.queue, by simp [busy.workers], busy.reaper, busy.booted,
    busy.clock, ?_, by simp [busy.clock]⟩
  have kept : touches cfg t.world (.worker 0 outcome)
      { t.world with workers := t.world.workers.set 0 next } 1 = false := by
    have none : writes cfg t.world (.worker 0 outcome) = [] := by
      cases outcome with
      | returns => exact absurd rfl unwritten
      | _ => rfl
    cases present : t.world.jobs 1 <;> simp [touches, none, present]
  simp only [kept]
  exact busy.updated

/-- The statement of the RUNNING commit is executed as soon as it is sent. -/
theorem Busy.starts {t : Timed} {clock : Nat}
    (busy : Busy t World.restarted.jobs (.committingRunning 1 restartedRow (.bare .epoch)) 0 clock) :
    ∃ t', TransitionSystem.Reaches (timedStep cfg) (Timely timing) t t' ∧
      Busy t' runningJobs (.analysing 1 restartedRow (.bare .epoch) 1) clock clock := by
  have timely : Timely timing t ⟨.worker 0 .returns, 0⟩ := by
    refine ⟨?_, Nat.zero_le _⟩
    rw [busy.begun]
  obtain ⟨⟨⟩, updated, begun⟩ := t
  obtain ⟨rfl, rfl, rfl, rfl, rfl, rfl, rfl, same, -⟩ := busy
  refine ⟨_, .step .refl timely rfl, ?_⟩
  exact ⟨rfl, rfl, rfl, rfl, rfl, rfl, rfl, rfl, rfl⟩

/-- The reaper takes an old row for one that a dead worker has left. -/
theorem Busy.reaped {t : Timed} {worker : Worker} {begun clock : Nat} (held : worker.held = some 1)
    (busy : Busy t runningJobs worker begun clock) (old : timing.stuckAfter ≤ clock) :
    ∃ t', TransitionSystem.Reaches (timedStep ⟨1, 0⟩) (Timely timing) t t' ∧
      t'.world.claims 1 = 2 := by
  have timely : Timely timing t ⟨.reaper (.selected [1]), clock⟩ := by
    refine ⟨?_, fun down => ?_⟩
    · intro job due
      obtain rfl := List.mem_singleton.mp due
      rw [busy.updated, busy.clock, Nat.zero_add]
      exact old
    · rw [busy.booted] at down
      cases down
  obtain ⟨⟨⟩, updated, begun⟩ := t
  obtain ⟨rfl, rfl, rfl, rfl, rfl, rfl, rfl, same, -⟩ := busy
  have next {t : Timed} : Timely timing t ⟨.reaper .returns, 0⟩ ↔ (t.world.booted = false →
      ∀ entry ∈ t.world.collected .returns, t.world.startsHere entry.1 = 0) := by
    exact and_iff_right (List.forall_mem_nil _)
  refine ⟨_, .step (.step (.step .refl timely rfl) (next.mpr ?_) rfl) (next.mpr ?_) rfl, ?_⟩
  · rintro ⟨⟩
  · rintro ⟨⟩
  · have queued : ([1] : List JobId).count 1 +
        [worker].countP (fun worker => decide (worker.held = some 1)) = 2 := by
      rw [List.countP_singleton, if_pos (decide_eq_true held), List.count_singleton_self]
    exact queued

end Tight

/-! ## The age of a stuck job -/

namespace World

/-- The tasks that are sending the job's report, or are about to. -/
def senders (s : World) (job : JobId) : Nat :=
  (s.workers.countP fun worker => worker.handed = some job) + s.reconciler.handed.count job

end World

section Senders

variable {cfg : Settings} {s : World} {job : JobId}

theorem Worker.held_of_handed {worker : Worker} (handed : worker.handed = some job) :
    worker.held = some job := by
  cases worker with
  | delivering | marking | committingMark => exact handed
  | _ => cases handed

/-- A worker that sends a report was sending it, or has ended its analysis. -/
theorem World.WorkerStep.sends {outcome : Outcome} {old new : Worker} {after : World}
    (moved : s.WorkerStep old outcome after new) (sending : new.handed = some job) :
    old.handed = some job ∨ ∃ row, old.running = some (job, row) := by
  cases moved with
  | store committed =>
    cases sending
    exact Or.inr ⟨_, rfl⟩
  | delivered | rejected | observe => exact Or.inl sending
  | _ => cases sending

/-- The reconciler goes through its list, which a SELECT has filled. -/
theorem World.ReconcilerStep.selects {outcome : Outcome} {old new : Reconciler} {after : World}
    (moved : s.ReconcilerStep old outcome after new) :
    new.handed.Sublist old.handed ∨ ∃ due, outcome = .selected due ∧
      (∀ job ∈ new.handed, job ∈ due) ∧ new.handed.Nodup := by
  cases moved with
  | @select due booted =>
    refine Or.inr ⟨due, rfl, fun job sending => ?_, ?_⟩
    · obtain ⟨entry, member, rfl⟩ := List.mem_map.mp sending
      exact of_decide_eq_true (List.mem_filter.mp member).2
    · exact (s.jobs.select_nodup s.nextJob .delivering).sublist (List.filter_sublist.map _)
  | skip | unanswered | unavailable | settled | mark => exact Or.inl (List.sublist_cons_self _ _)
  | restore | delivered | rejected | observe | discard | keep => exact Or.inl (List.Sublist.refl _)
  | finish | unread | unmarked => exact Or.inl (List.nil_sublist _)

end Senders

/-- A worker's report is not with the reconciler, whose list names no job twice; and
the worker's awaits have begun within the budget since the DELIVERING UPDATE. -/
structure Apart (timing : Timing) (t : Timed) : Prop where
  apart : ∀ worker ∈ t.world.workers, ∀ job, worker.handed = some job →
    job ∉ t.world.reconciler.handed
  distinct : t.world.reconciler.handed.Nodup
  sending : ∀ index worker job budget, t.world.workers[index]? = some worker →
    worker.handed = some job → worker.spent timing = some (job, budget) →
    t.begun index ≤ t.updated job + budget

section Grace

variable {cfg : Settings} {timing : Timing} {start t t' : Timed} {event : TimedAction}

/-- A report in a worker's hands uses up two commits, a request and a SELECT at most. -/
theorem Worker.delivery_bounded (timing : Timing) {worker : Worker} {job : JobId}
    (sending : worker.handed = some job) :
    ∃ budget limit, worker.spent timing = some (job, budget) ∧
      worker.limit timing = some limit ∧
      budget + limit ≤ 2 * timing.commit + timing.post + timing.read := by
  cases worker with
  | delivering | marking | committingMark =>
    cases sending
    refine ⟨_, _, rfl, rfl, ?_⟩
    omega
  | _ => cases sending

/-- A row whose report a worker is sending is younger than a delivery can last. -/
theorem Apart.young (apart : Apart timing t) (clocked : Clocked timing t) {worker : Worker}
    {job : JobId} (member : worker ∈ t.world.workers) (sending : worker.handed = some job) :
    t.world.clock ≤ t.updated job + (2 * timing.commit + timing.post + timing.read) := by
  obtain ⟨index, found⟩ := List.mem_iff_getElem?.mp member
  obtain ⟨budget, limit, spends, limited, bounded⟩ :=
    Worker.delivery_bounded timing sending
  have prompt := clocked.prompt index worker limit found limited
  have begun := apart.sending index worker job budget found sending spends
  omega

theorem apart_selected (rule : TimedRule cfg t event t') (timely : Timely timing t event)
    (room : 2 * timing.commit + timing.post + timing.read < timing.grace)
    (invariant : TimedInvariant timing t) (apart : Apart timing t) {worker : Worker}
    (member : worker ∈ t'.world.workers) {job : JobId} (sending : worker.handed = some job) :
    job ∉ t'.world.reconciler.handed := by
  intro listed
  rcases workers_step rule.taken member with kept | rfl | ⟨_, _, old, _, acting, found, moved, -⟩
  · rcases reconciler_step rule.taken with same | booted | ⟨outcome, after, acting, -, moved⟩
    · exact apart.apart worker kept job sending (same ▸ listed)
    · rw [booted] at listed
      cases listed
    · rcases moved.selects with fewer | ⟨due, rfl, wanted, -⟩
      · exact apart.apart worker kept job sending (fewer.subset listed)
      · -- the reconciler has selected the row by its age
        have young := apart.young invariant.clocked kept sending
        unfold Timely at timely
        rw [acting] at timely
        have old := timely job (wanted job listed)
        omega
  · cases sending
  · have before : job ∈ t.world.reconciler.handed := by
      rcases reconciler_step rule.taken with same | booted | ⟨_, _, other, -, -⟩
      · exact same ▸ listed
      · rw [booted] at listed
        cases listed
      · rw [acting] at other
        cases other
    have present := List.mem_of_getElem? found
    rcases moved.sends sending with handed | ⟨row, analysing⟩
    · exact apart.apart old present job handed before
    · have running := invariant.staged.running old present job row analysing
      have status := (invariant.staged.sent job before).2 .running running
      cases status

theorem apart_step (rule : TimedRule cfg t event t') (timely : Timely timing t event)
    (room : 2 * timing.commit + timing.post + timing.read < timing.grace)
    (invariant : TimedInvariant timing t) (apart : Apart timing t) : Apart timing t' := by
  constructor
  · intro worker member job sending
    exact apart_selected rule timely room invariant apart member sending
  · rcases reconciler_step rule.taken with same | booted | ⟨outcome, after, acting, -, moved⟩
    · rw [same]
      exact apart.distinct
    · rw [booted]
      exact List.nodup_nil
    · rcases moved.selects with fewer | ⟨due, -, -, once⟩
      · exact apart.distinct.sublist fewer
      · exact once
  · intro index worker job budget found sending spends
    refine budget_step rule timely invariant.sound invariant.exclusive invariant.clocked found
      spends ?_ ?_
    · intro old spent here same spends
      exact apart.sending index old job spent here (same.trans sending) spends
    · intro here w writing same
      obtain ⟨-, listed, -⟩ := Reconciler.mark_write writing
      exact apart.apart worker (List.mem_of_getElem? here) job sending (same ▸ listed)

theorem Starting.apart (starting : Starting start.world) : Apart timing start := by
  have asleep : start.world.reconciler = .sleeping := by
    rw [starting.booting]
    rfl
  constructor
  · intro worker _ job _
    rw [asleep]
    exact List.not_mem_nil
  · rw [asleep]
    exact List.nodup_nil
  · intro index worker job budget found sending spends
    rw [starting.booting] at found
    obtain ⟨old, -, rfl⟩ := List.mem_map.mp (List.mem_of_getElem? found)
    cases sending

/-- Where `grace_seconds` also exceeds two commits, a request and a SELECT, at most
one task at a time sends a job's report: the reconciler never takes up what a
worker is still sending. -/
theorem grace_age_suffices (timing : Timing) (starting : Starting start.world)
    (slack : 2 * timing.overall + 3 * timing.commit < timing.stuckAfter)
    (room : 2 * timing.commit + timing.post + timing.read < timing.grace)
    (reached : TransitionSystem.Reaches (timedStep cfg) (Timely timing) start t) (job : JobId) :
    t.world.senders job ≤ 1 := by
  have invariant : TimedInvariant timing t := timed_invariant starting slack reached
  have apart : Apart timing t := by
    refine reached.invariant (Apart timing) starting.apart ?_
    intro state event next before apart timely taken
    exact apart_step (timed_rule taken) timely room (timed_invariant starting slack before) apart
  have once := invariant.exclusive.once job
  have listed := List.nodup_iff_count_le_one.mp apart.distinct job
  have fewer : (t.world.workers.countP fun worker => decide (worker.handed = some job)) ≤
      t.world.workers.countP fun worker => decide (worker.held = some job) := by
    refine List.countP_mono_left fun worker _ sending => ?_
    exact decide_eq_true (Worker.held_of_handed (of_decide_eq_true sending))
  unfold World.prospects World.claims at once
  unfold World.senders
  by_cases reconciled : job ∈ t.world.reconciler.handed
  · have unsent : (t.world.workers.countP fun worker => decide (worker.handed = some job)) = 0 := by
      refine List.countP_eq_zero.mpr fun worker member sending => ?_
      exact apart.apart worker member job (of_decide_eq_true sending) reconciled
    omega
  · rw [List.count_eq_zero.mpr reconciled]
    omega

/-- The worker commits DELIVERING and gives up; the reconciler takes the report up
when its row is old enough. -/
def redeliveredRun : List TimedAction :=
  restartedRun ++ [⟨.worker 0 .returns, 4⟩, ⟨.tick, 0⟩, ⟨.worker 0 .unavailable, 5⟩, ⟨.tick, 0⟩,
    ⟨.tick, 0⟩, ⟨.tick, 0⟩, ⟨.tick, 0⟩, ⟨.reconciler (.selected [1]), 9⟩]

theorem grace_age_suffices_redelivered :
    ∃ t, TransitionSystem.run (timedStep ⟨1, 0⟩) Timed.restarted redeliveredRun = some t ∧
      t.world.reconciler.handed = [1] ∧ t.world.senders 1 ≤ 1 := by
  obtain ⟨t, executed, listed⟩ := TransitionSystem.run_passes (timedStep ⟨1, 0⟩) Timed.restarted
    redeliveredRun (fun t => decide (t.world.reconciler.handed = [1])) (by decide)
  exact ⟨t, executed, of_decide_eq_true listed, grace_age_suffices ⟨1, 1, 1, 1, 6, 5⟩
    restarted_starting (by decide) (by decide) (.of_run executed (by decide)) 1⟩

end Grace

end RcaBackend
