import RcaBackend.AnalysisGraph
import RcaBackend.BundleIntegrity
import RcaBackend.RetryBound

/-!
# Jobs and their analysis together

An attempt of `_run_rca` is a run of the analysis graph on the bundle that the worker has
restored. Alone, the job system leaves the outcome of an attempt to its environment. Here
it is the end of the run: its result, the exception of the report agent, or the timeout
that has cancelled it. The nodes of all attempts interleave with all other tasks. A ghost
counts the calls of agents that are made for each job, over all processes.
-/

namespace RcaBackend

open World TransitionSystem

/-! ## The system -/

/-- An attempt of `_run_rca` that has not ended. -/
structure Attempt where
  job : JobId
  number : Nat
  run : GraphRun

/-- What `wait_for` around the runner comes to. -/
def GraphEnd.outcome : GraphEnd → Outcome
  | .returned result => .produced result
  | .raised text => .raises text
  -- the text of a `TimeoutError` is empty
  | .cancelled => .raises []

/-- The attempt that a worker begins. -/
def Worker.attempt : Worker → Option Attempt
  | .analysing job _ bundle number => some ⟨job, number, .start bundle⟩
  | _ => none

/-- The job system, with the attempt of each worker. -/
structure Backend where
  traced : Traced
  attempts : List (Option Attempt)
  made : JobId → Nat

inductive BackendAction where
  | act (action : Action)
  | graph (index : Nat) (action : GraphAction)
  /-- the await of the runner ends with its run -/
  | conclude (index : Nat)

namespace Backend

/-- A first process. -/
def fresh (s : World) : Backend :=
  { traced := ⟨s, fun _ => none⟩, attempts := s.workers.map fun _ => none, made := fun _ => 0 }

/-- After a step of a worker. -/
def after (b : Backend) (index : Nat) (traced : Traced) : Backend :=
  { b with
    traced
    attempts := b.attempts.set index (traced.world.workers[index]?.bind Worker.attempt) }

/-- After a step of a run. -/
def advanced (b : Backend) (index : Nat) (attempt : Attempt) (run : GraphRun) : Backend :=
  { b with
    attempts := b.attempts.set index (some { attempt with run })
    made := Function.update b.made attempt.job
      (b.made attempt.job + (run.calls.length - attempt.run.calls.length)) }

end Backend

section System

variable [PyRuntime]

/-- One step; a worker that awaits its run takes none of its own. -/
def backendStep (cfg : Settings) (b : Backend) : BackendAction → Option Backend
  | .act .crash =>
    (tracedStep cfg b.traced .crash).map fun traced =>
      { b with traced, attempts := b.attempts.map fun _ => none }
  | .act (.worker index outcome) =>
    match b.attempts[index]? with
    | some none => (tracedStep cfg b.traced (.worker index outcome)).map (b.after index)
    | _ => none
  | .act action => (tracedStep cfg b.traced action).map fun traced => { b with traced }
  | .graph index action =>
    match b.attempts[index]? with
    | some (some attempt) => (graphStep attempt.run action).map (b.advanced index attempt)
    | _ => none
  | .conclude index =>
    match b.attempts[index]? with
    | some (some attempt) => do
      let ending ← attempt.run.ending
      let traced ← tracedStep cfg b.traced (.worker index ending.outcome)
      return b.after index traced
    | _ => none

/-- The steps of the whole backend. -/
inductive BackendMoves (cfg : Settings) (b : Backend) : BackendAction → Backend → Prop where
  | crash {traced : Traced} (taken : tracedStep cfg b.traced .crash = some traced) :
      BackendMoves cfg b (.act .crash)
        { b with traced, attempts := b.attempts.map fun _ => none }
  | worker {index : Nat} {outcome : Outcome} {traced : Traced}
      (free : b.attempts[index]? = some none)
      (taken : tracedStep cfg b.traced (.worker index outcome) = some traced) :
      BackendMoves cfg b (.act (.worker index outcome)) (b.after index traced)
  | other {action : Action} {traced : Traced} (up : action ≠ .crash)
      (quiet : ∀ index outcome, action ≠ .worker index outcome)
      (taken : tracedStep cfg b.traced action = some traced) :
      BackendMoves cfg b (.act action) { b with traced }
  | graph {index : Nat} {action : GraphAction} {attempt : Attempt} {run : GraphRun}
      (found : b.attempts[index]? = some (some attempt))
      (taken : graphStep attempt.run action = some run) :
      BackendMoves cfg b (.graph index action) (b.advanced index attempt run)
  | conclude {index : Nat} {attempt : Attempt} {ending : GraphEnd} {traced : Traced}
      (found : b.attempts[index]? = some (some attempt))
      (ended : attempt.run.ending = some ending)
      (taken : tracedStep cfg b.traced (.worker index ending.outcome) = some traced) :
      BackendMoves cfg b (.conclude index) (b.after index traced)

theorem backend_rule {cfg : Settings} {b b' : Backend} {action : BackendAction}
    (taken : backendStep cfg b action = some b') : BackendMoves cfg b action b' := by
  cases action with
  | act action =>
    cases action with
    | crash =>
      simp only [backendStep] at taken
      obtain ⟨traced, moved, same⟩ := Option.map_eq_some_iff.mp taken
      cases same
      exact .crash moved
    | worker index outcome =>
      simp only [backendStep] at taken
      split at taken
      · next free =>
        obtain ⟨traced, moved, same⟩ := Option.map_eq_some_iff.mp taken
        cases same
        exact .worker free moved
      · cases taken
    | tick | receive | request | reaper | reconciler | cleaner =>
      simp only [backendStep] at taken
      obtain ⟨traced, moved, same⟩ := Option.map_eq_some_iff.mp taken
      cases same
      exact .other (fun dead => by cases dead) (fun _ _ acted => by cases acted) moved
  | graph index action =>
    simp only [backendStep] at taken
    split at taken
    · next attempt found =>
      obtain ⟨run, moved, same⟩ := Option.map_eq_some_iff.mp taken
      cases same
      exact .graph found moved
    · cases taken
  | conclude index =>
    simp only [backendStep] at taken
    split at taken
    · next attempt found =>
      obtain ⟨ending, ended, rest⟩ := Option.bind_eq_some_iff.mp taken
      obtain ⟨traced, moved, same⟩ := Option.bind_eq_some_iff.mp rest
      cases same
      exact .conclude found ended moved
    · cases taken

/-! ## The attempts are those of the workers -/

/-- The run has been started on this bundle. -/
def RunOn (bundle : IngestBundle) (run : GraphRun) : Prop :=
  Reaches graphStep (fun _ _ => True) (.start bundle) run

/-- A worker that analyses awaits a run on its bundle, and no other worker awaits one. -/
inductive Attends : Worker → Option Attempt → Prop where
  | free {worker : Worker} (unawaited : worker.attempt = none) : Attends worker none
  | awaiting {job : JobId} {row : IngestJob} {bundle : IngestBundle} {number : Nat}
      {run : GraphRun} (reached : RunOn bundle run) :
      Attends (.analysing job row bundle number) (some ⟨job, number, run⟩)

theorem attends_attempt (worker : Worker) : Attends worker worker.attempt := by
  cases worker with
  | analysing => exact .awaiting .refl
  | _ => exact .free rfl

/-- Each worker has its attempt. -/
structure Coupled (b : Backend) : Prop where
  size : b.attempts.length = b.traced.world.workers.length
  attends : ∀ (index : Nat) worker attempt, b.traced.world.workers[index]? = some worker →
    b.attempts[index]? = some attempt → Attends worker attempt

theorem coupled_fresh (s : World) (idle : ∀ worker ∈ s.workers, worker = .idle) :
    Coupled (.fresh s) := by
  constructor
  · simp [Backend.fresh]
  · intro index worker attempt found awaited
    obtain rfl := idle worker (List.mem_of_getElem? found)
    simp only [Backend.fresh, List.getElem?_map, Option.map_eq_some_iff] at awaited
    obtain ⟨-, -, rfl⟩ := awaited
    exact .free rfl

end System

section Pool

variable {cfg : Settings} {s s' : World}

/-- A worker's own step replaces it in the pool. -/
theorem acting_worker {index : Nat} {outcome : Outcome}
    (taken : Step cfg s (.worker index outcome) s') :
    ∃ old new after, s.workers[index]? = some old ∧ s.WorkerStep old outcome after new ∧
      s' = { after with workers := s.workers.set index new } := by
  cases taken with
  | worker found moved => exact ⟨_, _, _, found, moved, by rw [moved.frame.workers]⟩

/-- The steps of other tasks leave the pool alone. -/
theorem quiet_workers {action : Action} (taken : Step cfg s action s') (up : action ≠ .crash)
    (quiet : ∀ index outcome, action ≠ .worker index outcome) : s'.workers = s.workers := by
  cases taken with
  | crash => exact absurd rfl up
  | worker => exact absurd rfl (quiet _ _)
  | tick | receive => rfl
  | request _ moved => exact moved.frame.workers
  | reaper moved => exact moved.frame.workers
  | reconciler moved => exact moved.frame.workers
  | cleaner moved => exact moved.frame.workers

theorem starts_mono {action : Action} (taken : Step cfg s action s') (job : JobId) :
    s.starts job ≤ s'.starts job := by
  cases step_change taken job with
  | _ => omega

end Pool

section Coupling

variable [PyRuntime] {cfg : Settings} {b b' : Backend} {event : BackendAction}

/-- The step of a worker couples it to the attempt that it begins, if any. -/
theorem coupled_after (coupled : Coupled b) {index : Nat} {outcome : Outcome} {traced : Traced}
    (taken : tracedStep cfg b.traced (.worker index outcome) = some traced) :
    Coupled (b.after index traced) := by
  obtain ⟨old, new, after, found, -, form⟩ := acting_worker (traced_rule taken).taken
  have workers : traced.world.workers = b.traced.world.workers.set index new := by rw [form]
  have bound := (List.getElem?_eq_some_iff.mp found).1
  constructor
  · simp [Backend.after, workers, coupled.size]
  · intro other worker attempt present awaited
    simp only [Backend.after, workers, List.getElem?_set_self bound] at present awaited
    by_cases here : index = other
    · subst here
      rw [List.getElem?_set_self bound] at present
      rw [List.getElem?_set_self (coupled.size ▸ bound)] at awaited
      obtain rfl := Option.some.inj present
      obtain rfl := Option.some.inj awaited
      exact attends_attempt new
    · rw [List.getElem?_set_ne here] at present awaited
      exact coupled.attends other worker attempt present awaited

theorem coupled_step (moved : BackendMoves cfg b event b') (coupled : Coupled b) : Coupled b' := by
  cases moved with
  | @crash traced taken =>
    have workers : traced.world.workers = b.traced.world.workers.map fun _ => .idle := by
      have booted : b.traced.world.boot = traced.world :=
        Option.some.inj (traced_rule taken).moved
      rw [← booted]
      rfl
    constructor
    · simp [workers, coupled.size]
    · intro index worker attempt present awaited
      simp only [workers, List.getElem?_map, Option.map_eq_some_iff] at present awaited
      obtain ⟨-, -, rfl⟩ := present
      obtain ⟨-, -, rfl⟩ := awaited
      exact .free rfl
  | worker _ taken => exact coupled_after coupled taken
  | @other action traced up quiet taken =>
    have workers := quiet_workers (traced_rule taken).taken up quiet
    constructor
    · simp only [workers, coupled.size]
    · intro index worker attempt present awaited
      exact coupled.attends index worker attempt (workers ▸ present) awaited
  | @graph index action attempt run found taken =>
    constructor
    · simp [Backend.advanced, coupled.size]
    · intro other worker awaited present found'
      simp only [Backend.advanced] at present found'
      by_cases here : index = other
      · subst here
        rw [List.getElem?_set_self (List.getElem?_eq_some_iff.mp found).1] at found'
        obtain rfl := Option.some.inj found'
        have attends := coupled.attends index worker _ present found
        cases attends with
        | awaiting reached => exact .awaiting (.step reached trivial taken)
      · rw [List.getElem?_set_ne here] at found'
        exact coupled.attends other worker awaited present found'
  | conclude _ _ taken => exact coupled_after coupled taken

/-! ## Results -/

/-- A run on the bundle can end with the result. -/
def Analyses (bundle : IngestBundle) (result : RcaResult) : Prop :=
  ∃ run, RunOn bundle run ∧ run.ending = some (.returned result)

/-- To the job system, a step of the backend is a step whose result is that of a run on the
bundle of the worker, or it is none. -/
theorem backend_refines (moved : BackendMoves cfg b event b') (coupled : Coupled b) :
    b'.traced = b.traced ∨ ∃ action, Genuine Analyses b.traced action ∧
      tracedStep cfg b.traced action = some b'.traced := by
  cases moved with
  | crash taken => exact Or.inr ⟨.crash, trivial, taken⟩
  | @worker index outcome traced free taken =>
    refine Or.inr ⟨_, ?_, taken⟩
    cases outcome with
    | produced result =>
      intro job row bundle number present
      cases coupled.attends index _ _ present free with
      | free unawaited => cases unawaited
    | _ => trivial
  | @other action traced up quiet taken =>
    refine Or.inr ⟨_, ?_, taken⟩
    cases action with
    | worker index outcome => exact absurd rfl (quiet index outcome)
    | _ => trivial
  | graph found taken => exact Or.inl rfl
  | @conclude index attempt ending traced found ended taken =>
    refine Or.inr ⟨_, ?_, taken⟩
    cases ending with
    | returned result =>
      intro job row bundle number present
      cases coupled.attends index _ _ present found with
      | awaiting reached => exact ⟨_, reached, ended⟩
    | raised | cancelled => trivial

/-- In every state the attempts are those of the workers, and the job system has got there by
genuine steps. -/
theorem backend_reached {s : World} (initial : Initial s)
    (reached : Reaches (backendStep cfg) (fun _ _ => True) (.fresh s) b) :
    Coupled b ∧ Reaches (tracedStep cfg) (Genuine Analyses) ⟨s, fun _ => none⟩ b.traced := by
  refine reached.invariant (fun b => Coupled b ∧
    Reaches (tracedStep cfg) (Genuine Analyses) ⟨s, fun _ => none⟩ b.traced) ?_ ?_
  · constructor
    · apply coupled_fresh
      intro worker member
      rw [initial.booting] at member
      obtain ⟨old, -, same⟩ := List.mem_map.mp member
      exact same.symm
    · exact .refl
  · rintro state event next - ⟨coupled, before⟩ - taken
    have moved := backend_rule taken
    refine ⟨coupled_step moved coupled, ?_⟩
    rcases backend_refines moved coupled with same | ⟨action, genuine, stepped⟩
    · rw [same]
      exact before
    · exact .step before genuine stepped

/-- The report is assembled for the bundle from the draft of the report agent and from the
evidence of the agents; a modality without items has none but that it has no data. -/
def AssembledFor (bundle : IngestBundle) (result : RcaResult) : Prop :=
  ∃ (draft : ReportDraft) (evidence : (m : Modality) → EvidenceOf m),
    (∀ m, bundle.items m = [] → evidence m = noData m) ∧
      result = assemble draft (evidence .log) (evidence .metric) (evidence .trace) bundle

/-- What holds of a run, whatever its agents answer. -/
structure Lawful (bundle : IngestBundle) (run : GraphRun) : Prop where
  carries : run.bundle = bundle
  skipped : ∀ m, bundle.items m = [] → run.nodes m ≠ .calling
  quiet : ∀ m evidence, bundle.items m = [] → run.nodes m = .finished evidence →
    evidence = noData m
  returned : ∀ result, run.report = .finished (.returned result) → AssembledFor bundle result

theorem lawful_step {bundle : IngestBundle} {run next : GraphRun} {action : GraphAction}
    (lawful : Lawful bundle run) (taken : Takes run action next) : Lawful bundle next := by
  -- a node that gets further is skipped if its modality is empty
  have further {m : Modality} (phase : Phase (EvidenceOf m)) (made : List AgentCall)
      (skipped : bundle.items m = [] → phase = .finished (noData m)) :
      Lawful bundle { run with nodes := Function.update run.nodes m phase, calls := made } := by
    refine { lawful with skipped := ?_, quiet := ?_ }
    · intro other empty
      by_cases same : other = m
      · subst same
        simp [skipped empty]
      · simpa [same] using lawful.skipped other empty
    · intro other evidence empty done
      by_cases same : other = m
      · subst same
        simp only [Function.update_self, skipped empty] at done
        exact (Phase.finished.inj done).symm
      · exact lawful.quiet other evidence empty (by simpa [same] using done)
  cases taken with
  | askRouter ready => exact { lawful with }
  | route answer calling => exact { lawful with }
  | skip routed ready empty => exact further _ _ fun _ => rfl
  | ask routed ready nonempty =>
    exact further _ _ fun empty => absurd (lawful.carries ▸ empty) nonempty
  | analyse answer calling =>
    exact further _ _ fun empty => absurd calling (lawful.skipped _ empty)
  | join ready all => exact { lawful with returned := by simp }
  | @report evidence answer calling all =>
    refine { lawful with returned := ?_ }
    intro result done
    cases answer with
    | returns draft =>
      have same := GraphEnd.returned.inj (Phase.finished.inj done)
      rw [lawful.carries] at same
      exact ⟨draft, evidence, fun m empty =>
        lawful.quiet m _ empty (gathered_iff.mp all m), same.symm⟩
    | raises text => cases Phase.finished.inj done
  | cancel => exact { lawful with }

theorem lawful_run {bundle : IngestBundle} {run : GraphRun} (reached : RunOn bundle run) :
    Lawful bundle run := by
  refine reached.invariant (Lawful bundle) ?_ ?_
  · exact ⟨rfl, by simp [GraphRun.start], by simp [GraphRun.start], by simp [GraphRun.start]⟩
  · intro state action next _ lawful _ taken
    exact lawful_step lawful (graphStep_iff.mp taken).2

theorem Analyses.assembled {bundle : IngestBundle} {result : RcaResult}
    (analyses : Analyses bundle result) : AssembledFor bundle result := by
  obtain ⟨run, reached, ended⟩ := analyses
  apply (lawful_run reached).returned
  rw [GraphRun.ending] at ended
  split at ended
  · cases ended
  · cases report : run.report with
    | ready | calling => simp [report] at ended
    | finished value => simpa [report] using ended

end Coupling

/-! ## Calls -/

/-- A node that has not begun may still call its agent. -/
def Phase.unasked {α : Type} : Phase α → Nat
  | .ready => 1
  | .calling | .finished _ => 0

/-- The calls that a run may still make. -/
def GraphRun.unasked (run : GraphRun) : Nat :=
  run.router.unasked + (run.nodes .log).unasked + (run.nodes .metric).unasked +
    (run.nodes .trace).unasked + run.report.unasked

/-- The calls that an attempt for a job and the one after it may still make. -/
def Attempt.cost (job : JobId) : Option Attempt → Nat
  | some attempt =>
    if attempt.job = job then attempt.run.unasked + 5 * (2 - attempt.number) else 0
  | none => 0

section Calls

variable [PyRuntime] {cfg : Settings} {b b' : Backend} {event : BackendAction}

/-- A step makes one of the calls that are left, or none. -/
theorem unasked_step {run next : GraphRun} {action : GraphAction}
    (taken : Takes run action next) : run.calls.length ≤ next.calls.length ∧
      next.calls.length + next.unasked ≤ run.calls.length + run.unasked := by
  have asked : ∀ (m : Modality) (phase : Phase (EvidenceOf m)), phase.unasked = 0 →
      (Function.update run.nodes m phase .log).unasked +
          (Function.update run.nodes m phase .metric).unasked +
          (Function.update run.nodes m phase .trace).unasked + (run.nodes m).unasked =
        (run.nodes .log).unasked + (run.nodes .metric).unasked + (run.nodes .trace).unasked := by
    intro m phase none
    cases m <;> simp [none] <;> omega
  cases taken with
  | askRouter ready => simp [GraphRun.unasked, ready, Phase.unasked]; omega
  | route answer calling => simp [GraphRun.unasked, calling, Phase.unasked]
  | @skip m routes routed ready empty =>
    have := asked m (.finished (noData m)) rfl
    simp only [GraphRun.unasked]
    omega
  | @ask m routes routed ready nonempty =>
    have one : (run.nodes m).unasked = 1 := by rw [ready]; rfl
    have := asked m .calling rfl
    simp only [GraphRun.unasked, List.length_append, List.length_singleton]
    omega
  | @analyse m answer calling =>
    have := asked m (.finished (evidenceOr m answer)) rfl
    simp only [GraphRun.unasked]
    omega
  | join ready all => simp [GraphRun.unasked, ready, Phase.unasked]; omega
  | report answer calling all => simp [GraphRun.unasked, calling, Phase.unasked]
  | cancel => exact ⟨Nat.le_refl _, Nat.le_refl _⟩

/-- The calls made for a job, and those that its attempts may still make, are paid by the
starts of its analysis. -/
def Paid (b : Backend) : Prop :=
  ∀ job, b.made job + (b.attempts.map (Attempt.cost job)).sum ≤ 10 * b.traced.world.starts job

omit [PyRuntime] in
/-- A worker begins its first attempt with a start, and the second one in place of the first. -/
theorem World.WorkerStep.begins {s after : World} {old new : Worker} {outcome : Outcome}
    (moved : s.WorkerStep old outcome after new) (job : JobId) :
    Attempt.cost job new.attempt + 10 * s.starts job ≤ 10 * after.starts job ∨
      ∃ row bundle other, old = .analysing other row bundle 1 ∧
        new = .analysing other row bundle 2 ∧ after.starts = s.starts := by
  cases moved with
  | @start other row bundle jobs committed =>
    left
    by_cases same : other = job
    · subst same
      simp [Worker.attempt, Attempt.cost, GraphRun.start, GraphRun.unasked, Phase.unasked,
        World.countStart]
      omega
    · simp [Worker.attempt, Attempt.cost, World.countStart, same,
        Function.update_of_ne (Ne.symm same)]
  | restart => exact Or.inr ⟨_, _, _, rfl, rfl, rfl⟩
  | notify sent =>
    left
    rcases deliver_posts sent with rfl | ⟨key, keyed, rfl⟩ <;>
      simp [Worker.attempt, Attempt.cost, World.post]
  | _ =>
    left
    simp [Worker.attempt, Attempt.cost, World.post, World.discard]

/-- The step of a worker costs no more than what its attempt leaves and a start brings. -/
theorem paid_after (coupled : Coupled b) (paid : Paid b) {index : Nat} {outcome : Outcome}
    {traced : Traced} (taken : tracedStep cfg b.traced (.worker index outcome) = some traced) :
    Paid (b.after index traced) := by
  intro job
  obtain ⟨old, new, after, found, moved, form⟩ := acting_worker (traced_rule taken).taken
  have bound := (List.getElem?_eq_some_iff.mp found).1
  obtain ⟨attempt, awaited⟩ : ∃ attempt, b.attempts[index]? = some attempt :=
    ⟨_, List.getElem?_eq_getElem (coupled.size ▸ bound)⟩
  have begun : traced.world.workers[index]?.bind Worker.attempt = new.attempt := by
    simp [form, List.getElem?_set_self bound]
  have starts : traced.world.starts = after.starts := by rw [form]
  have costs := sum_set (Attempt.cost job) b.attempts index attempt new.attempt awaited
  have before := paid job
  simp only [Backend.after, begun, starts]
  rcases moved.begins job with pays | ⟨row, bundle, other, rfl, rfl, same⟩
  · omega
  · cases coupled.attends index _ _ found awaited with
    | free unawaited => cases unawaited
    | @awaiting _ _ _ _ run reached =>
      have cheaper : Attempt.cost job (Worker.attempt (.analysing other row bundle 2)) ≤
          Attempt.cost job (some ⟨other, 1, run⟩) := by
        simp only [Worker.attempt, Attempt.cost, GraphRun.start, GraphRun.unasked, Phase.unasked]
        split
        · omega
        · exact Nat.le_refl _
      rw [same]
      omega

theorem paid_step (moved : BackendMoves cfg b event b') (coupled : Coupled b) (paid : Paid b) :
    Paid b' := by
  cases moved with
  | @crash traced taken =>
    intro job
    have nothing :
        ((b.attempts.map fun _ => (none : Option Attempt)).map (Attempt.cost job)).sum = 0 := by
      simp [Attempt.cost]
    have before := paid job
    have kept := starts_mono (traced_rule taken).taken job
    simp only [nothing]
    omega
  | worker _ taken => exact paid_after coupled paid taken
  | other up quiet taken =>
    intro job
    exact Nat.le_trans (paid job)
      (Nat.mul_le_mul_left 10 (starts_mono (traced_rule taken).taken job))
  | @graph index action attempt run found taken =>
    intro job
    have costs := sum_set (Attempt.cost job) b.attempts index (some attempt)
      (some { attempt with run }) found
    have before := paid job
    obtain ⟨grown, left⟩ := unasked_step (graphStep_iff.mp taken).2
    simp only [Backend.advanced]
    by_cases own : attempt.job = job
    · subst own
      simp only [Attempt.cost, if_true, Function.update_self] at costs ⊢
      omega
    · simp only [Attempt.cost, own, if_false, Function.update_of_ne (Ne.symm own)] at costs ⊢
      omega
  | conclude _ _ taken => exact paid_after coupled paid taken

theorem backend_paid {s : World} (initial : Initial s)
    (reached : Reaches (backendStep cfg) (fun _ _ => True) (.fresh s) b) : Paid b := by
  refine reached.invariant Paid ?_ ?_
  · intro job
    simp [Backend.fresh, Attempt.cost]
  · intro state event next before paid _ taken
    exact paid_step (backend_rule taken) (backend_reached initial before).1 paid

end Calls

/-! ## Runs -/

section Runs

variable [PyRuntime] {cfg : Settings} {b : Backend} {s : World}

/-- Over all processes, whatever crashes, fails, times out or interleaves, the agents are called
at most ten times for each start of a job that `max_job_requeue` allows. -/
theorem calls_bounded (initial : Initial s)
    (reached : Reaches (backendStep cfg) (fun _ _ => True) (.fresh s) b) (job : JobId) :
    b.made job ≤ 10 * (1 + cfg.maxJobRequeue) := by
  have worlds : Reaches (step cfg) (fun _ _ => True) s b.traced.world := by
    refine (backend_reached initial reached).2.view Traced.world ?_
    intro state action next _ taken
    exact .step .refl trivial (traced_rule taken).moved
  have bounded : Bounded cfg b.traced.world := by
    refine worlds.invariant (Bounded cfg) (initial.bounded cfg) ?_
    intro state action next before bounded _ taken
    have sound := (reached_sound initial.toStarting before).2
    exact bounded_step (step_rule taken) sound bounded
  have started := bounded.total job
  have paid := backend_paid initial reached job
  omega

end Runs

open ReferenceInterpreter

/-- The attempts on two bundles interleave. That on `carts`, which has no traces, ends with a
stored result: its metric agent raises, and its log agent answers. The first one on `orders`
times out, and the second one goes on. -/
def analysedRun : List BackendAction :=
  (twoJobsRun (filledBundle "orders") { filledBundle "carts" with traces := [] }).map .act ++
    [.graph 0 (.begin .router), .graph 1 (.begin .router), .graph 0 .cancel,
      .graph 1 (.routed (.returns ⟨.deep, .scan, .scan, []⟩)), .conclude 0,
      .graph 1 (.begin (.modality .trace)), .graph 1 (.begin (.modality .log)),
      .graph 0 (.begin .router), .graph 0 (.routed (.raises (py "no answer"))),
      .graph 1 (.begin (.modality .metric)), .graph 0 (.begin (.modality .trace)),
      .graph 1 (.analysed .metric (.raises (py "no answer"))),
      .graph 0 (.analysed .trace (.returns ⟨py "orders is slow", none, some (py "orders")⟩)),
      .graph 1 (.analysed .log (.returns ⟨py "carts times out", none⟩)),
      .graph 0 (.begin (.modality .metric)), .graph 1 (.begin .report),
      .graph 1 (.reported (.returns (draftOf "carts" none))), .conclude 1,
      .act (.worker 1 .returns)]

theorem calls_bounded_analysedRun : ∃ b,
    run (@backendStep asciiRuntime ⟨1, 0⟩) (.fresh (World.initial 2)) analysedRun = some b ∧
      b.made 1 = 4 ∧ b.made 2 = 4 ∧ b.made 1 ≤ 20 := by
  obtain ⟨b, executed, passed⟩ := run_passes (@backendStep asciiRuntime ⟨1, 0⟩)
    (.fresh (World.initial 2)) analysedRun (fun b => decide (b.made 1 = 4 ∧ b.made 2 = 4))
    (by decide +kernel)
  have ⟨first, second⟩ := of_decide_eq_true passed
  exact ⟨b, executed, first, second,
    @calls_bounded asciiRuntime ⟨1, 0⟩ _ _ (initial_initial 2) (.of_any_run executed) 1⟩

end RcaBackend
