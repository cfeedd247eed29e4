import RcaBackend.RetryBound
import RcaBackend.StatusPolls

/-!
# The life of a job

From outside, a job is the word of the statuses that it has had. Where every commit finds its
row with the status that its session has read, the words are the lives below: the requeues
first, one for each unit of `requeue_count`, then at most one delivery and one end.
-/

namespace RcaBackend

open World

/-! ## Lives -/

/-- The statuses that the code assigns to a row of a status. -/
inductive Advances : Status → Status → Prop where
  | take : Advances .pending .running
  | forgo : Advances .pending .failed
  | requeue : Advances .running .pending
  | deliver : Advances .running .delivering
  | finish : Advances .running .done
  | fail : Advances .running .failed
  | done : Advances .delivering .done
  | reject : Advances .delivering .failed

/-- A word of statuses with its last one and the number of its requeues. -/
inductive Life : List Status → Status → Nat → Prop where
  | born : Life [.pending] .pending 0
  | next {word : List Status} {status status' : Status} {requeues : Nat}
      (life : Life word status requeues) (advances : Advances status status') :
      Life (word ++ [status']) status' (requeues + if status' = .pending then 1 else 0)

/-- The requeues of a life. -/
def cycles (requeues : Nat) : List Status :=
  (List.replicate requeues [Status.pending, Status.running]).flatten

/-- What a life with the given last status is after its requeues. -/
def endings : Status → List (List Status)
  | .pending => [[.pending]]
  | .running => [[.pending, .running]]
  | .delivering => [[.pending, .running, .delivering]]
  | .done => [[.pending, .running, .done], [.pending, .running, .delivering, .done]]
  | .failed =>
    [[.pending, .failed], [.pending, .running, .failed],
      [.pending, .running, .delivering, .failed]]

/-- One more cycle at the end. -/
theorem cycles_succ (requeues : Nat) :
    cycles (requeues + 1) = cycles requeues ++ [.pending, .running] := by
  simp [cycles, List.replicate_succ']

/-- An ending that a status follows is continued by an ending with that status, or by a requeue. -/
theorem endings_next {status status' : Status} {ending : List Status}
    (member : ending ∈ endings status) (advances : Advances status status') :
    (status' ≠ .pending ∧ ending ++ [status'] ∈ endings status') ∨
      (status' = .pending ∧ ending = [.pending, .running]) := by
  cases advances with
  | requeue => exact Or.inr ⟨rfl, by simpa [endings] using member⟩
  | take | forgo | deliver | finish | fail | done | reject =>
    obtain rfl := by simpa only [endings, List.mem_singleton] using member
    exact Or.inl ⟨by decide, by decide⟩

/-- The word of a life is its cycles and an ending. -/
theorem Life.word {word : List Status} {status : Status} {requeues : Nat}
    (life : Life word status requeues) :
    ∃ ending ∈ endings status, word = cycles requeues ++ ending := by
  induction life with
  | born => exact ⟨[.pending], by decide, rfl⟩
  | @next _ _ status' _ _ advances inductionHypothesis =>
    obtain ⟨ending, member, rfl⟩ := inductionHypothesis
    rcases endings_next member advances with ⟨other, continued⟩ | ⟨rfl, rfl⟩
    · refine ⟨ending ++ [status'], continued, ?_⟩
      rw [if_neg other, Nat.add_zero, List.append_assoc]
    · refine ⟨[.pending], by decide, ?_⟩
      rw [if_pos rfl, cycles_succ]

/-- After any number of requeues a job can be waiting. -/
theorem life_pending (requeues : Nat) : Life (cycles requeues ++ [.pending]) .pending requeues := by
  induction requeues with
  | zero => exact .born
  | succ requeues inductionHypothesis =>
    have life := (inductionHypothesis.next .take).next .requeue
    rw [cycles_succ]
    simpa using life

/-- The lives are the words of their requeues and an ending. -/
theorem life_iff {word : List Status} {status : Status} {requeues : Nat} :
    Life word status requeues ↔ ∃ ending ∈ endings status, word = cycles requeues ++ ending := by
  constructor
  · exact Life.word
  · rintro ⟨ending, member, rfl⟩
    have pending := life_pending requeues
    have running := pending.next .take
    have delivering := running.next .deliver
    cases status with
    | pending =>
      obtain rfl := by simpa only [endings, List.mem_singleton] using member
      exact pending
    | running =>
      obtain rfl := by simpa only [endings, List.mem_singleton] using member
      simpa using running
    | delivering =>
      obtain rfl := by simpa only [endings, List.mem_singleton] using member
      simpa using delivering
    | done =>
      simp only [endings, List.mem_cons, List.not_mem_nil, or_false] at member
      rcases member with rfl | rfl
      · simpa using running.next .finish
      · simpa using delivering.next .done
    | failed =>
      simp only [endings, List.mem_cons, List.not_mem_nil, or_false] at member
      rcases member with rfl | rfl | rfl
      · simpa using pending.next .forgo
      · simpa using running.next .fail
      · simpa using delivering.next .reject

/-! ## What a step does to a life -/

/-- The status that a step gives to a job, if it changes it. -/
def entered (s s' : World) (job : JobId) : List Status :=
  if s'.jobs.statusOf job = s.jobs.statusOf job then [] else (s'.jobs.statusOf job).toList

section Moves

variable {cfg : Settings} {s s' : World} {action : Action} {job : JobId}

/-- How one step moves the row of a job and the count of its starts. -/
inductive Moved (s s' : World) (job : JobId) : Prop where
  | stays (row : s'.jobs job = s.jobs job) (starts : s'.starts job = s.starts job)
  | born {row : IngestJob} (next : job = s.nextJob) (issued : job < s'.nextJob)
      (now : s'.jobs job = some row) (pending : row.status = .pending)
      (uncounted : row.requeueCount = 0) (starts : s'.starts job = s.starts job)
  | follows {row row' : IngestJob} (present : s.jobs job = some row)
      (now : s'.jobs job = some row') (advances : Advances row.status row'.status)
      (counted : row'.requeueCount =
        row.requeueCount + if row'.status = .pending then 1 else 0)
      (starts : s'.starts job = s.starts job + if row'.status = .running then 1 else 0)
  | purged {row : IngestJob} (present : s.jobs job = some row)
      (terminal : row.status.terminal = true) (gone : s'.jobs job = none)
      (starts : s'.starts job = s.starts job)

/-- A write over a row of the status that its session read moves the row on. -/
theorem Assigns.follows {loaded target row : IngestJob} (assigns : Assigns loaded target)
    (same : row.status = loaded.status) :
    Advances row.status target.status ∧
      (IngestJob.overwrite loaded target row).status = target.status := by
  rw [IngestJob.overwrite_status, same]
  cases assigns with
  | take known | forgo _ known | deliver _ known | finish known | requeue known | done known =>
    rw [known]
    exact ⟨by constructor, rfl⟩
  | fail reason known =>
    rcases known with known | known
    · rw [known]
      exact ⟨.fail, rfl⟩
    · rw [known]
      exact ⟨.reject, rfl⟩

/-- A write that assigns neither PENDING nor RUNNING moves the row and no count. -/
theorem moved_on {w : Write} (applied : s.Applies s' w job) (assigns : Assigns w.loaded w.target)
    (same : ∀ row, s.jobs job = some row → row.status = w.loaded.status)
    (unassigned : w.target.requeueCount = w.loaded.requeueCount)
    (left : w.target.status ≠ .pending ∧ w.target.status ≠ .running)
    (starts : s'.starts job = s.starts job) : Moved s s' job := by
  cases now : s'.jobs job with
  | none => exact .stays (now.trans (applied.none_iff.mp now).symm) starts
  | some row' =>
    obtain ⟨row, present, rfl⟩ := applied.found now
    obtain ⟨follows, status⟩ := assigns.follows (same row present)
    refine .follows present now (status ▸ follows) ?_ ?_
    · rw [status, if_neg left.1]
      exact if_pos unassigned
    · rw [status, if_neg left.2]
      exact starts

/-- What a step does to a job is a move of its life. -/
theorem moved_step (taken : Step cfg s action s') (sound : Sound s) (untouched : Untouched s)
    (legible : Legible s) (bounded : Bounded cfg s) (uncontended : Uncontended cfg s action)
    (job : JobId) : Moved s s' job := by
  have same {w : Write} (applied : s.Applies s' w job) (member : w ∈ writes cfg s action)
      (row : IngestJob) (present : s.jobs job = some row) : row.status = w.loaded.status :=
    uncontended w member row (applied.1 ▸ present)
  cases step_change taken job with
  | idle row _ starts | crashed _ row _ starts | abandoned _ _ _ row _ starts
  | requeued _ _ _ row _ starts | unlisted _ _ row _ starts => exact .stays row starts
  | vanished missing row _ starts => exact .stays (row.trans missing.symm) starts
  | purged _ present terminal gone _ starts => exact .purged present terminal gone starts
  | inserted _ _ next advanced row _ starts =>
    refine .born next ?_ row rfl rfl starts
    rw [next, advanced]
    exact Nat.lt_succ_self _
  | forgone committing found applied _ starts =>
    have member := committing ▸ mem_writes_worker cfg found rfl
    have session := worker_assigns untouched legible (List.mem_of_getElem? found) rfl
    exact moved_on applied session.2 (same applied member) rfl ⟨by simp [Write.missing],
      by simp [Write.missing]⟩ starts
  | started committing found committed applied _ starts =>
    have member := committing ▸ mem_writes_worker cfg found rfl
    have session := worker_assigns untouched legible (List.mem_of_getElem? found) rfl
    obtain ⟨jobs, committed⟩ := committed
    -- the commit has found its row
    obtain ⟨row, present⟩ := JobTable.commit_found committed fun unchanged =>
      sound.start_changed found (congrArg (·.status) unchanged)
    have here : s.jobs job = some row := present
    obtain ⟨follows, status⟩ := session.2.follows (same applied member row here)
    have now := applied.2
    rw [here, Option.map_some] at now
    refine .follows here now (status ▸ follows) ?_ ?_
    · rw [status]
      exact if_pos rfl
    · rw [status]
      exact starts
  | concluded committing found late writing applied _ starts =>
    have member := committing ▸ mem_writes_worker cfg found writing
    have session := worker_assigns untouched legible (List.mem_of_getElem? found) writing
    refine moved_on applied session.2 (same applied member) (Worker.write_requeueCount writing)
      ?_ starts
    rcases Worker.late_target late writing with assigned | assigned | assigned <;>
      simp [assigned]
  | reconciled committing writing applied _ starts =>
    have member := committing ▸ mem_writes_reconciler cfg writing
    have session := reconciler_assigns legible writing
    refine moved_on applied session.2 (same applied member)
      (Reconciler.write_requeueCount writing) ?_ starts
    rcases Reconciler.target writing with assigned | assigned <;> simp [assigned]
  | @recovered entry committing selected applied _ starts =>
    have listed : recovery cfg entry ∈ writes cfg s (.reaper .returns) :=
      List.mem_map_of_mem selected
    have member := committing ▸ listed
    cases now : s'.jobs job with
    | none => exact .stays (now.trans (applied.none_iff.mp now).symm) starts
    | some row' =>
      obtain ⟨row, present, -, raised⟩ := recovered_row sound bounded selected applied now
      obtain ⟨other, found, value⟩ := applied.found now
      obtain rfl := Option.some.inj (present.symm.trans found)
      have assigns : Assigns (recovery cfg entry).loaded (recovery cfg entry).target :=
        recovery_assigns entry
      obtain ⟨follows, status⟩ := assigns.follows (same applied member row present)
      have unstarted : row'.status ≠ .running := by
        rw [value, status, recovery_target]
        split <;> decide
      refine .follows present now (value ▸ status ▸ follows) ?_ ?_
      · rw [raised, value, status, recovery_target]
        cases requeues cfg entry.2 <;> simp
      · rw [if_neg unstarted]
        exact starts

end Moves

/-! ## Histories -/

/-- The system with the statuses that each job has had. -/
structure Chronicled where
  world : World
  history : JobId → List Status

/-- One step, and what is recorded of it. -/
def chronicledStep (cfg : Settings) (c : Chronicled) (action : Action) : Option Chronicled :=
  (step cfg c.world action).map fun world =>
    ⟨world, fun job => c.history job ++ entered c.world world job⟩

/-- The history of a job is a life that ends with the status of its row, or with the terminal
status in which it was deleted. -/
structure Lived (cfg : Settings) (c : Chronicled) (job : JobId) : Prop where
  unissued : c.world.nextJob ≤ job → c.history job = []
  lived : (c.history job = [] ∧ c.world.jobs job = none ∧ c.world.starts job = 0) ∨
    ∃ status requeues, Life (c.history job) status requeues ∧ requeues ≤ cfg.maxJobRequeue ∧
      (c.history job).count .running = c.world.starts job ∧
      (c.world.jobs job = none → status.terminal = true) ∧
      ∀ row, c.world.jobs job = some row → row.status = status ∧ row.requeueCount = requeues

/-- A life advances to another status. -/
theorem Advances.changed {status status' : Status} (advances : Advances status status') :
    status' ≠ status := by
  cases advances <;> decide

/-- A status that stays is not entered. -/
theorem entered_same {s s' : World} {job : JobId}
    (same : s'.jobs.statusOf job = s.jobs.statusOf job) : entered s s' job = [] := if_pos same

/-- A status that changes is entered. -/
theorem entered_new {s s' : World} {job : JobId} {row : IngestJob}
    (now : s'.jobs job = some row) (changed : s.jobs.statusOf job ≠ some row.status) :
    entered s s' job = [row.status] := by
  have status : s'.jobs.statusOf job = some row.status := congrArg (Option.map _) now
  rw [entered, status, if_neg changed.symm]
  rfl

/-- Every move keeps the life of a job. -/
theorem lived_step {cfg : Settings} {c : Chronicled} {s' : World} {job : JobId}
    (sound : Sound c.world) (bounded : Bounded cfg s') (moved : Moved c.world s' job)
    (issues : c.world.nextJob ≤ s'.nextJob) (lived : Lived cfg c job) :
    Lived cfg ⟨s', fun job => c.history job ++ entered c.world s' job⟩ job := by
  have beyond {row : IngestJob} (present : c.world.jobs job = some row) :
      job < s'.nextJob := by
    by_contra beyond
    have missing := (sound.beyond job (Nat.le_trans issues (Nat.le_of_not_lt beyond))).1
    rw [missing] at present
    cases present
  cases moved with
  | stays row starts =>
    have same : entered c.world s' job = [] := entered_same (congrArg (Option.map _) row)
    constructor
    · intro unissued
      simp only [same, List.append_nil]
      exact lived.unissued (Nat.le_trans issues unissued)
    · simp only [same, List.append_nil, row, starts]
      exact lived.lived
  | @born row next issued now pending uncounted starts =>
    constructor
    · exact fun unissued => absurd issued (Nat.not_lt.mpr unissued)
    · have unborn := lived.unissued (Nat.le_of_eq next.symm)
      have missing := (sound.beyond job (Nat.le_of_eq next.symm)).1
      have written : entered c.world s' job = [row.status] :=
        entered_new now (by simp [JobTable.statusOf, missing])
      have unstarted : c.world.starts job = 0 := by
        rcases lived.lived with ⟨-, -, unstarted⟩ | ⟨_, _, -, -, counted, -⟩
        · exact unstarted
        · rw [← counted, unborn]
          rfl
      refine Or.inr ⟨.pending, 0, ?_, Nat.zero_le _, ?_, ?_, ?_⟩
      · simp only [unborn, written, pending, List.nil_append]
        exact .born
      · simp [unborn, written, pending, starts, unstarted]
      · intro gone
        rw [gone] at now
        cases now
      · intro other found
        obtain rfl := Option.some.inj (now.symm.trans found)
        exact ⟨pending, uncounted⟩
  | @follows row row' present now advances counted starts =>
    constructor
    · exact fun unissued => absurd (beyond present) (Nat.not_lt.mpr unissued)
    · rcases lived.lived with ⟨-, missing, -⟩ | ⟨status, requeues, life, -, starting, -, agrees⟩
      · rw [missing] at present
        cases present
      · obtain ⟨rfl, rfl⟩ := agrees row present
        have written : entered c.world s' job = [row'.status] :=
          entered_new now (by simpa [JobTable.statusOf, present] using advances.changed.symm)
        refine Or.inr ⟨row'.status, row'.requeueCount, ?_, bounded.capped job row' now, ?_, ?_, ?_⟩
        · simp only [written]
          rw [counted]
          exact life.next advances
        · simp only [written, List.count_append, starting, starts, List.count_singleton]
          simp
        · intro gone
          rw [gone] at now
          cases now
        · intro other found
          obtain rfl := Option.some.inj (now.symm.trans found)
          exact ⟨rfl, rfl⟩
  | @purged row present terminal gone starts =>
    have same : entered c.world s' job = [] := by
      simp [entered, JobTable.statusOf, gone]
    constructor
    · exact fun unissued => absurd (beyond present) (Nat.not_lt.mpr unissued)
    · rcases lived.lived with
        ⟨-, missing, -⟩ | ⟨status, requeues, life, capped, starting, -, agrees⟩
      · rw [missing] at present
        cases present
      · obtain ⟨rfl, -⟩ := agrees row present
        refine Or.inr ⟨row.status, requeues, ?_, capped, ?_, fun _ => terminal, ?_⟩
        · simpa only [same, List.append_nil] using life
        · simpa only [same, List.append_nil, starts] using starting
        · intro other found
          rw [gone] at found
          cases found

section Runs

variable {cfg : Settings} {start : World} {c : Chronicled}

/-- The condition of a chronicled step is that of the step. -/
def Unhurried (cfg : Settings) (c : Chronicled) (action : Action) : Prop :=
  Uncontended cfg c.world action

instance (cfg : Settings) (c : Chronicled) (action : Action) : Decidable (Unhurried cfg c action) :=
  inferInstanceAs (Decidable (Uncontended cfg c.world action))

/-- Without its records a chronicled run is a run. -/
theorem chronicled_world
    (reached : TransitionSystem.Reaches (chronicledStep cfg) (Unhurried cfg)
      ⟨start, fun _ => []⟩ c) :
    TransitionSystem.Reaches (step cfg) (Uncontended cfg) start c.world := by
  refine reached.view Chronicled.world ?_
  intro state action next uncontended taken
  obtain ⟨world, moved, rfl⟩ := Option.map_eq_some_iff.mp taken
  exact .step .refl uncontended moved

/-- In every run each job has lived a life. -/
theorem reached_lived (initial : Initial start)
    (reached : TransitionSystem.Reaches (chronicledStep cfg) (Unhurried cfg)
      ⟨start, fun _ => []⟩ c) (job : JobId) : Lived cfg c job := by
  have invariant : Bounded cfg c.world ∧ ∀ job, Lived cfg c job := by
    refine reached.invariant (fun c => Bounded cfg c.world ∧ ∀ job, Lived cfg c job) ?_ ?_
    · refine ⟨initial.bounded cfg, fun job => ⟨fun _ => rfl, Or.inl ⟨rfl, ?_, ?_⟩⟩⟩
      · exact initial.empty job
      · exact initial.unstarted job
    · rintro state action next before ⟨bounded, lived⟩ uncontended taken
      obtain ⟨world, moved, rfl⟩ := Option.map_eq_some_iff.mp taken
      have worlds := chronicled_world before
      have rule := step_rule moved
      have sound := (reached_sound initial.toStarting worlds).2
      have ⟨untouched, legible⟩ := reached_legible initial worlds
      have bounded' := bounded_step rule sound bounded
      refine ⟨bounded', fun job => ?_⟩
      exact lived_step sound bounded'
        (moved_step rule sound untouched legible bounded uncontended job)
        (nextJob_mono rule) (lived job)
  exact invariant.2 job

/-- In every run the statuses that a job has had are those of a life: first its requeues, as
many as its row counts and no more than the limit, then one ending; the last of them is the
status of the row, or the terminal one in which the row was deleted. RUNNING is among them once
for each start of the analysis. -/
theorem job_lives (initial : Initial start)
    (reached : TransitionSystem.Reaches (chronicledStep cfg) (Unhurried cfg)
      ⟨start, fun _ => []⟩ c) (job : JobId) :
    (c.history job = [] ∧ c.world.jobs job = none) ∨
      ∃ status requeues, requeues ≤ cfg.maxJobRequeue ∧
        (∃ ending ∈ endings status, c.history job = cycles requeues ++ ending) ∧
        (c.history job).count .running = c.world.starts job ∧
        (c.world.jobs job = none → status.terminal = true) ∧
        ∀ row, c.world.jobs job = some row →
          row.status = status ∧ row.requeueCount = requeues := by
  rcases (reached_lived initial reached job).lived with
    ⟨unborn, missing, -⟩ | ⟨status, requeues, life, rest⟩
  · exact Or.inl ⟨unborn, missing⟩
  · obtain ⟨capped, starting, deleted, agrees⟩ := rest
    exact Or.inr ⟨status, requeues, capped, life.word, starting, deleted, agrees⟩

end Runs

/-- The job that is lost in a crash and started again. -/
theorem job_lives_crashRun : ∃ c,
    TransitionSystem.run (chronicledStep ⟨1, 0⟩) ⟨World.initial 1, fun _ => []⟩ crashRun = some c ∧
      c.history 1 = cycles 1 ++ [.pending, .running] ∧
      ∃ status requeues, requeues ≤ 1 ∧
        ∃ ending ∈ endings status, c.history 1 = cycles requeues ++ ending := by
  obtain ⟨c, executed, passed⟩ := TransitionSystem.run_passes (chronicledStep ⟨1, 0⟩)
    ⟨World.initial 1, fun _ => []⟩ crashRun
    (fun c => decide (c.history 1 = cycles 1 ++ [.pending, .running])) (by decide)
  have history := of_decide_eq_true passed
  refine ⟨c, executed, history, ?_⟩
  have reached : TransitionSystem.Reaches (chronicledStep ⟨1, 0⟩) (Unhurried ⟨1, 0⟩)
      ⟨World.initial 1, fun _ => []⟩ c := .of_run executed (by decide)
  rcases job_lives (initial_initial 1) reached 1 with ⟨unborn, -⟩ | ⟨status, requeues, rest⟩
  · rw [unborn] at history
    cases history
  · exact ⟨status, requeues, rest.1, rest.2.1⟩

end RcaBackend
