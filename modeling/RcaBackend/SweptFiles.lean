import RcaBackend.FileSafety

/-!
# What a sweep leaves

A cleanup pass reads which files are in use, and starts its sweep later. Meanwhile and during
the sweep the other tasks go on. What it has looked at it has removed, unless the file was in
use or is young, and what is written behind it is young. So nothing old is left that no
unfinished job named when the pass read the table.
-/

namespace RcaBackend

open World TransitionSystem

section Files

variable {cfg : Settings} {s s' : World} {action : Action} {name : FileName}
  {keep : List FileName} {cutoff : Nat}

/-- What the sweep has looked at is tidy. -/
theorem tidy_visited (sweeping : s.cleaner = .sweeping keep cutoff)
    (taken : step cfg s (.cleaner (.visits name)) = some s') : Tidy keep cutoff s' name := by
  have moved : s'.files =
      (if s.sweeps keep cutoff name then s.discard (some name) else s).files := by
    simp only [step, sweeping, stepCleaner] at taken
    cases taken
    rfl
  by_cases used : name ∈ keep
  · exact Or.inl used
  · refine Or.inr fun file present => ?_
    rw [moved] at present
    by_cases removed : s.sweeps keep cutoff name = true
    · have gone : (s.discard (some name)).files name = none := Function.update_self _ _ _
      rw [if_pos removed, gone] at present
      cases present
    · rw [if_neg removed] at present
      simp only [sweeps, present, Bool.and_eq_true, decide_eq_true_eq, not_and,
        Nat.not_lt] at removed
      exact removed used

theorem sweeping_step (taken : Step cfg s action s') (sweeping : s.cleaner = .sweeping keep cutoff)
    (up : action ≠ .crash) (unfinished : action ≠ .cleaner .returns) :
    s'.cleaner = .sweeping keep cutoff := by
  rcases cleaner_step taken with ⟨same, -⟩ | ⟨crashed, -⟩ | ⟨outcome, after, rfl, -, moved⟩
  · exact same.trans sweeping
  · exact absurd crashed up
  · rw [sweeping] at moved
    generalize s'.cleaner = new at moved
    cases moved with
    | remove | pass => rfl
    | finish => exact absurd rfl unfinished

/-- The other tasks go on, and the process stays up. -/
def Elsewhere (_ : World) (action : Action) : Prop :=
  action ≠ .crash ∧ ∀ outcome, action ≠ .cleaner outcome

theorem cleaner_elsewhere (taken : Step cfg s action s') (elsewhere : Elsewhere s action) :
    s'.cleaner = s.cleaner := by
  rcases cleaner_step taken with ⟨same, -⟩ | ⟨crashed, -⟩ | ⟨outcome, -, acting, -⟩
  · exact same
  · exact absurd crashed elsewhere.1
  · exact absurd acting (elsewhere.2 outcome)

end Files

/-! ## A pass -/

section Pass

variable {cfg : Settings} {s s' : World} {actions : List Action} {name : FileName}
  {keep : List FileName} {cutoff : Nat}

/-- A sweep leaves every name tidy that is so before it or is looked at. -/
theorem sweep_tidy (swept : run (step cfg) s actions = some s')
    (sweeping : s.cleaner = .sweeping keep cutoff) (past : cutoff ≤ s.clock)
    (going : ∀ action ∈ actions, action ≠ .crash ∧ action ≠ .cleaner .returns)
    (visited : Tidy keep cutoff s name ∨ .cleaner (.visits name) ∈ actions) :
    Tidy keep cutoff s' name := by
  induction actions generalizing s with
  | nil =>
    obtain rfl : s = s' := Option.some.inj swept
    rcases visited with tidy | member
    · exact tidy
    · cases member
  | cons action rest inductionHypothesis =>
    obtain ⟨next, taken, swept⟩ := Option.bind_eq_some_iff.mp swept
    obtain ⟨up, unfinished⟩ := going action List.mem_cons_self
    have rule := step_rule taken
    refine inductionHypothesis swept (sweeping_step rule sweeping up unfinished)
      (Nat.le_trans past (clock_mono rule))
      (fun other member => going other (List.mem_cons_of_mem _ member)) ?_
    rcases visited with tidy | member
    · exact Or.inl (tidy_step rule past tidy)
    · rcases List.mem_cons.mp member with rfl | later
      · exact Or.inl (tidy_visited sweeping taken)
      · exact Or.inr later

/-- A cleanup pass up to a moment of its sweep by which it has looked at every file that was
there when the sweep started. An entry whose `unlink` raises has not been looked at. -/
structure CleanupPass (cfg : Settings) (read started swept : World) : Prop where
  reading : read.cleaner = .reading
  starts : ∃ listed waited, step cfg read (.cleaner .returns) = some listed ∧
    Reaches (step cfg) Elsewhere listed waited ∧ step cfg waited (.cleaner .returns) = some started
  sweeps : ∃ actions, run (step cfg) started actions = some swept ∧
    (∀ action ∈ actions, action ≠ .crash ∧ action ≠ .cleaner .returns) ∧
    ∀ name, started.files name ≠ none → .cleaner (.visits name) ∈ actions

variable {read started swept : World}

/-- The sweep spares what was in use when the pass read the table, and what is young. -/
theorem CleanupPass.sweeping (pass : CleanupPass cfg read started swept) :
    started.cleaner = .sweeping read.filesInUse (started.clock - cfg.orphanAge) := by
  obtain ⟨listed, waited, first, reached, last⟩ := pass.starts
  have noted : listed.cleaner = .starting read.filesInUse read.nextJob := by
    simp only [step, pass.reading, stepCleaner] at first
    cases first
    rfl
  have waiting : waited.cleaner = .starting read.filesInUse read.nextJob := by
    refine reached.invariant (fun s => s.cleaner = .starting read.filesInUse read.nextJob) noted ?_
    intro state action next _ before elsewhere taken
    exact (cleaner_elsewhere (step_rule taken) elsewhere).trans before
  simp only [step, waiting, stepCleaner] at last
  cases last
  rfl

/-- A pass that looks at every file which is there when its sweep starts leaves no garbage: each
file is one that an unfinished job named when the pass read the table, or it was written no longer
than the orphan age before the sweep started, or after that. -/
theorem sweep_leaves (pass : CleanupPass cfg read started swept) {file : StoredFile}
    (left : swept.files name = some file) :
    (∃ job row, read.jobs job = some row ∧ row.status.terminal = false ∧
        row.signalsPath = some name) ∨
      started.clock - cfg.orphanAge ≤ file.mtime := by
  obtain ⟨actions, executed, going, visited⟩ := pass.sweeps
  have tidy : Tidy read.filesInUse (started.clock - cfg.orphanAge) swept name := by
    refine sweep_tidy executed pass.sweeping (Nat.sub_le _ _) going ?_
    cases present : started.files name with
    | none =>
      refine Or.inl (Or.inr fun file found => ?_)
      rw [present] at found
      cases found
    | some stored => exact Or.inr (visited name (by rw [present]; exact Option.some_ne_none _))
  rcases tidy with used | young
  · obtain ⟨job, -, named⟩ := mem_filesInUse.mp used
    exact Or.inl ⟨job, named⟩
  · exact Or.inr (young file left)

/-- A job is ingested, and the write of another bundle is torn. -/
def tornRun : List Action :=
  [.receive (.bare .epoch), .request 0 .returns, .request 0 .returns, .receive (.bare .epoch),
    .request 1 .torn, .tick, .cleaner (.selected [])]

/-- The next pass takes the torn file and leaves the job's. -/
theorem sweep_leaves_tornRun : ∃ read started swept file,
    run (step ⟨1, 0⟩) World.steady tornRun = some read ∧
      CleanupPass ⟨1, 0⟩ read started swept ∧ started.files ⟨1, .tmp⟩ ≠ none ∧
      swept.files ⟨1, .tmp⟩ = none ∧ swept.files ⟨0, .json⟩ = some file ∧
      ((∃ job row, read.jobs job = some row ∧ row.status.terminal = false ∧
          row.signalsPath = some ⟨0, .json⟩) ∨
        started.clock - 0 ≤ file.mtime) := by
  obtain ⟨read, started, swept, file, began, pass, torn, gone, left⟩ :
      ∃ read started swept file, run (step ⟨1, 0⟩) World.steady tornRun = some read ∧
        CleanupPass ⟨1, 0⟩ read started swept ∧ started.files ⟨1, .tmp⟩ ≠ none ∧
        swept.files ⟨1, .tmp⟩ = none ∧ swept.files ⟨0, .json⟩ = some file := by
    refine ⟨_, _, _, _, rfl, ⟨rfl, ⟨_, _, rfl, .refl, rfl⟩, [.cleaner (.visits ⟨1, .tmp⟩),
      .cleaner (.visits ⟨0, .json⟩)], rfl, by simp, ?_⟩, ?_, rfl, rfl⟩
    · intro name stored
      have listed : name = ⟨1, .tmp⟩ ∨ name = ⟨0, .json⟩ := by
        by_contra other
        obtain ⟨own, earlier⟩ := not_or.mp other
        exact stored ((Function.update_of_ne own _ _).trans (Function.update_of_ne earlier _ _))
      rcases listed with rfl | rfl <;> simp
    · exact Option.some_ne_none _
  exact ⟨read, started, swept, file, began, pass, torn, gone, left, sweep_leaves pass left⟩

end Pass

end RcaBackend
