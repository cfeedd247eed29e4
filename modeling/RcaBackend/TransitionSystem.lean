import Mathlib.Algebra.GroupWithZero.Nat
import Mathlib.Data.List.Basic

/-!
# Runs of a labelled transition system

A system is a partial step function on states and actions. A run executes a list
of actions; `Reaches` is its closure when each step must also meet a condition
on the state before it and the action taken. Environment assumptions and the
conditions under which a defective step goes right are such conditions, so one
induction rule serves unconditional invariants and conditional ones.
-/

namespace TransitionSystem

variable {S A : Type}

/-- Execute the actions in order, if every one of them is enabled. -/
def run (step : S → A → Option S) : S → List A → Option S
  | state, [] => some state
  | state, action :: rest => (step state action).bind fun next => run step next rest

/-- States reached from `start` by steps that the condition allows. -/
inductive Reaches (step : S → A → Option S) (allowed : S → A → Prop) (start : S) : S → Prop where
  | refl : Reaches step allowed start start
  | step {state next : S} {action : A} (before : Reaches step allowed start state)
      (permitted : allowed state action) (taken : step state action = some next) :
      Reaches step allowed start next

variable {step : S → A → Option S} {allowed : S → A → Prop} {start : S}

/-- What holds initially and is preserved by allowed steps from reached states
holds in every reached state. -/
theorem Reaches.invariant (holds : S → Prop) (initially : holds start)
    (preserved : ∀ state action next, Reaches step allowed start state → holds state →
      allowed state action → step state action = some next → holds next)
    {state : S} (reached : Reaches step allowed start state) : holds state := by
  induction reached with
  | refl => exact initially
  | step before permitted taken inductionHypothesis =>
    exact preserved _ _ _ before inductionHypothesis permitted taken

/-- A weaker condition allows every run that a stronger one allows. -/
theorem Reaches.weaken {allowed' : S → A → Prop}
    (weaker : ∀ state action, allowed state action → allowed' state action)
    {state : S} (reached : Reaches step allowed start state) : Reaches step allowed' start state := by
  induction reached with
  | refl => exact .refl
  | step _ permitted taken inductionHypothesis =>
    exact .step inductionHypothesis (weaker _ _ permitted) taken

/-- Runs compose. -/
theorem Reaches.trans {middle state : S} (first : Reaches step allowed start middle)
    (second : Reaches step allowed middle state) : Reaches step allowed start state := by
  induction second with
  | refl => exact first
  | step _ permitted taken inductionHypothesis => exact .step inductionHypothesis permitted taken

/-- A view of the states under which every allowed step is a run of another system makes runs
of that system out of runs. -/
theorem Reaches.view {T B : Type} {step' : T → B → Option T} {allowed' : T → B → Prop}
    (view : S → T)
    (matched : ∀ state action next, allowed state action → step state action = some next →
      Reaches step' allowed' (view state) (view next))
    {state : S} (reached : Reaches step allowed start state) :
    Reaches step' allowed' (view start) (view state) := by
  induction reached with
  | refl => exact .refl
  | step _ permitted taken inductionHypothesis =>
    exact inductionHypothesis.trans (matched _ _ _ permitted taken)

/-- Every action of the list is allowed where it is taken. -/
def allows (step : S → A → Option S) (allowed : S → A → Prop) : S → List A → Prop
  | _, [] => True
  | state, action :: rest =>
    allowed state action ∧ ∀ next ∈ step state action, allows step allowed next rest

/-- An executed list of allowed actions reaches its final state. -/
theorem Reaches.of_run {actions : List A} {state : S}
    (executed : run step start actions = some state) (permitted : allows step allowed start actions) :
    Reaches step allowed start state := by
  induction actions generalizing start with
  | nil =>
    obtain rfl : start = state := Option.some.inj executed
    exact .refl
  | cons action rest inductionHypothesis =>
    obtain ⟨next, taken, executed⟩ := Option.bind_eq_some_iff.mp executed
    exact .trans (.step .refl permitted.1 taken)
      (inductionHypothesis executed (permitted.2 next taken))

instance decidableAllows [∀ state action, Decidable (allowed state action)] :
    ∀ (start : S) (actions : List A), Decidable (allows step allowed start actions)
  | _, [] => isTrue trivial
  | _, _ :: rest =>
    have := fun next => decidableAllows next rest
    inferInstanceAs (Decidable (_ ∧ _))

/-- Actions that are allowed in every state are allowed along a run. -/
theorem allows_of_forall {actions : List A}
    (harmless : ∀ action ∈ actions, ∀ state, allowed state action) :
    allows step allowed start actions := by
  induction actions generalizing start with
  | nil => trivial
  | cons action rest inductionHypothesis =>
    refine ⟨harmless action List.mem_cons_self start, fun next _ => inductionHypothesis ?_⟩
    exact fun later member => harmless later (List.mem_cons_of_mem _ member)

/-- Every executed list of actions is allowed where nothing is forbidden. -/
theorem Reaches.of_any_run {actions : List A} {state : S}
    (executed : run step start actions = some state) :
    Reaches step (fun _ _ => True) start state :=
  .of_run executed (allows_of_forall fun _ _ _ => trivial)

/-- What holds at the start, with no action taken, and is kept by every further action, holds
of an executed list of actions and the state it leads to. -/
theorem run_history {actions : List A} {state : S} (holds : List A → S → Prop)
    (initially : holds [] start)
    (preserved : ∀ before state action next, holds before state → step state action = some next →
      holds (before ++ [action]) next)
    (executed : run step start actions = some state) : holds actions state := by
  have extended (later before : List A) (middle : S) (known : holds before middle)
      (executed : run step middle later = some state) : holds (before ++ later) state := by
    induction later generalizing before middle with
    | nil =>
      obtain rfl : middle = state := Option.some.inj executed
      rwa [List.append_nil]
    | cons action rest inductionHypothesis =>
      obtain ⟨next, taken, executed⟩ := Option.bind_eq_some_iff.mp executed
      rw [List.append_cons]
      exact inductionHypothesis _ next (preserved before middle action next known taken) executed
  exact extended actions [] start initially executed

/-- Where every action pays one step out of what it brings and what the state holds, a run is
no longer than what all its actions bring and the first state holds. -/
theorem run_bounded {actions : List A} {state : S} (held : S → Nat) (brings : A → Nat)
    (pays : ∀ state action next, Reaches step (fun _ _ => True) start state →
      step state action = some next → held next < held state + brings action)
    (executed : run step start actions = some state) :
    actions.length + held state ≤ held start + (actions.map brings).sum := by
  have bounded := run_history (fun actions state => Reaches step (fun _ _ => True) start state ∧
    actions.length + held state ≤ held start + (actions.map brings).sum) ?_ ?_ executed
  · exact bounded.2
  · exact ⟨.refl, by simp⟩
  · rintro before state action next ⟨reached, known⟩ taken
    have paid := pays state action next reached taken
    refine ⟨.step reached trivial taken, ?_⟩
    simp only [List.length_append, List.map_append, List.sum_append, List.length_singleton,
      List.map_cons, List.map_nil, List.sum_singleton]
    omega

/-- A test of the final state shows that the list can be executed. -/
theorem run_passes (step : S → A → Option S) (start : S) (actions : List A) (test : S → Bool)
    (passed : (run step start actions).any test = true) :
    ∃ state, run step start actions = some state ∧ test state = true := by
  cases executed : run step start actions with
  | none => simp [executed] at passed
  | some state => exact ⟨state, rfl, by simpa [executed] using passed⟩

/-! ## Pools: one entry of a list steps, the others stay -/

variable {α : Type}

/-- Replacing one entry changes a count by that entry alone. -/
theorem countP_set (p : α → Bool) (pool : List α) (i : Nat) (old new : α)
    (found : pool[i]? = some old) :
    (pool.set i new).countP p + (if p old then 1 else 0) =
      pool.countP p + (if p new then 1 else 0) := by
  obtain ⟨bound, value⟩ := List.getElem?_eq_some_iff.mp found
  rw [List.countP_set bound, value]
  have positive : p old = true → 0 < pool.countP p := fun holds =>
    List.countP_pos_iff.mpr ⟨old, value ▸ List.getElem_mem bound, holds⟩
  cases kept : p old with
  | false => simp
  | true =>
    have := positive kept
    simp only [if_true]
    omega

/-- Replacing one entry changes a sum by that entry alone. -/
theorem sum_set (cost : α → Nat) (pool : List α) (i : Nat) (old new : α)
    (found : pool[i]? = some old) :
    ((pool.set i new).map cost).sum + cost old = (pool.map cost).sum + cost new := by
  induction pool generalizing i with
  | nil => cases found
  | cons entry rest inductionHypothesis =>
    cases i with
    | zero =>
      cases found
      simp only [List.set_cons_zero, List.map_cons, List.sum_cons]
      omega
    | succ i =>
      have later := inductionHypothesis i found
      simp only [List.set_cons_succ, List.map_cons, List.sum_cons]
      omega

/-- Where a count is one at most, two counted entries are the same one. -/
theorem index_unique {p : α → Bool} {pool : List α} (once : pool.countP p ≤ 1) {i j : Nat}
    {first second : α} (here : pool[i]? = some first) (there : pool[j]? = some second)
    (counted : p first = true) (also : p second = true) : i = j := by
  induction pool generalizing i j with
  | nil => cases here
  | cons entry rest inductionHypothesis =>
    have none_later (found : p entry = true) {k : Nat} {later : α} (present : rest[k]? = some later)
        (holds : p later = true) : False := by
      have positive : 0 < rest.countP p :=
        List.countP_pos_iff.mpr ⟨later, List.mem_of_getElem? present, holds⟩
      rw [List.countP_cons_of_pos found] at once
      omega
    cases i with
    | zero =>
      cases here
      cases j with
      | zero => rfl
      | succ j => exact absurd also fun holds => none_later counted there holds
    | succ i =>
      cases j with
      | zero =>
        cases there
        exact absurd counted fun holds => none_later also here holds
      | succ j =>
        have fewer : rest.countP p ≤ 1 :=
          Nat.le_trans (List.sublist_cons_self entry rest).countP_le once
        rw [inductionHypothesis fewer here there]

end TransitionSystem
