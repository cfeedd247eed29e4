import RcaBackend.AnalysisGraph
import RcaBackend.CountingSemaphore

/-!
# The limit on calls of the model

Every agent of every run of the graph takes a permit of one semaphore, which is made at its
first use, before it calls the model, and gives it back when the call is over. A run that
times out is cancelled: its calls are aborted one after the other, while they wait for a
permit or while the model answers.

However the runs interleave and whichever time out, there are never more calls of the model
than permits, no permit is lost, permits go to calls in the order in which these ask for
them, and a call is waiting or in flight exactly while its node awaits it. Nothing waits
forever: the runs that were launched have come to their ends, and every permit is back, after
a bounded number of steps. And what a run comes to is what its agents make of it alone.
-/

namespace RcaBackend

open TransitionSystem
open CountingSemaphore (Semaphore Event Awake outline)

/-- The call of the agent of a node, in one of the runs. -/
abbrev LlmCall := Nat × GraphNode

/-- The semaphore (`_semaphore`), once there is one, and the runs that have been started. -/
structure LlmProcess where
  semaphore : Option (Semaphore LlmCall)
  runs : List GraphRun

/-- The node awaits its agent. -/
def Phase.isCalling {α : Type} : Phase α → Bool
  | .calling => true
  | .ready | .finished _ => false

/-- A node awaits its agent. -/
def GraphRun.awaits (run : GraphRun) : GraphNode → Bool
  | .router => run.router.isCalling
  | .modality m => (run.nodes m).isCalling
  | .report => run.report.isCalling

/-- The node of which an agent has answered. -/
def GraphAction.answers : GraphAction → Option GraphNode
  | .routed _ => some .router
  | .analysed m _ => some (.modality m)
  | .reported _ => some .report
  | .begin _ | .cancel => none

/-- An exception instead of an answer. -/
def failure (text : PyStr) : GraphNode → GraphAction
  | .router => .routed (.raises text)
  | .modality m => .analysed m (.raises text)
  | .report => .reported (.raises text)

/-- What can happen in the process. -/
inductive LlmAction where
  /-- an attempt of an analysis -/
  | launch (bundle : IngestBundle)
  /-- a node begins, and asks for a permit if it calls the model -/
  | begin (i : Nat) (node : GraphNode)
  /-- a node begins, and its agent raises before it asks for a permit -/
  | fails (i : Nat) (node : GraphNode) (text : PyStr)
  /-- a call that waits for a permit goes on -/
  | resume (call : LlmCall)
  /-- the model has answered, and the call gives its permit back -/
  | answer (i : Nat) (action : GraphAction)
  /-- the time of an attempt is over -/
  | timeout (i : Nat)
  /-- a call of a cancelled run is cancelled -/
  | abort (call : LlmCall)

namespace LlmProcess

/-- A process without runs, whose limiter has not been built. -/
def init : LlmProcess := { semaphore := none, runs := [] }

/-- `llm_limit` -/
def limiter (limit : Nat) (p : LlmProcess) : Semaphore LlmCall := p.semaphore.getD (.init limit)

/-- An event at the limiter. -/
def permit (limit : Nat) (event : Event LlmCall) (p : LlmProcess) : Option LlmProcess :=
  (CountingSemaphore.step (p.limiter limit) event).map fun s => { p with semaphore := some s }

/-- The node of a call awaits its agent. -/
def awaits (p : LlmProcess) (call : LlmCall) : Bool :=
  p.runs[call.1]?.any fun run => run.awaits call.2

/-- The run has ended. -/
def ended (p : LlmProcess) (i : Nat) : Bool := p.runs[i]?.any fun run => run.ending.isSome

/-- The run has been cancelled. -/
def cancelled (p : LlmProcess) (i : Nat) : Bool := p.runs[i]?.any fun run => run.cancelled

variable [PyRuntime]

/-- A step of a run. -/
def graph (p : LlmProcess) (i : Nat) (action : GraphAction) : Option LlmProcess := do
  let run ← p.runs[i]?
  let next ← graphStep run action
  return { p with runs := p.runs.set i next }

end LlmProcess

variable [PyRuntime] {limit : Nat}

/-- One step of the process. -/
def llmStep (limit : Nat) (p : LlmProcess) : LlmAction → Option LlmProcess
  | .launch bundle => some { p with runs := p.runs ++ [.start bundle] }
  | .begin i node =>
    (p.graph i (.begin node)).bind fun p =>
      if p.awaits (i, node) then p.permit limit (.acquire (i, node)) else some p
  | .fails i node text =>
    (p.graph i (.begin node)).bind fun p => p.graph i (failure text node)
  | .resume call => p.permit limit (.resume call)
  | .answer i action =>
    action.answers.bind fun node =>
      (p.permit limit (.release (i, node))).bind fun p =>
        if p.ended i then some p else p.graph i action
  | .timeout i => p.graph i .cancel
  | .abort call =>
    if p.cancelled call.1 then
      p.permit limit
        (if call ∈ (p.limiter limit).inside then .release call else .cancel call)
    else none

/-! ## Which calls are open -/

/-- The semaphore serves the calls that nodes await, up to those of cancelled runs. -/
structure Serves (limit : Nat) (s : Semaphore LlmCall) (awaits : LlmCall → Bool)
    (cancelled : Nat → Bool) : Prop where
  sound : CountingSemaphore.Sound limit s
  awake : Awake s
  asked : ∀ call ∈ s.clients, awaits call = true
  served : ∀ call, awaits call = true → cancelled call.1 = false → call ∈ s.clients
  quitting : ∀ call, (call, true) ∈ outline s.waiters → cancelled call.1 = true

section Serves

variable {s next : Semaphore LlmCall} {awaits awaits' : LlmCall → Bool}
  {cancelled cancelled' : Nat → Bool}

omit [PyRuntime] in
/-- A limiter without calls serves a process without runs. -/
theorem serves_init : Serves limit (.init limit) (fun _ => false) fun _ => false where
  sound := CountingSemaphore.sound_init
  awake := CountingSemaphore.awake_init
  asked := by simp [Semaphore.clients, Semaphore.init]
  served := by simp
  quitting := by simp [Semaphore.init, outline]

omit [PyRuntime] in
/-- More runs may be cancelled. -/
theorem Serves.cancelling (serves : Serves limit s awaits cancelled)
    (grows : ∀ i, cancelled i = true → cancelled' i = true) : Serves limit s awaits cancelled' where
  sound := serves.sound
  awake := serves.awake
  asked := serves.asked
  served call awaited live := by
    refine serves.served call awaited ?_
    by_contra dead
    simp [grows call.1 (by simpa using dead)] at live
  quitting call quits := grows call.1 (serves.quitting call quits)

omit [PyRuntime] in
/-- A call asks for a permit. -/
theorem Serves.acquire {call : LlmCall} (serves : Serves limit s awaits cancelled)
    (taken : CountingSemaphore.step s (.acquire call) = some next)
    (here : awaits' call = true) (elsewhere : ∀ other ≠ call, awaits' other = awaits other) :
    Serves limit next awaits' cancelled := by
  obtain ⟨sound, awake, moves⟩ := CountingSemaphore.kept_step serves.sound serves.awake taken
  have members := moves.members serves.sound.distinct
  refine ⟨sound, awake, ?_, ?_, ?_⟩
  · rintro other member
    obtain rfl | before := (members other).mp member
    · exact here
    · by_cases same : other = call
      · exact same ▸ here
      · rw [elsewhere other same]
        exact serves.asked other before
  · rintro other awaited live
    refine (members other).mpr ?_
    by_cases same : other = call
    · exact Or.inl same
    · exact Or.inr (serves.served other (elsewhere other same ▸ awaited) live)
  · rintro other quits
    obtain before | same := moves.quitting quits
    · exact serves.quitting other before
    · cases same

omit [PyRuntime] in
/-- A call that waited goes on, or unwinds. -/
theorem Serves.resume {call : LlmCall} (serves : Serves limit s awaits cancelled)
    (taken : CountingSemaphore.step s (.resume call) = some next) :
    Serves limit next awaits cancelled := by
  obtain ⟨sound, awake, moves⟩ := CountingSemaphore.kept_step serves.sound serves.awake taken
  have members := moves.members serves.sound.distinct
  refine ⟨sound, awake, ?_, ?_, ?_⟩
  · rintro other member
    exact serves.asked other ((members other).mp member).1
  · rintro other awaited live
    refine (members other).mpr ⟨serves.served other awaited live, ?_⟩
    rintro rfl quits
    simp [serves.quitting other quits] at live
  · rintro other quits
    obtain before | same := moves.quitting quits
    · exact serves.quitting other before
    · cases same

omit [PyRuntime] in
/-- A waiting call of a cancelled run is cancelled. -/
theorem Serves.cancel {call : LlmCall} (serves : Serves limit s awaits cancelled)
    (taken : CountingSemaphore.step s (.cancel call) = some next)
    (dead : cancelled call.1 = true) : Serves limit next awaits cancelled := by
  obtain ⟨sound, awake, moves⟩ := CountingSemaphore.kept_step serves.sound serves.awake taken
  have members := moves.members serves.sound.distinct
  refine ⟨sound, awake, ?_, ?_, ?_⟩
  · rintro other member
    exact serves.asked other ((members other).mp member)
  · rintro other awaited live
    exact (members other).mpr (serves.served other awaited live)
  · rintro other quits
    obtain before | same := moves.quitting quits
    · exact serves.quitting other before
    · cases same
      exact dead

omit [PyRuntime] in
/-- A call gives its permit back: its node no longer awaits it, or its run is cancelled. -/
theorem Serves.release {call : LlmCall} (serves : Serves limit s awaits cancelled)
    (taken : CountingSemaphore.step s (.release call) = some next)
    (finished : awaits' call = false ∨ cancelled call.1 = true)
    (elsewhere : ∀ other ≠ call, awaits' other = awaits other) :
    Serves limit next awaits' cancelled := by
  obtain ⟨sound, awake, moves⟩ := CountingSemaphore.kept_step serves.sound serves.awake taken
  have members := moves.members serves.sound.distinct
  refine ⟨sound, awake, ?_, ?_, ?_⟩
  · rintro other member
    obtain ⟨before, apart⟩ := (members other).mp member
    rw [elsewhere other apart]
    exact serves.asked other before
  · rintro other awaited live
    have apart : other ≠ call := by
      rintro rfl
      obtain none_awaited | dead := finished
      · simp [none_awaited] at awaited
      · simp [dead] at live
    exact (members other).mpr ⟨serves.served other (elsewhere other apart ▸ awaited) live, apart⟩
  · rintro other quits
    obtain before | same := moves.quitting quits
    · exact serves.quitting other before
    · cases same

end Serves

/-! ## What a step of a graph does to the calls -/

namespace LlmProcess

omit [PyRuntime] in
/-- What a call awaits after a step of its run. -/
theorem awaits_set {p : LlmProcess} {i : Nat} {run : GraphRun} (found : p.runs[i]? = some run)
    (next : GraphRun) (call : LlmCall) :
    LlmProcess.awaits { p with runs := p.runs.set i next } call =
      if call.1 = i then next.awaits call.2 else p.awaits call := by
  by_cases same : call.1 = i
  · have bound := (List.getElem?_eq_some_iff.mp found).1
    simp [awaits, same, bound]
  · simp [awaits, same, List.getElem?_set_ne (Ne.symm same)]

omit [PyRuntime] in
/-- Which runs are cancelled after a step of one. -/
theorem cancelled_set {p : LlmProcess} {i : Nat} {run : GraphRun} (found : p.runs[i]? = some run)
    (next : GraphRun) (j : Nat) :
    LlmProcess.cancelled { p with runs := p.runs.set i next } j =
      if j = i then next.cancelled else p.cancelled j := by
  by_cases same : j = i
  · have bound := (List.getElem?_eq_some_iff.mp found).1
    simp [cancelled, same, bound]
  · simp [cancelled, same, List.getElem?_set_ne (Ne.symm same)]

/-- A step of a run, in terms of what the run takes. -/
theorem graph_iff {p q : LlmProcess} {i : Nat} {action : GraphAction} :
    p.graph i action = some q ↔ ∃ run next, p.runs[i]? = some run ∧ run.ending = none ∧
      Takes run action next ∧ q = { p with runs := p.runs.set i next } := by
  constructor
  · intro taken
    obtain ⟨run, found, taken⟩ := Option.bind_eq_some_iff.mp taken
    obtain ⟨next, stepped, same⟩ := Option.bind_eq_some_iff.mp taken
    obtain ⟨running, takes⟩ := graphStep_iff.mp stepped
    exact ⟨run, next, found, running, takes, (Option.some.inj same).symm⟩
  · rintro ⟨run, next, found, running, takes, rfl⟩
    simp [graph, found, graphStep_iff.mpr ⟨running, takes⟩]

/-- What a step of the graph of one run does to the calls that nodes await and to the runs
that are cancelled. -/
inductive Shifts (p : LlmProcess) (i : Nat) : GraphAction → LlmProcess → Prop where
  | asks {node : GraphNode} {q : LlmProcess} (idle : p.awaits (i, node) = false)
      (calls : q.awaits (i, node) = true)
      (elsewhere : ∀ other ≠ (i, node), q.awaits other = p.awaits other)
      (kept : q.cancelled = p.cancelled) : Shifts p i (.begin node) q
  | skips {node : GraphNode} {q : LlmProcess} (idle : p.awaits (i, node) = false)
      (same : q.awaits = p.awaits) (kept : q.cancelled = p.cancelled) : Shifts p i (.begin node) q
  | answers {action : GraphAction} {node : GraphNode} {q : LlmProcess}
      (answered : action.answers = some node) (awaited : p.awaits (i, node) = true)
      (idle : q.awaits (i, node) = false)
      (elsewhere : ∀ other ≠ (i, node), q.awaits other = p.awaits other)
      (kept : q.cancelled = p.cancelled) : Shifts p i action q
  | cancels {q : LlmProcess} (same : q.awaits = p.awaits) (dead : q.cancelled i = true)
      (elsewhere : ∀ j ≠ i, q.cancelled j = p.cancelled j) : Shifts p i .cancel q

/-- A node other than the one that a step is about is left alone. -/
theorem takes_elsewhere {run next : GraphRun} {action : GraphAction} (taken : Takes run action next)
    {node : GraphNode} (begins : action ≠ .begin node) (answers : action.answers ≠ some node) :
    next.awaits node = run.awaits node := by
  have apart {m other : Modality} (phase : Phase (EvidenceOf m)) (different : m ≠ other) :
      (Function.update run.nodes m phase other).isCalling = (run.nodes other).isCalling := by
    rw [Function.update_of_ne (Ne.symm different)]
  cases taken with
  | askRouter | route | join | report =>
    cases node <;> simp_all [GraphRun.awaits, GraphAction.answers]
  | skip routed ready empty | ask routed ready nonempty =>
    cases node with
    | router | report => rfl
    | modality other =>
      refine apart _ ?_
      rintro rfl
      exact begins rfl
  | analyse answer calling =>
    cases node with
    | router | report => rfl
    | modality other =>
      refine apart _ ?_
      rintro rfl
      exact answers rfl
  | cancel => cases node <;> rfl

/-- A step of a run shifts its calls. -/
theorem graph_shifts {p q : LlmProcess} {i : Nat} {action : GraphAction}
    (taken : p.graph i action = some q) : Shifts p i action q := by
  obtain ⟨run, next, found, running, takes, rfl⟩ := graph_iff.mp taken
  have here (node : GraphNode) : p.awaits (i, node) = run.awaits node := by simp [awaits, found]
  have there (node : GraphNode) :
      LlmProcess.awaits { p with runs := p.runs.set i next } (i, node) = next.awaits node := by
    simp [awaits_set found]
  have kept (uncancelled : next.cancelled = run.cancelled) :
      LlmProcess.cancelled { p with runs := p.runs.set i next } = p.cancelled := by
    funext j
    rw [cancelled_set found]
    by_cases same : j = i
    · rw [if_pos same, uncancelled, same, cancelled, found, Option.any_some]
    · rw [if_neg same]
  have elsewhere {node : GraphNode}
      (others : ∀ other ≠ node, next.awaits other = run.awaits other) :
      ∀ call ≠ (i, node),
        LlmProcess.awaits { p with runs := p.runs.set i next } call = p.awaits call := by
    rintro ⟨j, other⟩ apart
    by_cases same : j = i
    · subst same
      rw [there, here, others other fun same => apart (same ▸ rfl)]
    · simp [awaits_set found, same]
  have begins {node : GraphNode} (begun : action = .begin node) :
      ∀ other ≠ node, next.awaits other = run.awaits other := by
    rintro other apart
    subst begun
    exact takes_elsewhere takes (fun same => apart (GraphAction.begin.inj same).symm) nofun
  have answered {node : GraphNode} (answers : action.answers = some node) :
      ∀ other ≠ node, next.awaits other = run.awaits other := by
    rintro other apart
    refine takes_elsewhere takes ?_ fun same =>
      apart (Option.some.inj (answers.symm.trans same)).symm
    rintro rfl
    cases answers
  cases takes with
  | askRouter ready =>
    refine .asks (by simp [here, GraphRun.awaits, ready, Phase.isCalling]) ?_
      (elsewhere (begins rfl)) (kept rfl)
    simp [there, GraphRun.awaits, Phase.isCalling]
  | route answer calling =>
    refine .answers rfl (by simp [here, GraphRun.awaits, calling, Phase.isCalling])
      ?_ (elsewhere (answered rfl)) (kept rfl)
    simp [there, GraphRun.awaits, Phase.isCalling]
  | @skip m routes routed ready empty =>
    refine .skips (by simp [here, GraphRun.awaits, ready, Phase.isCalling]) ?_ (kept rfl)
    funext call
    by_cases same : call = (i, .modality m)
    · rw [same, there, here]
      simp [GraphRun.awaits, ready, Phase.isCalling]
    · exact elsewhere (begins rfl) call same
  | @ask m routes routed ready nonempty =>
    refine .asks (by simp [here, GraphRun.awaits, ready, Phase.isCalling]) ?_
      (elsewhere (begins rfl)) (kept rfl)
    simp [there, GraphRun.awaits, Phase.isCalling]
  | @analyse m answer calling =>
    refine .answers rfl
      (by simp [here, GraphRun.awaits, calling, Phase.isCalling]) ?_ (elsewhere (answered rfl))
      (kept rfl)
    simp [there, GraphRun.awaits, Phase.isCalling]
  | join ready all =>
    refine .asks (by simp [here, GraphRun.awaits, ready, Phase.isCalling]) ?_
      (elsewhere (begins rfl)) (kept rfl)
    simp [there, GraphRun.awaits, Phase.isCalling]
  | report answer calling all =>
    refine .answers rfl (by simp [here, GraphRun.awaits, calling, Phase.isCalling])
      ?_ (elsewhere (answered rfl)) (kept rfl)
    simp [there, GraphRun.awaits, Phase.isCalling]
  | cancel =>
    refine .cancels ?_ (by simp [cancelled_set found]) fun j apart => by
      simp [cancelled_set found, apart]
    funext call
    by_cases same : call.1 = i
    · obtain rfl := same
      rw [there, here]
      cases call.2 <;> rfl
    · rw [awaits_set found, if_neg same]

end LlmProcess

/-! ## What every step keeps -/

/-- Nodes begin after those they depend on. -/
structure GraphRun.Orderly (run : GraphRun) : Prop where
  waits : (∀ routes, run.router ≠ .finished routes) → ∀ m, run.nodes m = .ready
  joined : run.report.begun = true → ∃ evidence, run.gathered = some evidence

omit [PyRuntime] in
/-- A run starts in order. -/
theorem orderly_start (bundle : IngestBundle) : (GraphRun.start bundle).Orderly :=
  ⟨fun _ _ => rfl, by simp [GraphRun.start]⟩

/-- The steps of a run keep its order. -/
theorem orderly_step {run next : GraphRun} {action : GraphAction} (orderly : run.Orderly)
    (taken : Takes run action next) : next.Orderly := by
  have unjoined {m : Modality} (unfinished : ∀ evidence, run.nodes m ≠ .finished evidence) :
      run.report.begun ≠ true := by
    intro begun
    obtain ⟨evidence, all⟩ := orderly.joined begun
    exact unfinished _ (gathered_iff.mp all m)
  cases taken with
  | askRouter ready =>
    exact ⟨fun _ => orderly.waits (by simp [ready]), orderly.joined⟩
  | route answer calling => exact ⟨by simp, orderly.joined⟩
  | @skip m routes routed ready empty | @ask m routes routed ready nonempty =>
    refine ⟨fun unrouted => absurd routed (unrouted _), fun begun => ?_⟩
    exact absurd begun (unjoined (m := m) (by simp [ready]))
  | @analyse m answer calling =>
    refine ⟨fun unrouted => ?_, fun begun => absurd begun (unjoined (m := m) (by simp [calling]))⟩
    have ready := orderly.waits unrouted m
    rw [calling] at ready
    cases ready
  | join ready all => exact ⟨orderly.waits, fun _ => ⟨_, all⟩⟩
  | report answer calling all => exact ⟨orderly.waits, fun _ => ⟨_, all⟩⟩
  | cancel => exact ⟨orderly.waits, orderly.joined⟩

omit [PyRuntime] in
/-- A run that has ended without having been cancelled awaits nothing. -/
theorem GraphRun.Orderly.idle {run : GraphRun} (orderly : run.Orderly)
    (ended : run.ending ≠ none) (live : run.cancelled = false) (node : GraphNode) :
    run.awaits node = false := by
  obtain ⟨ending, finished⟩ : ∃ ending, run.report = .finished ending := by
    cases report : run.report with
    | ready | calling => simp [GraphRun.ending, live, report] at ended
    | finished ending => exact ⟨ending, rfl⟩
  obtain ⟨evidence, all⟩ := orderly.joined (by simp [finished])
  have nodes := gathered_iff.mp all
  cases node with
  | router =>
    cases router : run.router with
    | finished routes => simp [GraphRun.awaits, router, Phase.isCalling]
    | ready | calling =>
      have ready := orderly.waits (by simp [router]) .log
      rw [nodes] at ready
      cases ready
  | modality m => simp [GraphRun.awaits, nodes m, Phase.isCalling]
  | report => simp [GraphRun.awaits, finished, Phase.isCalling]

namespace LlmProcess

/-- The semaphore serves the open calls, and every run of a graph is orderly. -/
structure Valid (limit : Nat) (p : LlmProcess) : Prop where
  serves : Serves limit (p.limiter limit) p.awaits p.cancelled
  orderly : ∀ run ∈ p.runs, run.Orderly

omit [PyRuntime] in
/-- A process starts valid. -/
theorem valid_init : Valid limit init where
  serves := by
    have none_awaited : init.awaits = fun _ => false := by funext call; simp [awaits, init]
    have none_cancelled : init.cancelled = fun _ => false := by funext i; simp [cancelled, init]
    rw [none_awaited, none_cancelled]
    exact serves_init
  orderly := by simp [init]

omit [PyRuntime] in
/-- An event at the limiter is a step of the semaphore. -/
theorem permit_iff {p q : LlmProcess} {event : Event LlmCall} :
    p.permit limit event = some q ↔ ∃ s, CountingSemaphore.step (p.limiter limit) event = some s ∧
      q = { p with semaphore := some s } := by
  simp [permit, eq_comm]

/-- A step of a run leaves the limiter alone and the runs in order. -/
theorem orderly_graph (limit : Nat) {p q : LlmProcess} {i : Nat} {action : GraphAction}
    (orderly : ∀ run ∈ p.runs, run.Orderly) (taken : p.graph i action = some q) :
    q.limiter limit = p.limiter limit ∧ ∀ run ∈ q.runs, run.Orderly := by
  obtain ⟨run, next, found, -, takes, rfl⟩ := graph_iff.mp taken
  refine ⟨rfl, fun other member => ?_⟩
  obtain kept | rfl := List.mem_or_eq_of_mem_set member
  · exact orderly other kept
  · exact orderly_step (orderly run (List.mem_of_getElem? found)) takes

omit [PyRuntime] in
/-- A node that is awaited belongs to a run that has not ended or has been cancelled. -/
theorem Valid.live {p : LlmProcess} (valid : Valid limit p) {call : LlmCall}
    (awaited : p.awaits call = true) (closed : p.ended call.1 = true) :
    p.cancelled call.1 = true := by
  cases found : p.runs[call.1]? with
  | none => simp [awaits, found] at awaited
  | some run =>
    have orderly := valid.orderly run (List.mem_of_getElem? found)
    simp only [awaits, ended, cancelled, found, Option.any_some] at awaited closed ⊢
    by_contra live
    have idle := orderly.idle (Option.isSome_iff_ne_none.mp closed) (by simpa using live) call.2
    simp [idle] at awaited

omit [PyRuntime] in
/-- A new run awaits nothing, and is not cancelled. -/
theorem launch_same (p : LlmProcess) (bundle : IngestBundle) :
    LlmProcess.awaits { p with runs := p.runs ++ [.start bundle] } = p.awaits ∧
      LlmProcess.cancelled { p with runs := p.runs ++ [.start bundle] } = p.cancelled := by
  have appended (test : GraphRun → Bool) (fresh : test (.start bundle) = false) (i : Nat) :
      (p.runs ++ [.start bundle])[i]?.any test = p.runs[i]?.any test := by
    by_cases bound : i < p.runs.length
    · rw [List.getElem?_append_left bound]
    · have beyond := Nat.le_of_not_lt bound
      rw [List.getElem?_append_right beyond, List.getElem?_eq_none_iff.mpr beyond]
      cases i - p.runs.length with
      | zero => simp [fresh]
      | succ more => simp
  constructor
  · funext call
    refine appended (fun run => run.awaits call.2) ?_ call.1
    cases call.2 <;> rfl
  · funext i
    exact appended (fun run => run.cancelled) rfl i

omit [PyRuntime] in
/-- A new run keeps the process valid. -/
theorem valid_launch {p : LlmProcess} (valid : Valid limit p) (bundle : IngestBundle) :
    Valid limit { p with runs := p.runs ++ [.start bundle] } := by
  constructor
  · rw [(launch_same p bundle).1, (launch_same p bundle).2]
    exact valid.serves
  · intro run member
    obtain old | new := List.mem_append.mp member
    · exact valid.orderly run old
    · rw [List.mem_singleton.mp new]
      exact orderly_start bundle

/-- A node that begins keeps it valid. -/
theorem valid_begin {p q : LlmProcess} {i : Nat} {node : GraphNode} (valid : Valid limit p)
    (taken : llmStep limit p (.begin i node) = some q) : Valid limit q := by
  obtain ⟨begun, stepped, taken⟩ := Option.bind_eq_some_iff.mp taken
  obtain ⟨limiter, orderly⟩ := orderly_graph limit valid.orderly stepped
  have serves := valid.serves
  cases graph_shifts stepped with
  | answers answered => cases answered
  | asks idle calls elsewhere kept =>
    rw [if_pos calls] at taken
    obtain ⟨s, acquired, rfl⟩ := permit_iff.mp taken
    rw [limiter] at acquired
    have served := serves.acquire acquired calls elsewhere
    rw [← kept] at served
    exact ⟨served, orderly⟩
  | skips idle same kept =>
    rw [same, idle] at taken
    obtain rfl := Option.some.inj taken
    refine ⟨?_, orderly⟩
    rw [limiter, same, kept]
    exact serves

omit [PyRuntime] in
/-- A failure is an answer of its node. -/
theorem answers_failure (text : PyStr) (node : GraphNode) :
    (failure text node).answers = some node := by
  cases node <;> rfl

/-- So does an agent that raises before it asks for a permit. -/
theorem valid_fails {p q : LlmProcess} {i : Nat} {node : GraphNode} {text : PyStr}
    (valid : Valid limit p) (taken : llmStep limit p (.fails i node text) = some q) :
    Valid limit q := by
  obtain ⟨begun, stepped, failed⟩ := Option.bind_eq_some_iff.mp taken
  obtain ⟨limiter, orderly⟩ := orderly_graph limit valid.orderly stepped
  obtain ⟨limiter', orderly⟩ := orderly_graph limit orderly failed
  have last := graph_shifts failed
  generalize isFailure : failure text node = action at last
  have answered : action.answers = some node := isFailure ▸ answers_failure text node
  cases last with
  | asks | skips | cancels => cases answered
  | @answers _ here _ now awaited idle elsewhere kept =>
    obtain rfl := Option.some.inj (now.symm.trans answered)
    have unchanged : q.awaits = p.awaits ∧ q.cancelled = p.cancelled := by
      cases graph_shifts stepped with
      | answers answered => cases answered
      | asks before calls others same =>
        refine ⟨funext fun call => ?_, kept.trans same⟩
        by_cases this : call = (i, here)
        · rw [this, idle, before]
        · rw [elsewhere call this, others call this]
      | skips before others same => simp [others, before] at awaited
    refine ⟨?_, orderly⟩
    rw [limiter', limiter, unchanged.1, unchanged.2]
    exact valid.serves

/-- So does an answer. -/
theorem valid_answer {p q : LlmProcess} {i : Nat} {action : GraphAction}
    (valid : Valid limit p) (taken : llmStep limit p (.answer i action) = some q) :
    Valid limit q := by
  obtain ⟨node, answered, taken⟩ := Option.bind_eq_some_iff.mp taken
  obtain ⟨left, freed, taken⟩ := Option.bind_eq_some_iff.mp taken
  obtain ⟨s, released, rfl⟩ := permit_iff.mp freed
  have serves := valid.serves
  have member : (i, node) ∈ (p.limiter limit).inside := by
    by_contra absent
    simp [CountingSemaphore.step, absent] at released
  have awaited : p.awaits (i, node) = true :=
    serves.asked _ (List.mem_append_right _ member)
  split at taken
  · next ended =>
    obtain rfl := Option.some.inj taken
    exact ⟨serves.release released (Or.inr (valid.live awaited ended)) fun _ _ => rfl,
      valid.orderly⟩
  · have stepped : LlmProcess.graph { p with semaphore := some s } i action = some q := taken
    have kept : ∀ run ∈ LlmProcess.runs { p with semaphore := some s }, run.Orderly := valid.orderly
    obtain ⟨limiter, orderly⟩ := orderly_graph limit kept stepped
    refine ⟨?_, orderly⟩
    rw [limiter]
    have last := graph_shifts taken
    cases last with
    | asks | skips | cancels => cases answered
    | answers now here idle elsewhere kept =>
      obtain rfl := Option.some.inj (now.symm.trans answered)
      rw [kept]
      exact serves.release released (Or.inl idle) elsewhere

/-- So does a timeout. -/
theorem valid_timeout {p q : LlmProcess} {i : Nat} (valid : Valid limit p)
    (taken : llmStep limit p (.timeout i) = some q) : Valid limit q := by
  obtain ⟨limiter, orderly⟩ := orderly_graph limit valid.orderly taken
  refine ⟨?_, orderly⟩
  rw [limiter]
  cases graph_shifts taken with
  | answers answered => cases answered
  | cancels same dead elsewhere =>
    rw [same]
    refine valid.serves.cancelling fun j before => ?_
    by_cases this : j = i
    · exact this ▸ dead
    · rw [elsewhere j this]
      exact before

omit [PyRuntime] in
/-- So does the cancellation of a call of a cancelled run. -/
theorem valid_abort [PyRuntime] {p q : LlmProcess} {call : LlmCall} (valid : Valid limit p)
    (taken : llmStep limit p (.abort call) = some q) : Valid limit q := by
  rw [llmStep] at taken
  split at taken
  · next dead =>
    obtain ⟨s, stepped, rfl⟩ := permit_iff.mp taken
    split at stepped
    · exact ⟨valid.serves.release stepped (Or.inr dead) fun _ _ => rfl, valid.orderly⟩
    · exact ⟨valid.serves.cancel stepped dead, valid.orderly⟩
  · cases taken

/-- Every step keeps the process valid. -/
theorem valid_step {p q : LlmProcess} {action : LlmAction} (valid : Valid limit p)
    (taken : llmStep limit p action = some q) : Valid limit q := by
  cases action with
  | launch bundle =>
    obtain rfl := Option.some.inj taken
    exact valid_launch valid bundle
  | begin i node => exact valid_begin valid taken
  | fails i node text => exact valid_fails valid taken
  | resume call =>
    obtain ⟨s, resumed, rfl⟩ := permit_iff.mp taken
    exact ⟨valid.serves.resume resumed, valid.orderly⟩
  | answer i action => exact valid_answer valid taken
  | timeout i => exact valid_timeout valid taken
  | abort call => exact valid_abort valid taken

/-- Every reached process is valid. -/
theorem valid_run {actions : List LlmAction} {p : LlmProcess}
    (executed : TransitionSystem.run (llmStep limit) init actions = some p) : Valid limit p := by
  apply (Reaches.of_any_run executed).invariant
  · exact valid_init
  · intro state action next _ valid _ taken
    exact valid_step valid taken

end LlmProcess

/-- However the runs interleave, calls that are in flight hold a permit each, and permits that
are left, handed to waiting calls and in use are as many as the limit allows. Permits are
handed out in the order in which calls ask for them. No call has two places; the calls that
have one are those of nodes that await their agents, all but those of cancelled runs. -/
theorem llm_permits {actions : List LlmAction} {p : LlmProcess}
    (executed : TransitionSystem.run (llmStep limit) .init actions = some p) :
    let s := p.limiter limit
    s.inside.length ≤ limit ∧
      s.value + CountingSemaphore.grants s.waiters + s.inside.length = limit ∧
      (s.handed ++ CountingSemaphore.pending s.waiters).Sublist s.asked ∧
      s.clients.Nodup ∧
      (∀ call ∈ s.clients, p.awaits call = true) ∧
      ∀ call, p.awaits call = true → p.cancelled call.1 = false → call ∈ s.clients := by
  intro s
  have serves := (LlmProcess.valid_run executed).serves
  have conserved := serves.sound.conserved
  have used : s.inside.length ≤ limit := by
    rw [← conserved]
    exact Nat.le_add_left _ _
  exact ⟨used, conserved, serves.sound.ordered, serves.sound.distinct, serves.asked,
    serves.served⟩

/-! ## Progress -/

namespace LlmProcess

/-- The steps that runs and calls may still take. -/
def remaining (limit : Nat) (p : LlmProcess) : Nat :=
  3 * (p.runs.map GraphRun.remaining).sum + CountingSemaphore.remaining (p.limiter limit)

/-- The runs that are launched. -/
def launches (actions : List LlmAction) : Nat :=
  actions.countP fun
    | .launch _ => true
    | .begin .. | .fails .. | .resume _ | .answer .. | .timeout _ | .abort _ => false

/-- The steps that an action makes possible. -/
def brings : LlmAction → Nat
  | .launch _ => 34
  | .begin .. | .fails .. | .resume _ | .answer .. | .timeout _ | .abort _ => 0

omit [PyRuntime] in
/-- What all actions bring is paid by the runs that are launched. -/
theorem sum_brings (actions : List LlmAction) :
    (actions.map brings).sum = 34 * launches actions := by
  induction actions with
  | nil => rfl
  | cons action rest inductionHypothesis =>
    rw [List.map_cons, List.sum_cons, inductionHypothesis, launches, launches, List.countP_cons]
    cases action with
    | launch bundle => simp [brings]; omega
    | begin | fails | resume | answer | timeout | abort => simp [brings]

/-- A step of a run leaves at least three steps less. -/
theorem graph_remaining (limit : Nat) {p q : LlmProcess} {i : Nat} {action : GraphAction}
    (taken : p.graph i action = some q) : q.remaining limit + 3 ≤ p.remaining limit := by
  obtain ⟨run, next, found, running, takes, rfl⟩ := graph_iff.mp taken
  have fewer := remaining_step running takes
  have total := sum_set GraphRun.remaining p.runs i run next found
  simp only [remaining, limiter]
  omega

omit [PyRuntime] in
/-- What an event of the semaphore does to the steps that are left. -/
theorem permit_remaining {p q : LlmProcess} {event : Event LlmCall}
    (sound : CountingSemaphore.Sound limit (p.limiter limit)) (awake : Awake (p.limiter limit))
    (taken : p.permit limit event = some q) :
    match event with
    | .acquire _ => q.remaining limit ≤ p.remaining limit + 2
    | .resume _ | .cancel _ | .release _ => q.remaining limit < p.remaining limit := by
  obtain ⟨s, stepped, rfl⟩ := permit_iff.mp taken
  have moves := (CountingSemaphore.kept_step sound awake stepped).2.2
  have counted := CountingSemaphore.remaining_step moves
  cases event <;> simp only [remaining, limiter, Option.getD_some] at counted ⊢ <;> omega

/-- Every action pays a step out of what it brings and what remains. -/
theorem llm_pays {p q : LlmProcess} {action : LlmAction} (valid : Valid limit p)
    (taken : llmStep limit p action = some q) :
    q.remaining limit < p.remaining limit + brings action := by
  have sound := valid.serves.sound
  have awake := valid.serves.awake
  cases action with
  | launch bundle =>
    obtain rfl := Option.some.inj taken
    have start : (GraphRun.start bundle).remaining = 11 := rfl
    simp only [remaining, limiter, brings, List.map_append, List.sum_append, List.map_cons,
      List.map_nil, List.sum_singleton, start]
    omega
  | begin i node =>
    obtain ⟨begun, stepped, taken⟩ := Option.bind_eq_some_iff.mp taken
    have fewer := graph_remaining limit stepped
    split at taken
    · rw [← (orderly_graph limit valid.orderly stepped).1] at sound awake
      have more := permit_remaining sound awake taken
      simp only [brings] at more ⊢
      omega
    · obtain rfl := Option.some.inj taken
      simp only [brings]
      omega
  | fails i node text =>
    obtain ⟨begun, stepped, failed⟩ := Option.bind_eq_some_iff.mp taken
    have fewer := graph_remaining limit stepped
    have fewest := graph_remaining limit failed
    simp only [brings]
    omega
  | resume call => exact permit_remaining sound awake taken
  | answer i action =>
    obtain ⟨node, answered, taken⟩ := Option.bind_eq_some_iff.mp taken
    obtain ⟨left, freed, taken⟩ := Option.bind_eq_some_iff.mp taken
    have fewer := permit_remaining sound awake freed
    split at taken
    · obtain rfl := Option.some.inj taken
      exact fewer
    · have fewest := graph_remaining limit taken
      simp only [brings] at fewer ⊢
      omega
  | timeout i =>
    have fewer := graph_remaining limit taken
    simp only [brings]
    omega
  | abort call =>
    rw [llmStep] at taken
    split at taken
    · split at taken
      · exact permit_remaining sound awake taken
      · exact permit_remaining sound awake taken
    · cases taken

/-- Where neither a launch nor a timeout is the only thing left to do, nothing is. -/
def Quiet (limit : Nat) (p : LlmProcess) : Prop :=
  ∀ action next, llmStep limit p action = some next →
    (∃ bundle, action = .launch bundle) ∨ ∃ i, action = .timeout i

omit [PyRuntime] in
/-- An agent that is awaited can fail. -/
theorem failure_enabled [PyRuntime] {run : GraphRun} (orderly : run.Orderly)
    (running : run.ending = none) {node : GraphNode} (awaited : run.awaits node = true)
    (text : PyStr) : ∃ next, graphStep run (failure text node) = some next := by
  have enabled {next : GraphRun} (takes : Takes run (failure text node) next) :
      ∃ next, graphStep run (failure text node) = some next :=
    ⟨next, graphStep_iff.mpr ⟨running, takes⟩⟩
  cases node with
  | router =>
    cases router : run.router with
    | calling => exact enabled (.route _ router)
    | ready | finished => simp [GraphRun.awaits, router, Phase.isCalling] at awaited
  | modality m =>
    cases phase : run.nodes m with
    | calling => exact enabled (.analyse _ phase)
    | ready | finished => simp [GraphRun.awaits, phase, Phase.isCalling] at awaited
  | report =>
    cases report : run.report with
    | calling =>
      obtain ⟨evidence, all⟩ := orderly.joined (by simp [report])
      exact enabled (.report _ report all)
    | ready | finished => simp [GraphRun.awaits, report, Phase.isCalling] at awaited

/-- A call in flight can come back. -/
theorem answer_enabled {p : LlmProcess} (valid : Valid limit p) {i : Nat} {node : GraphNode}
    (inside : (i, node) ∈ (p.limiter limit).inside) (text : PyStr) :
    ∃ next, llmStep limit p (.answer i (failure text node)) = some next := by
  have awaited := valid.serves.asked _ (List.mem_append_right _ inside)
  obtain ⟨s, released⟩ :
      ∃ s, CountingSemaphore.step (p.limiter limit) (.release (i, node)) = some s := by
    simp [CountingSemaphore.step, inside]
  have freed := permit_iff.mpr ⟨s, released, rfl⟩
  rw [llmStep, answers_failure, Option.bind_some, freed, Option.bind_some]
  cases found : p.runs[i]? with
  | none => simp [awaits, found] at awaited
  | some run =>
    cases running : run.ending with
    | some ending => simp [ended, found, running]
    | none =>
      have orderly := valid.orderly run (List.mem_of_getElem? found)
      have awaited : run.awaits node = true := by simpa [awaits, found] using awaited
      obtain ⟨next, stepped⟩ := failure_enabled orderly running awaited text
      simp [ended, found, running, graph, stepped]

/-- In a quiet process no call is open. -/
theorem quiet_closed {p : LlmProcess} (positive : 0 < limit) (valid : Valid limit p)
    (quiet : Quiet limit p) : (p.limiter limit).clients = [] := by
  have outside : (p.limiter limit).inside = [] := by
    refine List.eq_nil_iff_forall_not_mem.mpr ?_
    rintro ⟨i, node⟩ inside
    obtain ⟨next, stepped⟩ := answer_enabled valid inside (py "")
    simpa using quiet _ next stepped
  by_contra someone
  have waits : (p.limiter limit).waiters ≠ [] := by
    rintro nobody
    simp [Semaphore.clients, nobody, outside] at someone
  obtain ⟨client, inside | ⟨-, resumed⟩⟩ :=
    CountingSemaphore.progress valid.serves.sound valid.serves.awake positive waits
  · simp [outside] at inside
  · obtain ⟨s, resumed⟩ := Option.isSome_iff_exists.mp resumed
    simpa using quiet (.resume client) _ (permit_iff.mpr ⟨s, resumed, rfl⟩)

/-- In a quiet process every run has ended. -/
theorem quiet_ended {p : LlmProcess} (positive : 0 < limit) (valid : Valid limit p)
    (quiet : Quiet limit p) {run : GraphRun} (member : run ∈ p.runs) : run.ending ≠ none := by
  intro running
  obtain ⟨i, found⟩ := List.mem_iff_getElem?.mp member
  have closed := quiet_closed positive valid quiet
  let agents : Agents :=
    { router := .raises (py "")
      agent := fun _ _ => .raises (py "")
      report := fun _ => .raises (py "") }
  obtain ⟨action, next, -, other, stepped⟩ := graph_progress agents running
  have taken : p.graph i action = some { p with runs := p.runs.set i next } := by
    simp [graph, found, stepped]
  have live : p.cancelled i = false := by
    cases dead : run.cancelled with
    | true => simp [GraphRun.ending, dead] at running
    | false => simp [cancelled, found, dead]
  have unawaited : ∀ node, p.awaits (i, node) = false := by
    intro node
    by_contra awaited
    have client := valid.serves.served (i, node) (by simpa using awaited) live
    simp [closed] at client
  have begun (node : GraphNode) (same : action = .begin node) : False := by
    subst same
    have enabled : ∃ q, llmStep limit p (.begin i node) = some q := by
      have fresh : (i, node) ∉ (p.limiter limit).clients := by simp [closed]
      rw [llmStep, taken, Option.bind_some]
      split
      · have acquired :
            ∃ s, CountingSemaphore.step (p.limiter limit) (.acquire (i, node)) = some s := by
          rw [CountingSemaphore.step, if_neg fresh]
          split
          · exact ⟨_, rfl⟩
          · exact ⟨_, rfl⟩
        obtain ⟨s, acquired⟩ := acquired
        exact ⟨_, permit_iff.mpr ⟨s, acquired, rfl⟩⟩
      · exact ⟨_, rfl⟩
    obtain ⟨q, enabled⟩ := enabled
    simpa using quiet _ q enabled
  cases graph_shifts taken with
  | asks | skips => exact begun _ rfl
  | answers answered awaited => simp [unawaited] at awaited
  | cancels => exact other rfl

end LlmProcess

/-- An execution is no longer than 34 steps for each run that is launched in it. Where nothing is
left to do but launching runs and letting some time out, every run has ended, no call is open
and every permit is back. -/
theorem llm_drains (positive : 0 < limit) {actions : List LlmAction} {p : LlmProcess}
    (executed : TransitionSystem.run (llmStep limit) .init actions = some p) :
    actions.length ≤ 34 * LlmProcess.launches actions ∧
      (p.Quiet limit → (∀ run ∈ p.runs, run.ending ≠ none) ∧
        (p.limiter limit).clients = [] ∧ (p.limiter limit).value = limit) := by
  have valid := LlmProcess.valid_run executed
  constructor
  · have bounded := run_bounded (LlmProcess.remaining limit) LlmProcess.brings
      (fun state action next reached taken =>
        LlmProcess.llm_pays (reached.invariant _ LlmProcess.valid_init
          fun _ _ _ _ valid _ taken => LlmProcess.valid_step valid taken) taken) executed
    have start : LlmProcess.remaining limit .init = 0 := rfl
    rw [LlmProcess.sum_brings] at bounded
    omega
  · intro quiet
    have closed := LlmProcess.quiet_closed positive valid quiet
    refine ⟨fun run member => LlmProcess.quiet_ended positive valid quiet member, closed, ?_⟩
    have conserved := valid.serves.sound.conserved
    obtain ⟨waiters, inside⟩ := List.append_eq_nil_iff.mp closed
    rw [List.map_eq_nil_iff.mp waiters, inside] at conserved
    exact conserved

/-! ## What the runs come to -/

/-- The agents of a run that has not ended answer so. -/
def LlmFollows (agents : Nat → Agents) (p : LlmProcess) : LlmAction → Prop
  | .answer i action =>
    ∀ run, p.runs[i]? = some run → run.ending = none → Follows (agents i) run action
  | .fails i node text => ∀ run asked, p.runs[i]? = some run →
      graphStep run (.begin node) = some asked → Follows (agents i) asked (failure text node)
  | .launch _ | .begin .. | .resume _ | .timeout _ | .abort _ => True

namespace LlmProcess

/-- Every run is one of the graph, with its own agents. -/
def Traces (agents : Nat → Agents) (p : LlmProcess) : Prop :=
  ∀ i run, p.runs[i]? = some run →
    Reaches graphStep (Follows (agents i)) (.start run.bundle) run

/-- A step of a run that its agents answer keeps the traces. -/
theorem traces_graph {agents : Nat → Agents} {p q : LlmProcess} {i : Nat} {action : GraphAction}
    (traces : Traces agents p)
    (follows : ∀ run, p.runs[i]? = some run → run.ending = none → Follows (agents i) run action)
    (taken : p.graph i action = some q) : Traces agents q := by
  obtain ⟨run, next, found, running, takes, rfl⟩ := graph_iff.mp taken
  intro j other present
  by_cases same : j = i
  · subst same
    have bound := (List.getElem?_eq_some_iff.mp found).1
    obtain rfl : next = other := by simpa [bound] using present
    have bundle : next.bundle = run.bundle := by cases takes <;> rfl
    rw [bundle]
    exact .step (traces j run found) (follows run found running)
      (graphStep_iff.mpr ⟨running, takes⟩)
  · rw [List.getElem?_set_ne (Ne.symm same)] at present
    exact traces j other present

omit [PyRuntime] in
/-- An event at the limiter keeps the traces. -/
theorem traces_permit [PyRuntime] {agents : Nat → Agents} {p q : LlmProcess}
    {event : Event LlmCall} (traces : Traces agents p)
    (taken : p.permit limit event = some q) : Traces agents q := by
  obtain ⟨s, -, rfl⟩ := permit_iff.mp taken
  exact traces

/-- Every step that the agents answer keeps the traces. -/
theorem traces_step {agents : Nat → Agents} {p q : LlmProcess} {action : LlmAction}
    (traces : Traces agents p) (follows : LlmFollows agents p action)
    (taken : llmStep limit p action = some q) : Traces agents q := by
  have begins_follow (p : LlmProcess) (i : Nat) (node : GraphNode) : ∀ run, p.runs[i]? = some run →
      run.ending = none → Follows (agents i) run (.begin node) := fun _ _ _ => trivial
  cases action with
  | launch bundle =>
    obtain rfl := Option.some.inj taken
    intro i run present
    by_cases bound : i < p.runs.length
    · rw [List.getElem?_append_left bound] at present
      exact traces i run present
    · rw [List.getElem?_append_right (Nat.le_of_not_lt bound), List.getElem?_singleton] at present
      split at present
      · obtain rfl := Option.some.inj present
        exact .refl
      · cases present
  | begin i node =>
    obtain ⟨begun, stepped, taken⟩ := Option.bind_eq_some_iff.mp taken
    have begins := traces_graph traces (begins_follow p i node) stepped
    split at taken
    · exact traces_permit begins taken
    · obtain rfl := Option.some.inj taken
      exact begins
  | fails i node text =>
    obtain ⟨begun, stepped, failed⟩ := Option.bind_eq_some_iff.mp taken
    have begins := traces_graph traces (begins_follow p i node) stepped
    obtain ⟨run, next, found, running, takes, rfl⟩ := graph_iff.mp stepped
    refine traces_graph begins (fun asked present _ => ?_) failed
    have bound := (List.getElem?_eq_some_iff.mp found).1
    obtain rfl : next = asked := by simpa [bound] using present
    exact follows run next found (graphStep_iff.mpr ⟨running, takes⟩)
  | resume call => exact traces_permit traces taken
  | answer i action =>
    obtain ⟨node, answered, taken⟩ := Option.bind_eq_some_iff.mp taken
    obtain ⟨left, freed, taken⟩ := Option.bind_eq_some_iff.mp taken
    have kept := traces_permit traces freed
    obtain ⟨s, -, rfl⟩ := permit_iff.mp freed
    split at taken
    · obtain rfl := Option.some.inj taken
      exact kept
    · exact traces_graph kept follows taken
  | timeout i =>
    have cancels : ∀ run, p.runs[i]? = some run → run.ending = none →
        Follows (agents i) run .cancel := fun _ _ _ => trivial
    exact traces_graph traces cancels taken
  | abort call =>
    rw [llmStep] at taken
    split at taken
    · exact traces_permit traces taken
    · cases taken

/-- Only a timeout cancels a run. -/
theorem cancelled_step {p q : LlmProcess} {action : LlmAction} {i : Nat}
    (taken : llmStep limit p action = some q) (dead : q.cancelled i = true) :
    p.cancelled i = true ∨ action = .timeout i := by
  have shifted {p q : LlmProcess} {j : Nat} {step : GraphAction} (taken : p.graph j step = some q)
      (dead : q.cancelled i = true) : p.cancelled i = true ∨ (step = .cancel ∧ j = i) := by
    cases graph_shifts taken with
    | asks _ _ _ kept | skips _ _ kept | answers _ _ _ _ kept => exact Or.inl (kept ▸ dead)
    | cancels same here elsewhere =>
      by_cases this : i = j
      · exact Or.inr ⟨rfl, this.symm⟩
      · exact Or.inl (elsewhere i this ▸ dead)
  have permitted {p q : LlmProcess} {event : Event LlmCall}
      (taken : p.permit limit event = some q) : q.cancelled = p.cancelled := by
    obtain ⟨s, -, rfl⟩ := permit_iff.mp taken
    rfl
  cases action with
  | launch bundle =>
    obtain rfl := Option.some.inj taken
    have same := (launch_same p bundle).2
    exact Or.inl (same ▸ dead)
  | begin j node =>
    obtain ⟨begun, stepped, taken⟩ := Option.bind_eq_some_iff.mp taken
    have before : begun.cancelled i = true := by
      split at taken
      · exact permitted taken ▸ dead
      · exact Option.some.inj taken ▸ dead
    simpa using shifted stepped before
  | fails j node text =>
    obtain ⟨begun, stepped, failed⟩ := Option.bind_eq_some_iff.mp taken
    obtain before | ⟨same, -⟩ := shifted failed dead
    · simpa using shifted stepped before
    · have answers := answers_failure text node
      simp [same, GraphAction.answers] at answers
  | resume call => exact Or.inl (permitted taken ▸ dead)
  | answer j action =>
    obtain ⟨node, answered, taken⟩ := Option.bind_eq_some_iff.mp taken
    obtain ⟨left, freed, taken⟩ := Option.bind_eq_some_iff.mp taken
    have kept := permitted freed
    split at taken
    · exact Or.inl (kept ▸ Option.some.inj taken ▸ dead)
    · obtain before | ⟨rfl, -⟩ := shifted taken dead
      · exact Or.inl (kept ▸ before)
      · cases answered
  | timeout j =>
    obtain before | ⟨-, rfl⟩ := shifted taken dead
    · exact Or.inl before
    · exact Or.inr rfl
  | abort call =>
    rw [llmStep] at taken
    split at taken
    · exact Or.inl (permitted taken ▸ dead)
    · cases taken

end LlmProcess

/-- However the runs interleave, whichever calls wait for permits and whichever runs time out,
every run that has ended ended as its agents make the sequential program end, unless it has
timed out. -/
theorem llm_runs_refine (agents : Nat → Agents) {actions : List LlmAction} {p : LlmProcess}
    (executed : TransitionSystem.run (llmStep limit) .init actions = some p)
    (follows : allows (llmStep limit) (LlmFollows agents) .init actions) {i : Nat} {run : GraphRun}
    (found : p.runs[i]? = some run) {ending : GraphEnd} (ended : run.ending = some ending) :
    (ending = .cancelled ∧ .timeout i ∈ actions) ∨ ending = orchestrate (agents i) run.bundle := by
  have traces : LlmProcess.Traces agents p := by
    apply (Reaches.of_run executed follows).invariant
    · intro i run present
      simp [LlmProcess.init] at present
    · intro state action next _ traces permitted taken
      exact LlmProcess.traces_step traces permitted taken
  have timed : ∀ i, p.cancelled i = true → .timeout i ∈ actions := by
    apply run_history (fun actions p => ∀ i, LlmProcess.cancelled p i = true → .timeout i ∈ actions)
      _ _ executed
    · intro i dead
      simp [LlmProcess.cancelled, LlmProcess.init] at dead
    · intro before state action next known taken i dead
      obtain earlier | rfl := LlmProcess.cancelled_step taken dead
      · exact List.mem_append_left _ (known i earlier)
      · exact List.mem_append_right _ (List.mem_singleton_self _)
  obtain ⟨dead, same⟩ | ⟨-, same⟩ := (conforms_run (traces i run found)).ends ended
  · exact Or.inl ⟨same, timed i (by simp [LlmProcess.cancelled, found, dead])⟩
  · exact Or.inr same

/-- With one permit: the second run times out while its router waits for the permit of the
first. -/
def contendedSchedule : List LlmAction :=
  [.launch twoModalities, .begin 0 .router, .launch twoModalities, .begin 1 .router, .timeout 1,
    .answer 0 (.routed (.raises (py "timeout"))), .begin 0 (.modality .log), .abort (1, .router),
    .resume (1, .router), .fails 0 (.modality .trace) (py "no key"), .begin 0 (.modality .metric),
    .resume (0, .modality .log), .answer 0 (.analysed .log (.raises (py "rate limit"))),
    .begin 0 .report, .answer 0 (.reported (.raises (py "no report")))]

/-- Agents that fail as those of the schedule do. -/
def keylessAgents : Agents where
  router := .raises (py "timeout")
  agent m _ :=
    match m with
    | .log => .raises (py "rate limit")
    | .metric => .returns (codeEvidence .metric (py "quiet"))
    | .trace => .raises (py "no key")
  report _ := .raises (py "no report")

open ReferenceInterpreter in
omit [PyRuntime] in
/-- Two runs share one permit, and the first one ends without a report. -/
theorem contended_runs : ∃ p,
    @TransitionSystem.run _ _ (@llmStep asciiRuntime 1) .init contendedSchedule = some p ∧
      ∃ run, p.runs[0]? = some run ∧ run.ending = some (.raised (py "no report")) :=
  ⟨_, rfl, _, rfl, rfl⟩

open ReferenceInterpreter in
omit [PyRuntime] in
/-- One call at most is inside. -/
theorem llm_permits_contended : ∃ p,
    @TransitionSystem.run _ _ (@llmStep asciiRuntime 1) .init contendedSchedule = some p ∧
      (p.limiter 1).inside.length ≤ 1 := by
  obtain ⟨p, executed, -⟩ := contended_runs
  exact ⟨p, executed, (@llm_permits asciiRuntime 1 contendedSchedule p executed).1⟩

open ReferenceInterpreter in
omit [PyRuntime] in
/-- The schedule is no longer than one run allows. -/
theorem llm_drains_contended : ∃ p,
    @TransitionSystem.run _ _ (@llmStep asciiRuntime 1) .init contendedSchedule = some p ∧
      contendedSchedule.length ≤ 34 * LlmProcess.launches contendedSchedule := by
  obtain ⟨p, executed, -⟩ := contended_runs
  exact ⟨p, executed, (@llm_drains asciiRuntime 1 (by decide) contendedSchedule p executed).1⟩

open ReferenceInterpreter in
omit [PyRuntime] in
/-- The ending is that of the nodes one after the other. -/
theorem llm_runs_refine_contended : ∃ p run,
    @TransitionSystem.run _ _ (@llmStep asciiRuntime 1) .init contendedSchedule = some p ∧
      p.runs[0]? = some run ∧
      GraphEnd.raised (py "no report") = @orchestrate keylessAgents run.bundle asciiRuntime := by
  obtain ⟨p, executed, run, found, ended⟩ := contended_runs
  have follows : @allows _ _ (@llmStep asciiRuntime 1)
      (@LlmFollows asciiRuntime fun _ => keylessAgents) .init contendedSchedule := by
    refine ⟨trivial, ?_⟩
    rintro next ⟨⟩
    refine ⟨trivial, ?_⟩
    rintro next ⟨⟩
    refine ⟨trivial, ?_⟩
    rintro next ⟨⟩
    refine ⟨trivial, ?_⟩
    rintro next ⟨⟩
    refine ⟨trivial, ?_⟩
    rintro next ⟨⟩
    refine ⟨?_, ?_⟩
    · rintro run ⟨⟩ -
      rfl
    rintro next ⟨⟩
    refine ⟨trivial, ?_⟩
    rintro next ⟨⟩
    refine ⟨trivial, ?_⟩
    rintro next ⟨⟩
    refine ⟨trivial, ?_⟩
    rintro next ⟨⟩
    refine ⟨?_, ?_⟩
    · rintro run asked ⟨⟩ ⟨⟩
      exact ⟨_, rfl, rfl⟩
    rintro next ⟨⟩
    refine ⟨trivial, ?_⟩
    rintro next ⟨⟩
    refine ⟨trivial, ?_⟩
    rintro next ⟨⟩
    refine ⟨?_, ?_⟩
    · rintro run ⟨⟩ -
      exact ⟨_, rfl, rfl⟩
    rintro next ⟨⟩
    refine ⟨trivial, ?_⟩
    rintro next ⟨⟩
    refine ⟨?_, ?_⟩
    · rintro run ⟨⟩ -
      exact ⟨_, rfl, rfl⟩
    rintro next ⟨⟩
    trivial
  obtain ⟨cancelled, -⟩ | same := @llm_runs_refine asciiRuntime 1 (fun _ => keylessAgents)
    contendedSchedule p executed follows 0 run found _ ended
  · cases cancelled
  · exact ⟨p, run, executed, found, same⟩

end RcaBackend
