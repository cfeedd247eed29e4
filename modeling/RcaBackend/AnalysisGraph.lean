import RcaBackend.PayloadEnvelope
import RcaBackend.ReportAssembly
import RcaBackend.TransitionSystem

/-!
# The analysis graph

A run of the graph asks the router, then the agents of the three modalities at once, then
the report agent, and assembles the result. The three nodes write different keys of the
state, and the report node waits for all of them; in between they begin, await and finish
in any order. Whatever this order, a run that is not cancelled ends as the sequential
program does: the router's failure means that everything is analysed deeply, an empty
modality is not analysed at all, the failure of an agent becomes its evidence, and only
the failure of the report agent is raised.
-/

namespace RcaBackend

open TransitionSystem

inductive Depth where
  | deep | scan
deriving DecidableEq, Repr

structure RouteDecision where
  log : Depth
  metric : Depth
  trace : Depth
  reason : PyStr

/-- `getattr(decision, m)` -/
def RouteDecision.depth (decision : RouteDecision) : Modality → Depth
  | .log => decision.log
  | .metric => decision.metric
  | .trace => decision.trace

/-- What awaiting an agent comes to: a value, or an exception with its text. -/
inductive Answer (α : Type) where
  | returns (value : α)
  | raises (text : PyStr)

/-- `route_with_guardrails`, by what the router answers. -/
def routeWithGuardrails (bundle : IngestBundle) (decision : Answer RouteDecision) :
    Modality → Depth :=
  bundle.triggerInfo.triggeredBy.foldl (fun routes m => Function.update routes m .deep)
    (match decision with
    | .returns decision => decision.depth
    | .raises _ => fun _ => .deep)

/-- `_EVIDENCE_CLS` -/
abbrev EvidenceOf : Modality → Type
  | .log => LogEvidence
  | .metric => MetricEvidence
  | .trace => TraceEvidence

/-- `_code_evidence` -/
def codeEvidence (m : Modality) (conclusion : PyStr) : EvidenceOf m :=
  let source := some (m.text ++ py "-agent(code)")
  match m with
  | .log => { conclusion, source }
  | .metric => { conclusion, source }
  | .trace => { conclusion, source, originService := none }

def noData (m : Modality) : EvidenceOf m :=
  codeEvidence m (m.text ++ py " 데이터 없음 — 분석 생략")

/-- What a modality node makes of its agent's answer. -/
def evidenceOr (m : Modality) : Answer (EvidenceOf m) → EvidenceOf m
  | .returns evidence => evidence
  | .raises text => codeEvidence m (py "분석 실패 — " ++ text)

/-! ## One after the other -/

/-- The agents that are injected into the graph, by what they answer. -/
structure Agents where
  router : Answer RouteDecision
  agent : (m : Modality) → Depth → Answer (EvidenceOf m)
  report : ((m : Modality) → EvidenceOf m) → Answer ReportDraft

section Sequential

variable (agents : Agents) (bundle : IngestBundle)

def Agents.routes : Modality → Depth := routeWithGuardrails bundle agents.router

/-- The evidence of a modality. -/
def Agents.evidence (m : Modality) : EvidenceOf m :=
  if bundle.items m = [] then noData m
  else evidenceOr m (agents.agent m (agents.routes bundle m))

/-- How a run of the graph ends. -/
inductive GraphEnd where
  | returned (result : RcaResult)
  | raised (text : PyStr)
  | cancelled

variable [PyRuntime]

/-- What the report node makes of the report agent's answer. -/
def reportEnd (bundle : IngestBundle) (evidence : (m : Modality) → EvidenceOf m) :
    Answer ReportDraft → GraphEnd
  | .returns draft =>
    .returned (assemble draft (evidence .log) (evidence .metric) (evidence .trace) bundle)
  | .raises text => .raised text

/-- The graph, its nodes one after the other. -/
def orchestrate : GraphEnd :=
  reportEnd bundle (agents.evidence bundle) (agents.report (agents.evidence bundle))

end Sequential

/-! ## At once -/

/-- Where a node is: not begun, awaiting its agent, or done. -/
inductive Phase (α : Type) where
  | ready
  | calling
  | finished (value : α)

/-- A call of an agent, with what it is given besides the bundle. -/
inductive AgentCall where
  | router
  | agent (m : Modality) (depth : Depth)
  | report (evidence : (m : Modality) → EvidenceOf m)

/-- A run of the graph: the nodes, how it ended, and the calls it has made. -/
structure GraphRun where
  bundle : IngestBundle
  router : Phase (Modality → Depth)
  nodes : (m : Modality) → Phase (EvidenceOf m)
  report : Phase GraphEnd
  cancelled : Bool
  calls : List AgentCall

namespace GraphRun

/-- `ainvoke` of the graph. -/
def start (bundle : IngestBundle) : GraphRun :=
  { bundle, router := .ready, nodes := fun _ => .ready, report := .ready, cancelled := false
    calls := [] }

/-- How the run has ended, if it has. -/
def ending (run : GraphRun) : Option GraphEnd :=
  if run.cancelled then some .cancelled
  else match run.report with
    | .finished ending => some ending
    | .ready | .calling => none

/-- The evidence of all modalities, once their nodes are done. -/
def gathered (run : GraphRun) : Option ((m : Modality) → EvidenceOf m) :=
  match run.nodes .log, run.nodes .metric, run.nodes .trace with
  | .finished log, .finished metric, .finished trace =>
    some fun
      | .log => log
      | .metric => metric
      | .trace => trace
  | _, _, _ => none

end GraphRun

inductive GraphNode where
  | router
  | modality (m : Modality)
  | report
deriving DecidableEq

inductive GraphAction where
  /-- a node runs up to the call of its agent, or to its end if it makes none -/
  | begin (node : GraphNode)
  | routed (answer : Answer RouteDecision)
  | analysed (m : Modality) (answer : Answer (EvidenceOf m))
  | reported (answer : Answer ReportDraft)
  /-- the timeout of the attempt cancels the run -/
  | cancel

section Steps

variable [PyRuntime]

/-- `_router_node`, the modality nodes, `_report_node` and the edges between them. -/
def graphStep (run : GraphRun) (action : GraphAction) : Option GraphRun :=
  match run.ending with
  | some _ => none
  | none =>
    match action with
    | .begin .router =>
      match run.router with
      | .ready => some { run with router := .calling, calls := run.calls ++ [.router] }
      | _ => none
    | .begin (.modality m) =>
      match run.router, run.nodes m with
      | .finished routes, .ready =>
        if run.bundle.items m = [] then
          some { run with nodes := Function.update run.nodes m (.finished (noData m)) }
        else some { run with
          nodes := Function.update run.nodes m .calling
          calls := run.calls ++ [.agent m (routes m)] }
      | _, _ => none
    | .begin .report =>
      match run.report, run.gathered with
      | .ready, some evidence =>
        some { run with report := .calling, calls := run.calls ++ [.report evidence] }
      | _, _ => none
    | .routed answer =>
      match run.router with
      | .calling => some { run with router := .finished (routeWithGuardrails run.bundle answer) }
      | _ => none
    | .analysed m answer =>
      match run.nodes m with
      | .calling =>
        some { run with nodes := Function.update run.nodes m (.finished (evidenceOr m answer)) }
      | _ => none
    | .reported answer =>
      match run.report, run.gathered with
      | .calling, some evidence =>
        some { run with report := .finished (reportEnd run.bundle evidence answer) }
      | _, _ => none
    | .cancel => some { run with cancelled := true }

/-- The steps of a run that has not ended. -/
inductive Takes (run : GraphRun) : GraphAction → GraphRun → Prop where
  | askRouter (ready : run.router = .ready) :
      Takes run (.begin .router) { run with router := .calling, calls := run.calls ++ [.router] }
  | route (answer : Answer RouteDecision) (calling : run.router = .calling) :
      Takes run (.routed answer)
        { run with router := .finished (routeWithGuardrails run.bundle answer) }
  | skip {m : Modality} {routes : Modality → Depth} (routed : run.router = .finished routes)
      (ready : run.nodes m = .ready) (empty : run.bundle.items m = []) :
      Takes run (.begin (.modality m))
        { run with nodes := Function.update run.nodes m (.finished (noData m)) }
  | ask {m : Modality} {routes : Modality → Depth} (routed : run.router = .finished routes)
      (ready : run.nodes m = .ready) (nonempty : run.bundle.items m ≠ []) :
      Takes run (.begin (.modality m)) { run with
        nodes := Function.update run.nodes m .calling
        calls := run.calls ++ [.agent m (routes m)] }
  | analyse {m : Modality} (answer : Answer (EvidenceOf m)) (calling : run.nodes m = .calling) :
      Takes run (.analysed m answer)
        { run with nodes := Function.update run.nodes m (.finished (evidenceOr m answer)) }
  | join {evidence : (m : Modality) → EvidenceOf m} (ready : run.report = .ready)
      (all : run.gathered = some evidence) :
      Takes run (.begin .report)
        { run with report := .calling, calls := run.calls ++ [.report evidence] }
  | report {evidence : (m : Modality) → EvidenceOf m} (answer : Answer ReportDraft)
      (calling : run.report = .calling) (all : run.gathered = some evidence) :
      Takes run (.reported answer)
        { run with report := .finished (reportEnd run.bundle evidence answer) }
  | cancel : Takes run .cancel { run with cancelled := true }

theorem graphStep_iff {run next : GraphRun} {action : GraphAction} :
    graphStep run action = some next ↔ run.ending = none ∧ Takes run action next := by
  constructor
  · fun_cases graphStep run action with
    | case1 | case3 | case6 | case8 | case10 | case12 | case14 => simp
    | case2 running ready =>
      intro taken
      exact Option.some.inj taken ▸ ⟨running, .askRouter ready⟩
    | case4 running m routes routed ready empty =>
      intro taken
      exact Option.some.inj taken ▸ ⟨running, .skip ready routed empty⟩
    | case5 running m routes routed ready nonempty =>
      intro taken
      exact Option.some.inj taken ▸ ⟨running, .ask ready routed nonempty⟩
    | case7 running evidence all ready =>
      intro taken
      exact Option.some.inj taken ▸ ⟨running, .join ready all⟩
    | case9 running answer calling =>
      intro taken
      exact Option.some.inj taken ▸ ⟨running, .route answer calling⟩
    | case11 running m answer calling =>
      intro taken
      exact Option.some.inj taken ▸ ⟨running, .analyse answer calling⟩
    | case13 running answer evidence all calling =>
      intro taken
      exact Option.some.inj taken ▸ ⟨running, .report answer calling all⟩
    | case15 running =>
      intro taken
      exact Option.some.inj taken ▸ ⟨running, .cancel⟩
  · rintro ⟨running, taken⟩
    cases taken <;> simp_all [graphStep]

end Steps

/-- The agents that are asked answer so. -/
def Follows (agents : Agents) (run : GraphRun) : GraphAction → Prop
  | .routed answer => answer = agents.router
  | .analysed m answer =>
    ∃ routes, run.router = .finished routes ∧ answer = agents.agent m (routes m)
  | .reported answer => ∃ evidence, run.gathered = some evidence ∧ answer = agents.report evidence
  | .begin _ | .cancel => True

/-! ## What holds in every run -/

/-- The node has run up to its call or further. -/
def Phase.begun {α : Type} : Phase α → Bool
  | .ready => false
  | .calling | .finished _ => true

@[simp] theorem begun_ready {α : Type} : (Phase.ready : Phase α).begun = false := rfl

@[simp] theorem begun_calling {α : Type} : (Phase.calling : Phase α).begun = true := rfl

@[simp] theorem begun_finished {α : Type} (value : α) : (Phase.finished value).begun = true := rfl

theorem gathered_iff {run : GraphRun} {evidence : (m : Modality) → EvidenceOf m} :
    run.gathered = some evidence ↔ ∀ m, run.nodes m = .finished (evidence m) := by
  constructor
  · fun_cases GraphRun.gathered run with
    | case1 log metric trace isTrace isMetric isLog =>
      intro same m
      obtain rfl := Option.some.inj same
      cases m with
      | log => exact isLog
      | metric => exact isMetric
      | trace => exact isTrace
    | case2 => simp
  · intro all
    rw [GraphRun.gathered, all .log, all .metric, all .trace]
    refine congrArg some (funext fun m => ?_)
    cases m <;> rfl

/-- A call of the agent of every modality in the list. -/
def agentCalls (agents : Agents) (bundle : IngestBundle) (order : List Modality) : List AgentCall :=
  order.map fun m => .agent m (agents.routes bundle m)

section Invariant

variable [PyRuntime]

/-- The nodes hold what the sequential program computes, each begins after those it depends
on, and the calls are those of the nodes that have begun and have data. -/
structure Conforms (agents : Agents) (bundle : IngestBundle) (run : GraphRun) : Prop where
  carries : run.bundle = bundle
  routes : ∀ routes, run.router = .finished routes → routes = agents.routes bundle
  waits : (∀ routes, run.router ≠ .finished routes) → ∀ m, run.nodes m = .ready
  evidence : ∀ m evidence, run.nodes m = .finished evidence → evidence = agents.evidence bundle m
  skipped : ∀ m, bundle.items m = [] → run.nodes m ≠ .calling
  joined : run.report.begun = true → run.gathered = some (agents.evidence bundle)
  ending : ∀ ending, run.report = .finished ending → ending = orchestrate agents bundle
  calls : ∃ order : List Modality, order.Nodup ∧
    (∀ m, m ∈ order ↔ bundle.items m ≠ [] ∧ (run.nodes m).begun = true) ∧
    run.calls = (if run.router.begun then [.router] else []) ++ agentCalls agents bundle order ++
      (if run.report.begun then [.report (agents.evidence bundle)] else [])

theorem conforms_start (agents : Agents) (bundle : IngestBundle) :
    Conforms agents bundle (.start bundle) := by
  constructor
  case calls => exact ⟨[], List.nodup_nil, by simp [GraphRun.start, Phase.begun], rfl⟩
  all_goals simp [GraphRun.start, Phase.begun]

/-- The evidence of all nodes is that of the sequential program. -/
theorem Conforms.gathered {agents : Agents} {bundle : IngestBundle} {run : GraphRun}
    (conforms : Conforms agents bundle run) {evidence : (m : Modality) → EvidenceOf m}
    (all : run.gathered = some evidence) : evidence = agents.evidence bundle := by
  funext m
  exact conforms.evidence m _ (gathered_iff.mp all m)

/-- Where a node has not finished, the report has not begun. -/
theorem Conforms.report_ready {agents : Agents} {bundle : IngestBundle} {run : GraphRun}
    (conforms : Conforms agents bundle run) {m : Modality}
    (unfinished : ∀ evidence, run.nodes m ≠ .finished evidence) : run.report.begun = false := by
  cases begun : run.report.begun with
  | false => rfl
  | true => exact absurd (gathered_iff.mp (conforms.joined begun) m) (unfinished _)

/-- Where the router has not finished, no other node has begun. -/
theorem Conforms.unrouted {agents : Agents} {bundle : IngestBundle} {run : GraphRun}
    (conforms : Conforms agents bundle run) (unrouted : ∀ routes, run.router ≠ .finished routes) :
    run.report.begun = false ∧
      run.calls = if run.router.begun then [AgentCall.router] else [] := by
  have ready := conforms.waits unrouted
  have unreported : run.report.begun = false := conforms.report_ready (m := .log) (by simp [ready])
  obtain ⟨order, -, members, calls⟩ := conforms.calls
  have none_begun : order = [] := by
    apply List.eq_nil_iff_forall_not_mem.mpr
    intro m member
    have begun := ((members m).mp member).2
    rw [ready m] at begun
    cases begun
  refine ⟨unreported, ?_⟩
  rw [calls, none_begun, unreported]
  simp [agentCalls]

/-- A modality node that gets further keeps a run conforming, if it holds the right evidence
once it is done and its call is recorded. -/
theorem Conforms.update {agents : Agents} {bundle : IngestBundle} {run : GraphRun}
    (conforms : Conforms agents bundle run) {routes : Modality → Depth}
    (routed : run.router = .finished routes) {m : Modality}
    (unfinished : ∀ evidence, run.nodes m ≠ .finished evidence) (phase : Phase (EvidenceOf m))
    (right : ∀ evidence, phase = .finished evidence → evidence = agents.evidence bundle m)
    (asked : phase = .calling → bundle.items m ≠ []) {made : List AgentCall}
    {order : List Modality} (distinct : order.Nodup)
    (members : ∀ other, other ∈ order ↔
      bundle.items other ≠ [] ∧ (Function.update run.nodes m phase other).begun = true)
    (calls : made = .router :: agentCalls agents bundle order) :
    Conforms agents bundle
      { run with nodes := Function.update run.nodes m phase, calls := made } := by
  have unreported := conforms.report_ready unfinished
  refine { conforms with waits := ?_, evidence := ?_, skipped := ?_, joined := ?_, calls := ?_ }
  · intro unrouted
    exact absurd routed (unrouted routes)
  · intro other evidence done
    by_cases same : other = m
    · subst same
      exact right evidence (by simpa using done)
    · exact conforms.evidence other evidence (by simpa [same] using done)
  · intro other empty
    by_cases same : other = m
    · subst same
      simpa using fun calling => asked calling empty
    · simpa [same] using conforms.skipped other empty
  · simp [unreported]
  · exact ⟨order, distinct, members, by simp [calls, routed, unreported]⟩

/-- A step that the agents allow keeps a run conforming. -/
theorem conforms_step {agents : Agents} {bundle : IngestBundle} {run next : GraphRun}
    {action : GraphAction} (conforms : Conforms agents bundle run)
    (follows : Follows agents run action) (taken : Takes run action next) :
    Conforms agents bundle next := by
  obtain ⟨order, distinct, members, calls⟩ := conforms.calls
  cases taken with
  | askRouter ready =>
    have unrouted : ∀ routes, run.router ≠ .finished routes := by simp [ready]
    obtain ⟨unreported, made⟩ := conforms.unrouted unrouted
    have waiting := conforms.waits unrouted
    refine { conforms with routes := by simp, waits := fun _ => waiting, calls := ?_ }
    exact ⟨[], List.nodup_nil, by simp [waiting], by simp [made, ready, unreported, agentCalls]⟩
  | route answer calling =>
    refine { conforms with routes := ?_, waits := by simp, calls := ⟨order, distinct, members, ?_⟩ }
    · rintro routes same
      rw [← Phase.finished.inj same, conforms.carries, follows]
      rfl
    · simpa [calling] using calls
  | @skip m routes routed ready empty =>
    rw [conforms.carries] at empty
    have unreported := conforms.report_ready (m := m) (by simp [ready])
    apply conforms.update routed (by simp [ready]) (.finished (noData m)) _ (by simp) distinct
    · intro other
      by_cases same : other = m
      · subst same
        simp [members, empty]
      · simp [members, same]
    · simpa [routed, unreported] using calls
    · intro evidence done
      rw [← Phase.finished.inj done, Agents.evidence, if_pos empty]
  | @ask m routes routed ready nonempty =>
    rw [conforms.carries] at nonempty
    have unreported := conforms.report_ready (m := m) (by simp [ready])
    have absent : m ∉ order := by simp [members, ready]
    have appended : (order ++ [m]).Nodup := by
      rw [← List.concat_eq_append]
      exact distinct.concat absent
    apply conforms.update routed (by simp [ready]) .calling (by simp) (fun _ => nonempty) appended
    · intro other
      by_cases same : other = m
      · subst same
        simp [nonempty]
      · simp [members, same]
    · rw [calls, conforms.routes routes routed]
      simp [routed, unreported, agentCalls]
  | @analyse m answer calling =>
    have unreported := conforms.report_ready (m := m) (by simp [calling])
    have nonempty : bundle.items m ≠ [] := fun empty => conforms.skipped m empty calling
    obtain ⟨routes, routed, answered⟩ := follows
    apply conforms.update routed (by simp [calling]) (.finished (evidenceOr m answer)) _ (by simp)
      distinct
    · intro other
      by_cases same : other = m
      · subst same
        simp [members, calling]
      · simp [members, same]
    · simpa [routed, unreported] using calls
    · intro evidence done
      rw [← Phase.finished.inj done, answered, conforms.routes routes routed, Agents.evidence,
        if_neg nonempty]
  | join ready all =>
    obtain rfl := conforms.gathered all
    refine { conforms with
      joined := fun _ => all, ending := by simp, calls := ⟨order, distinct, members, ?_⟩ }
    simp [calls, ready]
  | report answer calling all =>
    obtain rfl := conforms.gathered all
    refine { conforms with
      joined := fun _ => all, ending := ?_, calls := ⟨order, distinct, members, ?_⟩ }
    · rintro ending same
      obtain ⟨evidence, gathered, answered⟩ := follows
      obtain rfl := conforms.gathered gathered
      rw [← Phase.finished.inj same, conforms.carries, answered]
      rfl
    · simpa [calling] using calls
  | cancel => exact { conforms with }

/-- Every run in which the agents answer as they do conforms. -/
theorem conforms_run {agents : Agents} {bundle : IngestBundle} {run : GraphRun}
    (reached : Reaches graphStep (Follows agents) (.start bundle) run) :
    Conforms agents bundle run := by
  apply reached.invariant
  · exact conforms_start agents bundle
  · intro state action next _ conforms follows taken
    exact conforms_step conforms follows (graphStep_iff.mp taken).2

end Invariant

/-! ## Progress -/

/-- The steps that a node may still take. -/
def Phase.remaining {α : Type} : Phase α → Nat
  | .ready => 2
  | .calling => 1
  | .finished _ => 0

/-- The steps that a run may still take. -/
def GraphRun.remaining (run : GraphRun) : Nat :=
  run.router.remaining + (run.nodes .log).remaining + (run.nodes .metric).remaining +
    (run.nodes .trace).remaining + run.report.remaining + (if run.cancelled then 0 else 1)

section Progress

variable [PyRuntime]

/-- Every step leaves fewer steps. -/
theorem remaining_step {run next : GraphRun} {action : GraphAction} (running : run.ending = none)
    (taken : Takes run action next) : next.remaining < run.remaining := by
  have fewer : ∀ (m : Modality) (phase : Phase (EvidenceOf m)),
      phase.remaining < (run.nodes m).remaining →
        (Function.update run.nodes m phase .log).remaining +
          (Function.update run.nodes m phase .metric).remaining +
          (Function.update run.nodes m phase .trace).remaining <
        (run.nodes .log).remaining + (run.nodes .metric).remaining +
          (run.nodes .trace).remaining := by
    intro m phase less
    cases m <;> simp <;> omega
  cases taken with
  | askRouter ready => simp [GraphRun.remaining, ready, Phase.remaining]
  | route answer calling => simp [GraphRun.remaining, calling, Phase.remaining]
  | @skip m routes routed ready empty =>
    have := fewer m (.finished (noData m)) (by simp [ready, Phase.remaining])
    simp only [GraphRun.remaining]
    omega
  | @ask m routes routed ready nonempty =>
    have := fewer m .calling (by simp [ready, Phase.remaining])
    simp only [GraphRun.remaining]
    omega
  | @analyse m answer calling =>
    have := fewer m (.finished (evidenceOr m answer)) (by simp [calling, Phase.remaining])
    simp only [GraphRun.remaining]
    omega
  | join ready all => simp [GraphRun.remaining, ready, Phase.remaining]
  | report answer calling all => simp [GraphRun.remaining, calling, Phase.remaining]
  | cancel =>
    cases stopped : run.cancelled with
    | true => simp [GraphRun.ending, stopped] at running
    | false => simp [GraphRun.remaining, stopped]

/-- A run that has not ended can go on without being cancelled, whatever the agents answer. -/
theorem graph_progress (agents : Agents) {run : GraphRun} (running : run.ending = none) :
    ∃ action next, Follows agents run action ∧ action ≠ .cancel ∧
      graphStep run action = some next := by
  have enabled {action : GraphAction} {next : GraphRun} (taken : Takes run action next)
      (follows : Follows agents run action) (other : action ≠ .cancel) :
      ∃ action next, Follows agents run action ∧ action ≠ .cancel ∧
        graphStep run action = some next :=
    ⟨action, next, follows, other, graphStep_iff.mpr ⟨running, taken⟩⟩
  cases router : run.router with
  | ready => exact enabled (.askRouter router) trivial (by simp)
  | calling => exact enabled (.route agents.router router) rfl (by simp)
  | finished routes =>
    by_cases all : ∀ m, ∃ evidence, run.nodes m = .finished evidence
    · choose evidence done using all
      have gathered := gathered_iff.mpr done
      cases report : run.report with
      | ready => exact enabled (.join report gathered) trivial (by simp)
      | calling =>
        exact enabled (.report (agents.report evidence) report gathered) ⟨evidence, gathered, rfl⟩
          (by simp)
      | finished ending =>
        rw [GraphRun.ending, report] at running
        split at running <;> cases running
    · obtain ⟨m, unfinished⟩ := not_forall.mp all
      cases node : run.nodes m with
      | ready =>
        by_cases empty : run.bundle.items m = []
        · exact enabled (.skip router node empty) trivial (by simp)
        · exact enabled (.ask router node empty) trivial (by simp)
      | calling =>
        exact enabled (.analyse (agents.agent m (routes m)) node) ⟨routes, router, rfl⟩ (by simp)
      | finished evidence => exact absurd ⟨evidence, node⟩ unfinished

/-- The number of steps of a run is bounded. -/
theorem graph_bounded {run final : GraphRun} {actions : List GraphAction}
    (executed : TransitionSystem.run graphStep run actions = some final) :
    actions.length + final.remaining ≤ run.remaining := by
  have bounded := run_bounded GraphRun.remaining (fun _ => 0) (fun state action next _ taken => by
    have ⟨running, takes⟩ := graphStep_iff.mp taken
    exact remaining_step running takes) executed
  simpa using bounded

end Progress

section Refinement

variable [PyRuntime]

/-- How a conforming run ends, if it is not cancelled. -/
theorem Conforms.ends {agents : Agents} {bundle : IngestBundle} {run : GraphRun}
    (conforms : Conforms agents bundle run) {ending : GraphEnd} (ended : run.ending = some ending) :
    (run.cancelled = true ∧ ending = .cancelled) ∨
      (run.report.begun = true ∧ ending = orchestrate agents bundle) := by
  rw [GraphRun.ending] at ended
  split at ended
  · next dead => exact Or.inl ⟨dead, (Option.some.inj ended).symm⟩
  · cases report : run.report with
    | ready | calling => simp [report] at ended
    | finished value =>
      have same : value = ending := by simpa [report] using ended
      exact Or.inr ⟨rfl, same ▸ conforms.ending value report⟩

/-- The calls of a run that is not cancelled, with the modalities in the order in which they
are asked. -/
def allCalls (agents : Agents) (bundle : IngestBundle) (order : List Modality) : List AgentCall :=
  .router :: agentCalls agents bundle order ++ [.report (agents.evidence bundle)]

/-- The calls of a conforming run, in their order. -/
theorem Conforms.calls_prefix {agents : Agents} {bundle : IngestBundle} {run : GraphRun}
    (conforms : Conforms agents bundle run) :
    ∃ order : List Modality, order.Nodup ∧ (∀ m ∈ order, bundle.items m ≠ []) ∧
      run.calls <+: allCalls agents bundle order ∧
      (run.report.begun = true → run.calls = allCalls agents bundle order ∧
        ∀ m, bundle.items m ≠ [] → m ∈ order) := by
  obtain ⟨order, distinct, members, calls⟩ := conforms.calls
  have routed : run.report.begun = true → run.router.begun = true := by
    intro begun
    by_contra unasked
    have unrouted : ∀ routes, run.router ≠ .finished routes := by
      intro routes same
      simp [same] at unasked
    simp [(conforms.unrouted unrouted).1] at begun
  refine ⟨order, distinct, fun m member => ((members m).mp member).1, ?_, ?_⟩
  · cases begun : run.router.begun with
    | false =>
      have unrouted : ∀ routes, run.router ≠ .finished routes := by
        intro routes same
        simp [same] at begun
      have none_made := (conforms.unrouted unrouted).2
      rw [none_made, begun]
      exact List.nil_prefix
    | true =>
      rw [calls, begun, allCalls]
      cases run.report.begun with
      | false => exact ⟨[.report (agents.evidence bundle)], by simp⟩
      | true => exact ⟨[], by simp⟩
  · intro begun
    refine ⟨by simp [calls, begun, routed begun, allCalls], fun m nonempty => ?_⟩
    have done := gathered_iff.mp (conforms.joined begun) m
    exact (members m).mpr ⟨nonempty, by simp [done]⟩

/-- In whatever order the nodes of a run begin, await their agents and finish, the run ends
as the sequential program does unless it is cancelled, after at most eleven steps; until it
ends it can go on. Its calls are, one after the other, one of the router, one of the agent of
each modality with data, at the depth of its route and in some order, and one of the report
agent with the evidence of the sequential program; a run that ends uncancelled has made all
of them. -/
theorem graph_refines (agents : Agents) (bundle : IngestBundle) {actions : List GraphAction}
    {run : GraphRun} (executed : TransitionSystem.run graphStep (.start bundle) actions = some run)
    (follows : allows graphStep (Follows agents) (.start bundle) actions) :
    actions.length ≤ 11 ∧
      (run.ending = none → ∃ action next, Follows agents run action ∧ action ≠ .cancel ∧
        graphStep run action = some next) ∧
      ∃ order : List Modality, order.Nodup ∧ (∀ m ∈ order, bundle.items m ≠ []) ∧
        run.calls <+: allCalls agents bundle order ∧
        ∀ ending, run.ending = some ending → ending = .cancelled ∨
          (ending = orchestrate agents bundle ∧ run.calls = allCalls agents bundle order ∧
            ∀ m, bundle.items m ≠ [] → m ∈ order) := by
  have conforms := conforms_run (.of_run executed follows)
  have bounded := graph_bounded executed
  obtain ⟨order, distinct, nonempty, calls, complete⟩ := conforms.calls_prefix
  refine ⟨Nat.le_trans (Nat.le_add_right _ _) bounded, graph_progress agents, order, distinct,
    nonempty, calls, ?_⟩
  intro ending ended
  obtain ⟨-, cancelled⟩ | ⟨begun, same⟩ := conforms.ends ended
  · exact Or.inl cancelled
  · exact Or.inr ⟨same, complete begun⟩

end Refinement

/-- Agents of which the router and the one for logs fail. -/
def failingAgents : Agents where
  router := .raises (py "timeout")
  agent m _ :=
    match m with
    | .log => .raises (py "rate limit")
    | .metric => .returns (codeEvidence .metric (py "quiet"))
    | .trace => .returns (codeEvidence .trace (py "slow span"))
  report _ := .raises (py "no report")

/-- The traces are asked before the logs, and answer before them. -/
def crossedSchedule : List GraphAction :=
  [.begin .router, .routed (.raises (py "timeout")), .begin (.modality .trace),
    .begin (.modality .log), .analysed .trace (.returns (codeEvidence .trace (py "slow span"))),
    .begin (.modality .metric), .analysed .log (.raises (py "rate limit")), .begin .report,
    .reported (.raises (py "no report"))]

/-- A bundle with a log line and a span. -/
def twoModalities : IngestBundle :=
  { IngestBundle.bare Iso8601.epoch with
    logs := [⟨Iso8601.epoch, py "gateway", py "ERROR timeout"⟩]
    traces := [⟨Iso8601.epoch, py "gateway", py "GET took 12.5 ms"⟩] }

open ReferenceInterpreter in
theorem graph_refines_crossed : ∃ run,
    @TransitionSystem.run _ _ (@graphStep asciiRuntime) (.start twoModalities) crossedSchedule =
        some run ∧
      run.ending = some (@orchestrate failingAgents twoModalities asciiRuntime) := by
  have executed : ∃ run, @TransitionSystem.run _ _ (@graphStep asciiRuntime) (.start twoModalities)
      crossedSchedule = some run ∧ run.ending = some (.raised (py "no report")) := ⟨_, rfl, rfl⟩
  obtain ⟨run, executed, ended⟩ := executed
  have follows : @allows _ _ (@graphStep asciiRuntime) (Follows failingAgents)
      (.start twoModalities) crossedSchedule := by
    refine ⟨trivial, ?_⟩
    rintro next ⟨⟩
    refine ⟨rfl, ?_⟩
    rintro next ⟨⟩
    refine ⟨trivial, ?_⟩
    rintro next ⟨⟩
    refine ⟨trivial, ?_⟩
    rintro next ⟨⟩
    refine ⟨⟨_, rfl, rfl⟩, ?_⟩
    rintro next ⟨⟩
    refine ⟨trivial, ?_⟩
    rintro next ⟨⟩
    refine ⟨⟨_, rfl, rfl⟩, ?_⟩
    rintro next ⟨⟩
    refine ⟨trivial, ?_⟩
    rintro next ⟨⟩
    refine ⟨⟨_, rfl, rfl⟩, ?_⟩
    rintro next ⟨⟩
    trivial
  obtain ⟨-, -, order, -, -, -, ends⟩ :=
    @graph_refines asciiRuntime failingAgents twoModalities crossedSchedule run executed follows
  obtain cancelled | same := ends _ ended
  · cases cancelled
  · exact ⟨run, executed, ended.trans (congrArg some same.1)⟩

end RcaBackend
