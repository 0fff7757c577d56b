import Cadence.Proofs.NodeSteps

/-!
# Runs with a trace of their dispatches

A run does not keep a list of the actions that it dispatched, so the list is added to the state that the
run acts on. The traced run is the run itself: leaving the list out again gives the same outcome, the same
events and delays and the same state. The proof goes through a general fact, that runs in two
surroundings end alike if each of their four changes does.
-/

namespace Cadence.Workflow

/-- A dispatch of a run: the state it was made in, the node whose action was to run, and what the action was
told about the run. -/
structure Dispatch (σ : Type) where
  before : σ
  node : Node
  context : RunContext

/-- The call of a handler that a dispatch makes, with what the handler is told about the run. -/
def Dispatch.call? {σ : Type} (d : Dispatch σ) : Option (ActionCall × RunContext) :=
  (actionCall d.node).toOption.map (·, d.context)

/-- A state with the dispatches made up to it. -/
structure Traced (σ : Type) where
  world : σ
  dispatches : List (Dispatch σ) := []

variable {σ τ α : Type}

def Traced.within (t : Task σ α) : Task (Traced σ) α :=
  Task.focus (·.world) (fun s world => { s with world := world }) t

/-- Surroundings that note every dispatch before it is made. -/
def Surroundings.traced (env : Surroundings σ) : Surroundings (Traced σ) where
  clock s := env.clock s.world
  dispatch node context := do
    modify fun s => { s with dispatches := s.dispatches ++ [⟨s.world, node, context⟩] }
    Traced.within (env.dispatch node context)
  sleep seconds := Traced.within (env.sleep seconds)
  hook e := Traced.within (env.hook e)

def Progress.untraced (p : Progress (Traced σ)) : Progress σ :=
  ⟨p.world.world, p.events, p.sleeps, p.actions⟩

namespace Runtime

/-- The run of a request from a state, with a trace of its dispatches. -/
def tracedRun (env : Surroundings σ) (r : RunRequest) (w : σ) :
    Outcome RunResult × Progress (Traced σ) :=
  (run env.traced r).runOn { world := { world := w } }

def dispatches (env : Surroundings σ) (r : RunRequest) (w : σ) : List (Dispatch σ) :=
  (tracedRun env r w).2.world.dispatches

/-! ### Runs in two surroundings -/

/-- The changes in two surroundings end alike and keep a relation between their progress. -/
structure SameChanges (env : Surroundings σ) (env' : Surroundings τ)
    (R : Progress σ → Progress τ → Prop) : Prop where
  clock : ∀ p q, R p q → env.clock p.world = env'.clock q.world
  told : ∀ e p q, R p q →
    tellingOutcome env e p.world = tellingOutcome env' e q.world ∧ R (told env e p) (told env' e q)
  slept : ∀ seconds p q, R p q →
    ((env.sleep seconds).runOn p.world).1 = ((env'.sleep seconds).runOn q.world).1 ∧
      R (slept env seconds p) (slept env' seconds q)
  counted : ∀ p q, R p q → R (counted p) (counted q)
  acted : ∀ node context p q, R p q →
    ((env.dispatch node context).runOn p.world).1 = ((env'.dispatch node context).runOn q.world).1 ∧
      R (acted env node context p) (acted env' node context q)

/-- The related runs have counted equally many actions, too, so that a cap cuts both at one node. -/
structure SameSteps (env : Surroundings σ) (env' : Surroundings τ)
    (R : Progress σ → Progress τ → Prop) : Prop extends SameChanges env env' R where
  actions : ∀ p q, R p q → p.actions = q.actions

variable {env : Surroundings σ} {env' : Surroundings τ} {R : Progress σ → Progress τ → Prop}
  {r : RunRequest} {node : Node}

namespace SameChanges

theorem emit_agrees (h : SameChanges env env' R) (e : Event) : Task.Agrees R (emit env e) (emit env' e) := by
  intro p q hpq
  by_cases he : e.Written
  · rw [runOn_emit he, runOn_emit he]
    exact h.told e p q hpq
  · rw [runOn_emit_unwritten he, runOn_emit_unwritten he]
    exact ⟨rfl, hpq⟩

theorem now_agrees (h : SameChanges env env' R) {β : Type} (f : Instant → Task (Progress σ) β)
    (g : Instant → Task (Progress τ) β) (hfg : ∀ now, Task.Agrees R (f now) (g now)) :
    Task.Agrees R (now env >>= f) (now env' >>= g) := by
  intro p q hpq
  have hclock := h.clock p q hpq
  have hp : (now env).runOn p = (.ok (env.clock p.world), p) := rfl
  have hq : (now env').runOn q = (.ok (env'.clock q.world), q) := rfl
  rw [Task.runOn_bind_ok hp, Task.runOn_bind_ok hq, hclock]
  exact hfg _ p q hpq

theorem condition_agrees (h : SameChanges env env' R) :
    Task.Agrees R (runCondition env r node) (runCondition env' r node) := by
  unfold runCondition
  refine Task.Agrees.bind (Task.Agrees.lift _) fun passed => ?_
  refine Task.Agrees.bind (h.emit_agrees _) fun _ => ?_
  refine Task.Agrees.ite ?_ (Task.Agrees.pure _)
  exact Task.Agrees.bind (h.emit_agrees _) fun _ => Task.Agrees.pure _

theorem delay_agrees (h : SameChanges env env' R) :
    Task.Agrees R (runDelay env node) (runDelay env' node) := by
  intro p q hpq
  rw [runOn_runDelay, runOn_runDelay]
  rcases delayMs (setting node "ms") with f | requested
  · exact ⟨rfl, hpq⟩
  · by_cases hwait : (Numeral.whole 0).isLess (appliedMs requested)
    · obtain ⟨ho, hslept⟩ := h.slept ((appliedMs requested).divNat 1000) p q hpq
      simp only [hwait, if_true, ho]
      rcases ((env'.sleep ((appliedMs requested).divNat 1000)).runOn q.world).1 with f | ⟨⟩
      · exact ⟨rfl, hslept⟩
      · exact h.emit_agrees _ _ _ hslept
    · simp only [hwait]
      exact h.emit_agrees _ _ _ hpq

theorem perform_agrees (h : SameChanges env env' R) (context : RunContext) :
    Task.Agrees R (perform env context node) (perform env' context node) := by
  intro p q hpq
  obtain ⟨ho, hacted⟩ := h.acted node context p q hpq
  rw [runOn_perform, runOn_perform, ho]
  rcases ((env'.dispatch node context).runOn q.world).1 with f | v
  · exact ⟨rfl, hacted⟩
  · cases v with
    | obj result => exact h.emit_agrees _ _ _ hacted
    | _ => exact ⟨rfl, hacted⟩

theorem trigger_agrees (h : SameChanges env env' R) :
    Task.Agrees R (runTrigger env r node) (runTrigger env' r node) := by
  unfold runTrigger
  exact Task.Agrees.bind (Task.Agrees.lift _) fun _ => Task.Agrees.ite (h.emit_agrees _) (h.emit_agrees _)

/-- Nodes that are no actions do not look at the count of actions. -/
theorem quiet_agrees (h : SameChanges env env' R) (notAction : node.type ≠ actionType) :
    Task.Agrees R (body env r node) (body env' r node) := by
  unfold body
  cases hn : NodeType.ofName? node.type with
  | none => exact h.now_agrees _ _ fun _ => Task.Agrees.throw _
  | some type =>
    cases type with
    | trigger => exact Task.Agrees.bind h.trigger_agrees fun _ => Task.Agrees.pure _
    | condition => exact h.condition_agrees
    | delay => exact Task.Agrees.bind h.delay_agrees fun _ => Task.Agrees.pure _
    | action => exact absurd (ofName?_eq_action.mp hn) notAction

end SameChanges

namespace SameSteps

theorem action_agrees (h : SameSteps env env' R) :
    Task.Agrees R (runAction env r node) (runAction env' r node) := by
  intro p q hpq
  rw [runOn_runAction, runOn_runAction, h.actions p q hpq, h.clock p q hpq]
  split
  · exact ⟨rfl, h.counted p q hpq⟩
  · exact h.perform_agrees r.context _ _ (h.counted p q hpq)

theorem body_agrees (h : SameSteps env env' R) :
    Task.Agrees R (body env r node) (body env' r node) := by
  by_cases isAction : node.type = actionType
  · unfold body
    rw [ofName?_eq_action.mpr isAction]
    exact Task.Agrees.bind h.action_agrees fun _ => Task.Agrees.pure _
  · exact h.quiet_agrees isAction

theorem runNode_agrees (h : SameSteps env env' R) :
    Task.Agrees R (runNode env r node) (runNode env' r node) :=
  Task.Agrees.bind (h.emit_agrees _) fun _ => h.body_agrees

theorem runNodes_agrees (h : SameSteps env env' R) (nodes : List Node) :
    Task.Agrees R (runNodes env r nodes) (runNodes env' r nodes) := by
  induction nodes with
  | nil => exact Task.Agrees.pure _
  | cons node rest ih =>
    exact Task.Agrees.bind h.runNode_agrees fun _ => Task.Agrees.ite (Task.Agrees.pure _) ih

theorem run_agrees (h : SameSteps env env' R) (r : RunRequest) :
    Task.Agrees R (run env r) (run env' r) := by
  refine Task.Agrees.bind (h.runNodes_agrees r.workflow.nodes) fun stoppedAt => ?_
  refine Task.Agrees.get_bind fun p q hpq => ?_
  rw [h.actions p q hpq]
  exact Task.Agrees.pure _

end SameSteps

/-! ### The traced run is the run -/

theorem traced_sameSteps (env : Surroundings σ) :
    SameSteps env.traced env (fun p q => p.untraced = q) where
  clock := by
    rintro p _ rfl
    rfl
  told := by
    rintro e p _ rfl
    exact ⟨rfl, rfl⟩
  slept := by
    rintro seconds p _ rfl
    exact ⟨rfl, rfl⟩
  counted := by
    rintro p _ rfl
    rfl
  acted := by
    rintro node context p _ rfl
    exact ⟨rfl, rfl⟩
  actions := by
    rintro p _ rfl
    rfl

/-- The trace changes nothing about a run. -/
theorem tracedRun_untraced (env : Surroundings σ) (r : RunRequest) (w : σ) :
    ((tracedRun env r w).1, (tracedRun env r w).2.untraced) = (run env r).runOn { world := w } := by
  obtain ⟨ho, hp⟩ := (traced_sameSteps env).run_agrees r { world := { world := w } } { world := w } rfl
  exact Prod.ext ho hp

end Runtime

end Cadence.Workflow
