import Cadence.Proofs.TaskRuns
import Cadence.Proofs.WrittenNumbers
import Cadence.Workflow.Runtime
import Mathlib.Tactic.SplitIfs

/-!
# Steps of a run

A run changes its progress in four ways only: an event is told, a delay is waited for, an action is
counted, and an action is dispatched. Each way is a function on progress here. The tasks of the runtime
are then described by these functions, and a property that all four keep holds at the end of every run,
however it ends.
-/

namespace Cadence

/-- A fault that does not hold up a run when its hook raises it: it is no order to stop, and has a text, so it
can be logged. -/
structure Fault.Loggable (fault : Fault) : Prop where
  goesOn : fault.isCancellation = false
  readable : ∃ text, fault.text = .ok text

/-- An error without a text, since a number that belongs to it is too long to be written. -/
def Fault.textless : Fault := .unreadable "ValueError" Fault.integerTooLong.label Fault.integerTooLong.message

namespace Workflow

def actionType : String := "action"

theorem ofName?_eq_action {name : String} : NodeType.ofName? name = some .action ↔ name = actionType := by
  unfold NodeType.ofName? actionType
  constructor
  · intro h
    split_ifs at h <;> first | assumption | cases h
  · rintro rfl
    rfl

/-- The hook may fail, but each of its faults can be logged and dropped. -/
def Surroundings.NeverInterrupts {σ : Type} (env : Surroundings σ) : Prop :=
  ∀ e w fault, ((env.hook e).runOn w).1 = .error fault → fault.Loggable

/-- An event whose payload can be shown in the log. -/
def Event.Written (e : Event) : Prop := Json.haveWritable e.payload = true

theorem Event.about_written {id : String} {level : EventLevel} {kind : EventKind} {more : Members}
    (h : Json.haveWritable more = true) : (Event.about id level kind more).Written :=
  Json.haveWritable_setAll rfl h

namespace Runtime

variable {σ : Type} {env : Surroundings σ} {r : RunRequest} {node : Node}

/-! ### The four changes -/

def entry (node : Node) : Event := .about node.id .info .nodeEnter [("nodeType", .str node.type)]

/-- What a node asks of an action, if the action's name has a text. -/
def callOf (node : Node) : ActionCall := ⟨node.id, (setting node "action").displayGiven, node.config⟩

/-- An event is noted, and the hook acts on the state. -/
def told (env : Surroundings σ) (e : Event) (p : Progress σ) : Progress σ :=
  { p with world := ((env.hook e).runOn p.world).2, events := p.events ++ [e] }

/-- A delay is noted, and waiting acts on the state. -/
def slept (env : Surroundings σ) (seconds : Binary64) (p : Progress σ) : Progress σ :=
  { p with world := ((env.sleep seconds).runOn p.world).2, sleeps := p.sleeps ++ [seconds] }

def counted (p : Progress σ) : Progress σ := { p with actions := p.actions + 1 }

/-- A dispatched action acts on the state. -/
def acted (env : Surroundings σ) (node : Node) (context : RunContext) (p : Progress σ) : Progress σ :=
  { p with world := ((env.dispatch node context).runOn p.world).2 }

/-- How telling about an event ends: an order to stop goes through, any other fault is logged and dropped. -/
def tellingOutcome (env : Surroundings σ) (e : Event) (world : σ) : Outcome Unit :=
  match ((env.hook e).runOn world).1 with
  | .ok () => .ok ()
  | .error fault => if fault.isCancellation then .error fault else fault.text.map fun _ => ()

def capFault (r : RunRequest) (node : Node) (now : Instant) : Fault :=
  .failure (.executionCapExceeded (.nat r.maxActions) (some node.id) now)

/-- What an action node does that is within the cap. -/
def perform (env : Surroundings σ) (context : RunContext) (node : Node) : Task (Progress σ) Unit := do
  match ← onWorld (env.dispatch node context) with
  | .obj result => emit env (.about node.id .info .actionExecuted result)
  | v => throw (.notAnObject v.typeName)

def delayDone (node : Node) (requested : Numeral) : Event :=
  .about node.id .info .delayCompleted
    [("requestedMs", .ofNumeral requested), ("appliedMs", .ofNumeral (appliedMs requested))]

/-- What a node does after it was entered. -/
def body (env : Surroundings σ) (r : RunRequest) (node : Node) : Task (Progress σ) Bool :=
  match NodeType.ofName? node.type with
  | some .trigger => do runTrigger env r node; return false
  | some .condition => runCondition env r node
  | some .delay => do runDelay env node; return false
  | some .action => do runAction env r node; return false
  | none => do throw (.failure (.unsupportedNodeType node.type (some node.id) (← now env)))

/-! ### The tasks of the runtime -/

theorem runOn_emit {e : Event} (he : e.Written) (p : Progress σ) :
    (emit env e).runOn p = (tellingOutcome env e p.world, told env e p) := by
  have hshown : ((Json.obj e.payload).shown : Outcome String) = .ok (Json.obj e.payload).display := if_pos he
  unfold emit
  rw [hshown, Task.runOn_bind_ok (Task.runOn_lift ..), Task.runOn_bind_ok (Task.runOn_modify ..),
    Task.runOn_bind_ok (Task.runOn_attempt ..)]
  simp only [onWorld, Task.runOn_focus, tellingOutcome]
  rcases ((env.hook e).runOn p.world).1 with fault | ⟨⟩
  · by_cases h : fault.isCancellation
    · simp only [h, if_true]
      rfl
    · simp only [h]
      cases fault.text <;> rfl
  · rfl

/-- An event that cannot be shown is not told. -/
theorem runOn_emit_unwritten {e : Event} (he : ¬e.Written) (p : Progress σ) :
    (emit env e).runOn p = (.error .integerTooLong, p) := by
  have hshown : ((Json.obj e.payload).shown : Outcome String) = .error .integerTooLong := if_neg he
  unfold emit
  rw [hshown]
  rfl

/-- An event is told, or the task ends before it changes anything. -/
theorem runOn_emit_cases (env : Surroundings σ) (e : Event) (p : Progress σ) :
    (emit env e).runOn p = (tellingOutcome env e p.world, told env e p) ∨
      (emit env e).runOn p = (.error .integerTooLong, p) := by
  by_cases he : e.Written
  · exact .inl (runOn_emit he p)
  · exact .inr (runOn_emit_unwritten he p)

theorem tellingOutcome_of_neverInterrupts (h : env.NeverInterrupts) (e : Event) (w : σ) :
    tellingOutcome env e w = .ok () := by
  unfold tellingOutcome
  cases hhook : ((env.hook e).runOn w).1 with
  | ok done => rfl
  | error fault =>
    obtain ⟨hfault, text, htext⟩ := h e w fault hhook
    simp only [hfault, Bool.false_eq_true, if_false, htext]
    rfl

theorem runOn_emit_of_neverInterrupts (h : env.NeverInterrupts) {e : Event} (he : e.Written) (p : Progress σ) :
    (emit env e).runOn p = (.ok (), told env e p) := by
  rw [runOn_emit he, tellingOutcome_of_neverInterrupts h]

theorem entry_written (node : Node) : (entry node).Written := Event.about_written rfl

theorem delayDone_written {requested : Numeral} (h : delayMs (setting node "ms") = .ok requested) :
    (delayDone node requested).Written := by
  have hrequested := isWritable_delayMs h
  refine Event.about_written ?_
  simp only [Json.haveWritable, hrequested, isWritable_appliedMs hrequested, Bool.and_self]

/-- An action is called by the text of its name. A name without a text is not called. -/
theorem runOn_onNode (handler : Handler σ) (node : Node) (context : RunContext) (w : σ) :
    (handler.onNode node context).runOn w =
      match actionCall node with
      | .ok call => (handler call context).runOn w
      | .error f => (.error f, w) := by
  unfold Handler.onNode
  rw [Task.runOn_bind, Task.runOn_lift]
  rcases actionCall node with f | call <;> rfl

theorem runOn_onNode_called {call : ActionCall} (h : actionCall node = .ok call) (handler : Handler σ)
    (context : RunContext) (w : σ) : (handler.onNode node context).runOn w = (handler call context).runOn w := by
  rw [runOn_onNode, h]

theorem runOn_onNode_uncalled {f : Fault} (h : actionCall node = .error f) (handler : Handler σ)
    (context : RunContext) (w : σ) : (handler.onNode node context).runOn w = (.error f, w) := by
  rw [runOn_onNode, h]

theorem called_of_onNode_ok {handler : Handler σ} {context : RunContext} {w : σ} {v : Json}
    (h : ((handler.onNode node context).runOn w).1 = .ok v) :
    ∃ call, actionCall node = .ok call ∧ ((handler call context).runOn w).1 = .ok v := by
  rw [runOn_onNode] at h
  cases hcall : actionCall node with
  | ok call =>
    rw [hcall] at h
    exact ⟨call, rfl, h⟩
  | error f =>
    rw [hcall] at h
    cases h

theorem actionCall_cases (node : Node) :
    actionCall node = .ok (callOf node) ∨ actionCall node = .error .integerTooLong := by
  unfold actionCall callOf Json.shownGiven Json.displayGiven Json.shown
  split
  · split
    · exact .inl rfl
    · exact .inr rfl
  · exact .inl rfl

theorem runOn_runAction (p : Progress σ) :
    (runAction env r node).runOn p =
      if r.maxActions ≤ p.actions then (.error (capFault r node (env.clock p.world)), counted p)
      else (perform env r.context node).runOn (counted p) := by
  unfold runAction
  rw [Task.runOn_bind_ok (Task.runOn_modify ..), Task.runOn_bind_ok (Task.runOn_get ..)]
  by_cases h : r.maxActions ≤ p.actions
  · simp only [if_pos h, if_pos (Nat.lt_succ_of_le h)]
    rfl
  · simp only [if_neg h, if_neg (show ¬r.maxActions < p.actions + 1 by omega)]
    rfl

theorem runOn_perform (context : RunContext) (p : Progress σ) :
    (perform env context node).runOn p =
      match ((env.dispatch node context).runOn p.world).1 with
      | .ok (.obj result) =>
        (emit env (.about node.id .info .actionExecuted result)).runOn (acted env node context p)
      | .ok v => (.error (.notAnObject v.typeName), acted env node context p)
      | .error f => (.error f, acted env node context p) := by
  unfold perform
  rw [Task.runOn_bind]
  simp only [onWorld, Task.runOn_focus, acted]
  rcases ((env.dispatch node context).runOn p.world).1 with f | v
  · rfl
  · cases v <;> rfl

theorem runOn_runDelay (p : Progress σ) :
    (runDelay env node).runOn p =
      match delayMs (setting node "ms") with
      | .error f => (.error f, p)
      | .ok requested =>
        let seconds := (appliedMs requested).divNat 1000
        if (Numeral.whole 0).isLess (appliedMs requested) then
          match ((env.sleep seconds).runOn p.world).1 with
          | .ok () => (emit env (delayDone node requested)).runOn (slept env seconds p)
          | .error f => (.error f, slept env seconds p)
        else (emit env (delayDone node requested)).runOn p := by
  unfold runDelay
  rw [Task.runOn_bind, Task.runOn_lift]
  rcases delayMs (setting node "ms") with f | requested
  · rfl
  · by_cases hwait : (Numeral.whole 0).isLess (appliedMs requested)
    · simp only [hwait, if_true]
      rw [Task.runOn_bind_ok (Task.runOn_modify ..), Task.runOn_bind]
      simp only [onWorld, Task.runOn_focus, slept]
      rcases ((env.sleep ((appliedMs requested).divNat 1000)).runOn p.world).1 with f | ⟨⟩ <;> rfl
    · simp only [hwait]
      rfl

theorem runOn_runNode (p : Progress σ) :
    (runNode env r node).runOn p =
      match tellingOutcome env (entry node) p.world with
      | .ok () => (body env r node).runOn (told env (entry node) p)
      | .error f => (.error f, told env (entry node) p) := by
  unfold runNode
  rw [Task.runOn_bind]
  have h : (emit env (.about node.id .info .nodeEnter [("nodeType", .str node.type)])).runOn p =
      (tellingOutcome env (entry node) p.world, told env (entry node) p) := runOn_emit (entry_written node) p
  rw [h]
  rcases tellingOutcome env (entry node) p.world with f | ⟨⟩ <;> rfl

theorem runOn_runNodes_cons (rest : List Node) (p : Progress σ) :
    (runNodes env r (node :: rest)).runOn p =
      match (runNode env r node).runOn p with
      | (.ok true, q) => (.ok (some node.id), q)
      | (.ok false, q) => (runNodes env r rest).runOn q
      | (.error f, q) => (.error f, q) := by
  rw [runNodes, Task.runOn_bind]
  rcases (runNode env r node).runOn p with ⟨f | ⟨⟨⟩⟩, q⟩ <;> rfl

theorem runOn_run (p : Progress σ) :
    (run env r).runOn p =
      match (runNodes env r r.workflow.nodes).runOn p with
      | (.ok stoppedAt, q) =>
        (.ok ⟨r.executionId, if stoppedAt.isSome then .stopped else .completed, q.actions, stoppedAt⟩, q)
      | (.error f, q) => (.error f, q) := by
  rw [run, Task.runOn_bind]
  rcases (runNodes env r r.workflow.nodes).runOn p with ⟨f | stoppedAt, q⟩ <;> rfl

/-! ### What every run keeps -/

/-- An event that running a node can tell. Apart from results of actions, no event names another node
than the one that is run. -/
inductive Tells (env : Surroundings σ) (r : RunRequest) (node : Node) : Event → Prop where
  | enter : Tells env r node (entry node)
  | outcome {level : EventLevel} {kind : EventKind} {more : Members} (notEnter : kind ≠ .nodeEnter)
      (notExecuted : kind ≠ .actionExecuted) (notFailed : kind ≠ .failed)
      (noNode : more.get? "nodeId" = none) : Tells env r node (.about node.id level kind more)
  | executed {world : σ} {result : Members} (isAction : node.type = actionType)
      (answer : ((env.dispatch node r.context).runOn world).1 = .ok (.obj result)) :
      Tells env r node (.about node.id .info .actionExecuted result)

theorem Tells.label_ne_failed {e : Event} (h : Tells env r node e) :
    e.kind.label ≠ EventKind.failed.label := by
  have hkind : e.kind ≠ .failed := by
    cases h with
    | enter => exact EventKind.noConfusion
    | outcome _ _ notFailed _ => exact notFailed
    | executed _ _ => exact EventKind.noConfusion
  intro heq
  revert hkind heq
  cases e.kind <;> decide

/-- A property that the changes made by one node keep. -/
structure StepInvariant (env : Surroundings σ) (r : RunRequest) (node : Node)
    (I : Progress σ → Prop) : Prop where
  told : ∀ e p, Tells env r node e → I p → I (told env e p)
  slept : ∀ seconds p, I p → I (slept env seconds p)
  counted : node.type = actionType → ∀ p, I p → I (counted p)
  acted : node.type = actionType → ∀ p, I p → I (acted env node r.context p)

namespace StepInvariant
variable {I : Progress σ → Prop}

theorem emit_keeps (h : StepInvariant env r node I) {e : Event} (he : Tells env r node e) :
    Task.Keeps I (emit env e) := by
  intro p hp
  rcases runOn_emit_cases env e p with hrun | hrun <;> rw [hrun]
  · exact h.told e p he hp
  · exact hp

theorem trigger_keeps (h : StepInvariant env r node I) : Task.Keeps I (runTrigger env r node) := by
  have hdone (level : EventLevel) (kind : EventKind) (more : Members)
      (hkind : kind = .triggerSkipped ∨ kind = .triggerMatched) (hmore : more.get? "nodeId" = none) :
      Task.Keeps I (emit env (.about node.id level kind more)) := by
    rcases hkind with rfl | rfl <;>
      exact h.emit_keeps (.outcome (by decide) (by decide) (by decide) hmore)
  unfold runTrigger
  refine Task.Keeps.bind (Task.Keeps.lift _) fun text => ?_
  exact Task.Keeps.ite (hdone _ _ _ (.inl rfl) rfl) (hdone _ _ _ (.inr rfl) rfl)

theorem condition_keeps (h : StepInvariant env r node I) : Task.Keeps I (runCondition env r node) := by
  unfold runCondition
  refine Task.Keeps.bind (Task.Keeps.lift _) fun passed => ?_
  refine Task.Keeps.bind
    (h.emit_keeps (.outcome (by decide) (by decide) (by decide) rfl)) fun _ => ?_
  refine Task.Keeps.ite ?_ (Task.Keeps.pure _)
  exact Task.Keeps.bind
    (h.emit_keeps (.outcome (by decide) (by decide) (by decide) rfl)) fun _ => Task.Keeps.pure _

theorem delay_keeps (h : StepInvariant env r node I) : Task.Keeps I (runDelay env node) := by
  intro p hp
  have hdone (requested : Numeral) : Task.Keeps I (emit env (delayDone node requested)) :=
    h.emit_keeps (.outcome (by decide) (by decide) (by decide) rfl)
  rw [runOn_runDelay]
  rcases delayMs (setting node "ms") with f | requested
  · exact hp
  · by_cases hwait : (Numeral.whole 0).isLess (appliedMs requested)
    · have hslept := h.slept ((appliedMs requested).divNat 1000) p hp
      simp only [hwait, if_true]
      rcases ((env.sleep ((appliedMs requested).divNat 1000)).runOn p.world).1 with f | ⟨⟩
      · exact hslept
      · exact hdone requested _ hslept
    · simp only [hwait]
      exact hdone requested p hp

theorem perform_keeps (h : StepInvariant env r node I) (isAction : node.type = actionType) :
    Task.Keeps I (perform env r.context node) := by
  intro p hp
  have hacted := h.acted isAction p hp
  rw [runOn_perform]
  rcases ha : ((env.dispatch node r.context).runOn p.world).1 with f | v
  · exact hacted
  · cases v with
    | obj result => exact h.emit_keeps (.executed isAction ha) _ hacted
    | _ => exact hacted

theorem action_keeps (h : StepInvariant env r node I) (isAction : node.type = actionType) :
    Task.Keeps I (runAction env r node) := by
  intro p hp
  rw [runOn_runAction]
  split
  · exact h.counted isAction p hp
  · exact h.perform_keeps isAction _ (h.counted isAction p hp)

theorem body_keeps (h : StepInvariant env r node I) : Task.Keeps I (body env r node) := by
  unfold body
  cases hn : NodeType.ofName? node.type with
  | none => exact Task.Keeps.bind (Task.Keeps.bind Task.Keeps.get fun _ => Task.Keeps.pure _) fun _ =>
      Task.Keeps.throw _
  | some type =>
    cases type with
    | trigger => exact Task.Keeps.bind h.trigger_keeps fun _ => Task.Keeps.pure _
    | condition => exact h.condition_keeps
    | delay => exact Task.Keeps.bind h.delay_keeps fun _ => Task.Keeps.pure _
    | action =>
      exact Task.Keeps.bind (h.action_keeps (ofName?_eq_action.mp hn)) fun _ => Task.Keeps.pure _

theorem runNode_keeps (h : StepInvariant env r node I) : Task.Keeps I (runNode env r node) :=
  Task.Keeps.bind (h.emit_keeps .enter) fun _ => h.body_keeps

end StepInvariant

/-- A property that every node's changes keep holds after any number of nodes, however they end. -/
theorem runNodes_keeps {I : Progress σ → Prop} {nodes : List Node}
    (h : ∀ node ∈ nodes, StepInvariant env r node I) : Task.Keeps I (runNodes env r nodes) := by
  induction nodes with
  | nil => exact Task.Keeps.pure _
  | cons node rest ih =>
    have hnode := (h node List.mem_cons_self).runNode_keeps
    have hrest := ih fun other hother => h other (List.mem_cons_of_mem _ hother)
    -- a run that stops at this node has kept the property up to here
    exact Task.Keeps.bind hnode fun _ => Task.Keeps.ite (Task.Keeps.pure _) hrest

theorem run_keeps {I : Progress σ → Prop}
    (h : ∀ node ∈ r.workflow.nodes, StepInvariant env r node I) : Task.Keeps I (run env r) :=
  Task.Keeps.bind (runNodes_keeps h) fun _ => Task.Keeps.bind Task.Keeps.get fun _ => Task.Keeps.pure _

end Runtime

end Workflow

end Cadence
