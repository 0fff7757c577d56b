import Cadence.Proofs.ActionCap
import Mathlib.Data.List.Forall2

/-!
# The shape of a run

The events of a run come in groups, one for each node that is entered, in the order of the workflow. A group
begins with the entry of its node. A node that the run gets past tells of one outcome, the node at which the run
stops tells of its outcome and of the stop, and a node that ends in a fault tells of nothing else. A trigger ends
in a fault only if the event that it waits for has no text.
-/

namespace Cadence.Workflow

def Returns (ending : Outcome RunResult) (status : RunStatus) : Prop :=
  ∃ result, ending = .ok result ∧ result.status = status

namespace Runtime

variable {σ : Type} {env : Surroundings σ} {r : RunRequest} {node : Node}

/-! ### Groups of events -/

/-- The event that a trigger waits for, or the empty text if it waits for any. -/
def expectedEvent (node : Node) : Outcome String := Text.strip <$> (setting node "event").shownGiven

def IsAnother (r : RunRequest) (expected : String) : Prop := expected ≠ "" ∧ expected ≠ r.triggerType

def evaluated (node : Node) (passed : Bool) : Event :=
  .about node.id (if passed then .info else .warn) .conditionEvaluated [("passed", .bool passed)]

def stopping (node : Node) : Event := .about node.id .warn .stoppedByCondition []

/-- The event by which a node of each type tells of its outcome. -/
inductive Reports (env : Surroundings σ) (r : RunRequest) (node : Node) : Event → Prop where
  | matched (type : NodeType.ofName? node.type = some .trigger) {expected : String}
      (event : expectedEvent node = .ok expected) (meets : ¬IsAnother r expected) :
      Reports env r node (.about node.id .info .triggerMatched [("triggerType", .str r.triggerType)])
  | skipped (type : NodeType.ofName? node.type = some .trigger) {expected : String}
      (event : expectedEvent node = .ok expected) (another : IsAnother r expected) :
      Reports env r node (.about node.id .warn .triggerSkipped
        [("expected", .str expected), ("actual", .str r.triggerType)])
  | evaluated (type : NodeType.ofName? node.type = some .condition) {passed : Bool}
      (value : evaluateCondition node.config (.obj r.triggerPayload) = .ok passed) :
      Reports env r node (evaluated node passed)
  | delayed (type : NodeType.ofName? node.type = some .delay) {requested : Numeral}
      (value : delayMs (setting node "ms") = .ok requested) : Reports env r node (delayDone node requested)
  | executed (type : NodeType.ofName? node.type = some .action) {world : σ} {result : Members}
      (answer : ((env.dispatch node r.context).runOn world).1 = .ok (.obj result)) :
      Reports env r node (.about node.id .info .actionExecuted result)

def Settles (env : Surroundings σ) (r : RunRequest) (node : Node) (group : List Event) : Prop :=
  ∃ outcome, Reports env r node outcome ∧ group = [entry node, outcome]

def Stops (env : Surroundings σ) (r : RunRequest) (node : Node) (group : List Event) : Prop :=
  ∃ outcome, Reports env r node outcome ∧ group = [entry node, outcome, stopping node]

/-- A condition that does not hold and says that the run stops then. -/
structure Halts (r : RunRequest) (node : Node) : Prop where
  type : NodeType.ofName? node.type = some .condition
  fails : evaluateCondition node.config (.obj r.triggerPayload) = .ok false
  stops : (setting node "stopOnFalse").isGiven = true

structure Passes (env : Surroundings σ) (r : RunRequest) (node : Node) (group : List Event) : Prop where
  settles : Settles env r node group
  goesOn : ¬Halts r node

/-! ### One node -/

/-- How the part of a node after its entry ends, and what it tells. -/
inductive Told (env : Surroundings σ) (r : RunRequest) (node : Node) : Outcome Bool → List Event → Prop where
  | passed {outcome : Event} (reports : Reports env r node outcome) (goesOn : ¬Halts r node) :
      Told env r node (.ok false) [outcome]
  | stopped {outcome : Event} (reports : Reports env r node outcome) (halts : Halts r node) :
      Told env r node (.ok true) [outcome, stopping node]
  | raised {fault : Fault}
      (trigger : NodeType.ofName? node.type = some .trigger → expectedEvent node = .error fault)
      (goesOn : ¬Halts r node) : Told env r node (.error fault) []

theorem not_halts_of_type {type : NodeType} (h : NodeType.ofName? node.type = some type)
    (hother : type ≠ .condition) : ¬Halts r node := fun halts =>
  hother (Option.some.inj (h.symm.trans halts.type))

theorem told_of_task {t : Task (Progress σ) Unit} {p : Progress σ}
    (noTrigger : NodeType.ofName? node.type ≠ some .trigger) (goesOn : ¬Halts r node)
    (ht : match t.runOn p with
      | (.ok (), q) => ∃ outcome, Reports env r node outcome ∧ q.events = p.events ++ [outcome]
      | (.error _, q) => q.events = p.events) :
    ∃ tail, ((do t; return false : Task (Progress σ) Bool).runOn p).2.events = p.events ++ tail ∧
      Told env r node ((do t; return false : Task (Progress σ) Bool).runOn p).1 tail := by
  rcases hrun : t.runOn p with ⟨f | ⟨⟨⟩⟩, q⟩ <;> rw [hrun] at ht
  · rw [Task.runOn_bind_error hrun]
    exact ⟨[], ht.trans (List.append_nil _).symm, .raised (fun type => absurd type noTrigger) goesOn⟩
  · obtain ⟨outcome, hreports, hevents⟩ := ht
    rw [Task.runOn_bind_ok hrun]
    exact ⟨[outcome], hevents, .passed hreports goesOn⟩

/-- A trigger whose event has no text ends in that fault. -/
theorem runTrigger_unshown {fault : Fault} (hevent : expectedEvent node = .error fault) (p : Progress σ) :
    (runTrigger env r node).runOn p = (.error fault, p) := by
  unfold runTrigger
  cases hshown : (setting node "event").shownGiven with
  | error other =>
    rw [expectedEvent, hshown] at hevent
    cases hevent
    rfl
  | ok text =>
    rw [expectedEvent, hshown] at hevent
    cases hevent

section Bodies
variable (h : env.NeverInterrupts)
include h

theorem runTrigger_told (type : NodeType.ofName? node.type = some .trigger) {expected : String}
    (hevent : expectedEvent node = .ok expected) (p : Progress σ) :
    ∃ outcome, Reports env r node outcome ∧ (runTrigger env r node).runOn p = (.ok (), told env outcome p) := by
  cases hshown : (setting node "event").shownGiven with
  | error fault =>
    rw [expectedEvent, hshown] at hevent
    cases hevent
  | ok text =>
    have hshows := hevent
    rw [expectedEvent, hshown] at hshows
    cases hshows
    unfold runTrigger
    rw [hshown, Task.runOn_bind_ok (Task.runOn_lift ..)]
    by_cases hanother : IsAnother r (Text.strip text)
    · refine ⟨_, .skipped type hevent hanother, ?_⟩
      rw [← runOn_emit_of_neverInterrupts h (Event.about_written rfl)]
      exact congrArg (fun t : Task (Progress σ) Unit => t.runOn p) (if_pos hanother)
    · refine ⟨_, .matched type hevent hanother, ?_⟩
      rw [← runOn_emit_of_neverInterrupts h (Event.about_written rfl)]
      exact congrArg (fun t : Task (Progress σ) Unit => t.runOn p) (if_neg hanother)

theorem runOn_runCondition (p : Progress σ) :
    (runCondition env r node).runOn p =
      match evaluateCondition node.config (.obj r.triggerPayload) with
      | .error f => (.error f, p)
      | .ok passed =>
        let evaluating := told env (evaluated node passed) p
        if !passed && (setting node "stopOnFalse").isGiven then (.ok true, told env (stopping node) evaluating)
        else (.ok false, evaluating) := by
  unfold runCondition
  rw [Task.runOn_bind, Task.runOn_lift]
  rcases evaluateCondition node.config (.obj r.triggerPayload) with f | passed
  · rfl
  · dsimp only
    rw [Task.runOn_bind_ok (runOn_emit_of_neverInterrupts h (Event.about_written rfl) p)]
    by_cases hstops : (!passed && (setting node "stopOnFalse").isGiven) = true
    · simp only [hstops, if_true]
      rw [Task.runOn_bind_ok (runOn_emit_of_neverInterrupts h (Event.about_written rfl) _)]
      rfl
    · simp only [hstops]
      rfl

theorem runCondition_told (type : NodeType.ofName? node.type = some .condition) (p : Progress σ) :
    ∃ tail, ((runCondition env r node).runOn p).2.events = p.events ++ tail ∧
      Told env r node ((runCondition env r node).runOn p).1 tail := by
  rw [runOn_runCondition h]
  cases hvalue : evaluateCondition node.config (.obj r.triggerPayload) with
  | error f =>
    have hgoes : ¬Halts r node := fun halts => by cases hvalue.symm.trans halts.fails
    have hother : NodeType.ofName? node.type ≠ some .trigger := by
      rw [type]
      decide
    exact ⟨[], (List.append_nil _).symm, .raised (fun htrigger => absurd htrigger hother) hgoes⟩
  | ok passed =>
    have hreports : Reports env r node (evaluated node passed) := .evaluated type hvalue
    dsimp only
    by_cases hstops : (!passed && (setting node "stopOnFalse").isGiven) = true
    · obtain ⟨hfails, hgiven⟩ := Bool.and_eq_true_iff.mp hstops
      have hpassed : passed = false := by simpa using hfails
      have halts : Halts r node := ⟨type, hpassed ▸ hvalue, hgiven⟩
      rw [if_pos hstops]
      refine ⟨_, ?_, .stopped hreports halts⟩
      simp only [told, List.append_assoc, List.cons_append, List.nil_append]
    · have hgoes : ¬Halts r node := by
        intro halts
        obtain rfl : passed = false := Except.ok.inj (hvalue.symm.trans halts.fails)
        exact hstops halts.stops
      rw [if_neg hstops]
      exact ⟨_, rfl, .passed hreports hgoes⟩

theorem runDelay_told (type : NodeType.ofName? node.type = some .delay) (p : Progress σ) :
    match (runDelay env node).runOn p with
    | (.ok (), q) => ∃ outcome, Reports env r node outcome ∧ q.events = p.events ++ [outcome]
    | (.error _, q) => q.events = p.events := by
  rw [runOn_runDelay]
  cases hvalue : delayMs (setting node "ms") with
  | error f => rfl
  | ok requested =>
    have hreports : Reports env r node (delayDone node requested) := .delayed type hvalue
    by_cases hwait : (Numeral.whole 0).isLess (appliedMs requested)
    · simp only [hwait, if_true]
      rcases ((env.sleep ((appliedMs requested).divNat 1000)).runOn p.world).1 with f | ⟨⟩
      · rfl
      · simp only [runOn_emit_of_neverInterrupts h (delayDone_written hvalue)]
        exact ⟨_, hreports, rfl⟩
    · simp only [hwait, Bool.false_eq_true, if_false, runOn_emit_of_neverInterrupts h (delayDone_written hvalue)]
      exact ⟨_, hreports, rfl⟩

theorem runAction_told (type : NodeType.ofName? node.type = some .action) (p : Progress σ) :
    match (runAction env r node).runOn p with
    | (.ok (), q) => ∃ outcome, Reports env r node outcome ∧ q.events = p.events ++ [outcome]
    | (.error _, q) => q.events = p.events := by
  rw [runOn_runAction]
  by_cases hfull : r.maxActions ≤ p.actions
  · rw [if_pos hfull]
    rfl
  · rw [if_neg hfull, runOn_perform]
    cases hanswer : ((env.dispatch node r.context).runOn (counted p).world).1 with
    | error f => rfl
    | ok v =>
      cases v with
      | obj result =>
        by_cases hwritten : (Event.about node.id .info .actionExecuted result).Written
        · simp only [runOn_emit_of_neverInterrupts h hwritten]
          exact ⟨_, .executed type hanswer, rfl⟩
        · simp only [runOn_emit_unwritten hwritten]
          rfl
      | _ => rfl

theorem body_told (node : Node) (p : Progress σ) :
    ∃ tail, ((body env r node).runOn p).2.events = p.events ++ tail ∧
      Told env r node ((body env r node).runOn p).1 tail := by
  unfold body
  cases type : NodeType.ofName? node.type with
  | none =>
    have hother : NodeType.ofName? node.type ≠ some .trigger := by
      rw [type]
      decide
    have hgoes : ¬Halts r node := fun halts => by cases type.symm.trans halts.type
    exact ⟨[], (List.append_nil _).symm, .raised (fun htrigger => absurd htrigger hother) hgoes⟩
  | some kind =>
    cases kind with
    | trigger =>
      have hgoes : ¬Halts r node := not_halts_of_type type (by decide)
      dsimp only
      cases hevent : expectedEvent node with
      | error fault =>
        rw [Task.runOn_bind_error (runTrigger_unshown hevent p)]
        exact ⟨[], (List.append_nil _).symm, .raised (fun _ => hevent) hgoes⟩
      | ok expected =>
        obtain ⟨outcome, hreports, hrun⟩ := runTrigger_told h type hevent p (r := r)
        rw [Task.runOn_bind_ok hrun]
        exact ⟨_, rfl, .passed hreports hgoes⟩
    | condition => exact runCondition_told h type p
    | delay =>
      exact told_of_task (by rw [type]; decide) (not_halts_of_type type (by decide)) (runDelay_told h type p)
    | action =>
      exact told_of_task (by rw [type]; decide) (not_halts_of_type type (by decide)) (runAction_told h type p)

theorem runNode_told (node : Node) (p : Progress σ) :
    ∃ tail, ((runNode env r node).runOn p).2.events = p.events ++ entry node :: tail ∧
      Told env r node ((runNode env r node).runOn p).1 tail := by
  obtain ⟨tail, hevents, htold⟩ := body_told h node (told env (entry node) p) (r := r)
  rw [runOn_runNode, tellingOutcome_of_neverInterrupts h]
  refine ⟨tail, ?_, htold⟩
  rw [hevents]
  simp only [told, List.append_assoc, List.cons_append, List.nil_append]

/-- A run that begins with a trigger whose event has no text ends after the entry of the trigger. -/
theorem run_unshown {rest : List Node} {fault : Fault} (hnodes : r.workflow.nodes = node :: rest)
    (type : NodeType.ofName? node.type = some .trigger) (hevent : expectedEvent node = .error fault) (w : σ) :
    (run env r).runOn { world := w } = (.error fault, told env (entry node) { world := w }) := by
  have hbody (p : Progress σ) : (body env r node).runOn p = (.error fault, p) := by
    unfold body
    rw [type]
    exact Task.runOn_bind_error (runTrigger_unshown hevent p)
  rw [runOn_run, hnodes, runOn_runNodes_cons, runOn_runNode, tellingOutcome_of_neverInterrupts h]
  simp only [hbody]

end Bodies

/-! ### Nodes in order -/

/-- How a run of nodes ends, with its events. The nodes before the one at which it ends are passed. -/
inductive Course (env : Surroundings σ) (r : RunRequest) (nodes : List Node) :
    Outcome (Option String) → List Event → Prop where
  | through {groups : List (List Event)} (passed : List.Forall₂ (Passes env r) nodes groups) :
      Course env r nodes (.ok none) groups.flatten
  | stopped {before rest : List Node} {node : Node} {groups : List (List Event)} {group : List Event}
      (split : nodes = before ++ node :: rest) (passed : List.Forall₂ (Passes env r) before groups)
      (stops : Stops env r node group) (halts : Halts r node) :
      Course env r nodes (.ok (some node.id)) (groups ++ [group]).flatten
  | raised {before rest : List Node} {node : Node} {groups : List (List Event)} {fault : Fault}
      (split : nodes = before ++ node :: rest) (passed : List.Forall₂ (Passes env r) before groups)
      (trigger : NodeType.ofName? node.type = some .trigger → expectedEvent node = .error fault)
      (goesOn : ¬Halts r node) : Course env r nodes (.error fault) (groups ++ [[entry node]]).flatten

theorem Course.cons {rest : List Node} {o : Outcome (Option String)} {group events : List Event}
    (hnode : Passes env r node group) (h : Course env r rest o events) :
    Course env r (node :: rest) o (group ++ events) := by
  cases h with
  | through passed =>
    have hall : List.Forall₂ (Passes env r) (node :: rest) (group :: _) := .cons hnode passed
    exact .through hall
  | stopped split passed stops halts =>
    have hall : List.Forall₂ (Passes env r) (node :: _) (group :: _) := .cons hnode passed
    rw [split]
    exact .stopped rfl hall stops halts
  | raised split passed trigger goesOn =>
    have hall : List.Forall₂ (Passes env r) (node :: _) (group :: _) := .cons hnode passed
    rw [split]
    exact .raised rfl hall trigger goesOn

theorem runNodes_course (h : env.NeverInterrupts) (nodes : List Node) (p : Progress σ) :
    ∃ events, ((runNodes env r nodes).runOn p).2.events = p.events ++ events ∧
      Course env r nodes ((runNodes env r nodes).runOn p).1 events := by
  -- The induction is on the nodes; what was told before the first of them is general.
  induction nodes generalizing p with
  | nil => exact ⟨[], (List.append_nil _).symm, .through .nil⟩
  | cons node rest ih =>
    obtain ⟨tail, hevents, htold⟩ := runNode_told h node p (r := r)
    rw [runOn_runNodes_cons]
    rcases hrun : (runNode env r node).runOn p with ⟨ending, q⟩
    rw [hrun] at hevents htold
    have hfirst : node :: rest = [] ++ node :: rest := rfl
    cases htold with
    | passed reports goesOn =>
      obtain ⟨events, hrest, hcourse⟩ := ih q
      refine ⟨_, ?_, hcourse.cons ⟨⟨_, reports, rfl⟩, goesOn⟩⟩
      dsimp only at hevents ⊢
      rw [hrest, hevents, List.append_assoc]
    | stopped reports halts =>
      refine ⟨_, ?_, .stopped hfirst .nil ⟨_, reports, rfl⟩ halts⟩
      exact hevents
    | raised trigger goesOn =>
      refine ⟨_, ?_, .raised hfirst .nil trigger goesOn⟩
      exact hevents

/-! ### The whole run -/

/-- The events of a run that ended in the given way, split into the groups of the nodes that were entered. -/
structure Shape (env : Surroundings σ) (r : RunRequest) (ending : Outcome RunResult) (events : List Event)
    (entered : List Node) (groups : List (List Event)) : Prop where
  split : events = groups.flatten
  entered_prefix : entered <+: r.workflow.nodes
  begun : r.workflow.nodes ≠ [] → entered ≠ []
  entries : List.Forall₂ (fun node group => [entry node] <+: group) entered groups
  settled : List.Forall₂ (Settles env r) entered.dropLast groups.dropLast
  last : ∀ node group, entered.getLast? = some node → groups.getLast? = some group →
    (Settles env r node group ↔ Returns ending .completed) ∧
    (Stops env r node group ↔ Returns ending .stopped) ∧
    (group = [entry node] ↔ ∃ fault, ending = .error fault)
  completed : Returns ending .completed ↔
    entered = r.workflow.nodes ∧ List.Forall₂ (Settles env r) entered groups
  stopped : Returns ending .stopped ↔ ∃ node, entered.getLast? = some node ∧ Halts r node
  stoppedAt : ∀ result, ending = .ok result → result.stoppedAtNode =
    if result.status = .stopped then entered.getLast?.map (·.id) else none
  triggers : ∀ node, entered.getLast? = some node → NodeType.ofName? node.type = some .trigger →
    match expectedEvent node with
    | .ok _ => Returns ending .completed
    | .error fault => ending = .error fault

theorem not_returns_error {fault : Fault} {status : RunStatus} : ¬Returns (.error fault) status := by
  rintro ⟨result, hresult, -⟩
  cases hresult

theorem returns_ok_iff {result : RunResult} {status : RunStatus} :
    Returns (.ok result) status ↔ result.status = status := by
  constructor
  · rintro ⟨other, hother, hstatus⟩
    cases hother
    exact hstatus
  · intro hstatus
    exact ⟨result, rfl, hstatus⟩

section Groups
variable {group : List Event}

theorem Settles.length (h : Settles env r node group) : group.length = 2 := by
  obtain ⟨outcome, -, rfl⟩ := h
  rfl

theorem Stops.length (h : Stops env r node group) : group.length = 3 := by
  obtain ⟨outcome, -, rfl⟩ := h
  rfl

theorem Settles.begins (h : Settles env r node group) : [entry node] <+: group := by
  obtain ⟨outcome, -, rfl⟩ := h
  exact ⟨[outcome], rfl⟩

theorem Settles.expected (h : Settles env r node group) (type : NodeType.ofName? node.type = some .trigger) :
    ∃ expected, expectedEvent node = .ok expected := by
  obtain ⟨outcome, hreports, -⟩ := h
  cases hreports with
  | matched _ event _ => exact ⟨_, event⟩
  | skipped _ event _ => exact ⟨_, event⟩
  | evaluated other _ | delayed other _ | executed other _ => cases type.symm.trans other

theorem Stops.begins (h : Stops env r node group) : [entry node] <+: group := by
  obtain ⟨outcome, -, rfl⟩ := h
  exact ⟨[outcome, stopping node], rfl⟩

end Groups

theorem exists_getLast?_of_forall₂ {α β : Type} {R : α → β → Prop} {as : List α} {bs : List β} {a : α}
    (h : List.Forall₂ R as bs) (ha : as.getLast? = some a) : ∃ b, bs.getLast? = some b ∧ R a b := by
  have hreverse : List.Forall₂ R as.reverse bs.reverse := List.rel_reverse h
  rw [← List.head?_reverse] at ha ⊢
  generalize as.reverse = as', bs.reverse = bs' at hreverse ha ⊢
  cases hreverse with
  | nil => cases ha
  | cons hhead _ =>
    cases ha
    exact ⟨_, rfl, hhead⟩

theorem forall₂_dropLast {α β : Type} {R : α → β → Prop} {as : List α} {bs : List β}
    (h : List.Forall₂ R as bs) : List.Forall₂ R as.dropLast bs.dropLast := by
  rw [List.dropLast_eq_take, List.dropLast_eq_take, h.length_eq]
  exact List.forall₂_take _ h

theorem shape_through {groups : List (List Event)} {result : RunResult}
    (passed : List.Forall₂ (Passes env r) r.workflow.nodes groups) (hstatus : result.status = .completed)
    (hnone : result.stoppedAtNode = none) :
    Shape env r (.ok result) groups.flatten r.workflow.nodes groups := by
  have hsettled : List.Forall₂ (Settles env r) r.workflow.nodes groups := passed.imp fun _ _ h => h.settles
  have hreturns : Returns (.ok result) .completed := returns_ok_iff.mpr hstatus
  have hnotStopped : ¬Returns (.ok result) .stopped := by
    rw [returns_ok_iff, hstatus]
    decide
  refine {
    split := rfl
    entered_prefix := List.prefix_rfl
    begun := fun hnodes => hnodes
    entries := hsettled.imp fun _ _ h => h.begins
    settled := forall₂_dropLast hsettled
    last := fun node group hnode hgroup => ?_
    completed := iff_of_true hreturns ⟨rfl, hsettled⟩
    stopped := iff_of_false hnotStopped ?_
    stoppedAt := fun other hother => ?_
    triggers := fun node hnode htype => ?_ }
  · obtain ⟨other, hother, hlast⟩ := exists_getLast?_of_forall₂ hsettled hnode
    cases hother.symm.trans hgroup
    refine ⟨iff_of_true hlast hreturns, iff_of_false (fun h => ?_) hnotStopped, iff_of_false (fun h => ?_) ?_⟩
    · have hlength := hlast.length.symm.trans h.length
      omega
    · have hlength := hlast.length
      rw [h] at hlength
      cases hlength
    · rintro ⟨fault, hfault⟩
      cases hfault
  · rintro ⟨node, hnode, halts⟩
    obtain ⟨group, -, hlast⟩ := exists_getLast?_of_forall₂ passed hnode
    exact hlast.goesOn halts
  · cases hother
    rw [hstatus, hnone, if_neg (by decide)]
  · obtain ⟨group, -, hlast⟩ := exists_getLast?_of_forall₂ hsettled hnode
    obtain ⟨expected, hexpected⟩ := hlast.expected htype
    rw [hexpected]
    exact hreturns

theorem shape_ended {before rest : List Node} {groups : List (List Event)} {group : List Event}
    {ending : Outcome RunResult} (hnodes : r.workflow.nodes = before ++ node :: rest)
    (passed : List.Forall₂ (Passes env r) before groups) (hbegins : [entry node] <+: group)
    (hunsettled : ¬Settles env r node group) (hincomplete : ¬Returns ending .completed)
    (hstops : Stops env r node group ↔ Returns ending .stopped)
    (hraised : group = [entry node] ↔ ∃ fault, ending = .error fault)
    (halts : Returns ending .stopped ↔ Halts r node)
    (hstoppedAt : ∀ result, ending = .ok result →
      result.status = .stopped ∧ result.stoppedAtNode = some node.id)
    (trigger : NodeType.ofName? node.type = some .trigger →
      ∃ fault, expectedEvent node = .error fault ∧ ending = .error fault) :
    Shape env r ending (groups ++ [group]).flatten (before ++ [node]) (groups ++ [group]) := by
  have hsettled : List.Forall₂ (Settles env r) before groups := passed.imp fun _ _ h => h.settles
  -- All that is said about a last node or a last group is said about these two.
  have hlastNode : (before ++ [node]).getLast? = some node := List.getLast?_concat
  have hlastGroup : (groups ++ [group]).getLast? = some group := List.getLast?_concat
  refine {
    split := rfl
    entered_prefix := ⟨rest, ?_⟩
    begun := fun _ => List.append_ne_nil_of_right_ne_nil _ (List.cons_ne_nil node [])
    entries := List.rel_append (hsettled.imp fun _ _ h => h.begins) (.cons hbegins .nil)
    settled := ?_
    last := fun node' group' hnode hgroup => ?_
    completed := iff_of_false hincomplete ?_
    stopped := ?_
    stoppedAt := fun result hresult => ?_
    triggers := fun node' hnode htype => ?_ }
  · rw [hnodes, List.append_assoc, List.singleton_append]
  · rw [List.dropLast_concat, List.dropLast_concat]
    exact hsettled
  · cases hlastNode.symm.trans hnode
    cases hlastGroup.symm.trans hgroup
    exact ⟨iff_of_false hunsettled hincomplete, hstops, hraised⟩
  · rintro ⟨-, hall⟩
    obtain ⟨other, hother, hlast⟩ := exists_getLast?_of_forall₂ hall hlastNode
    cases hlastGroup.symm.trans hother
    exact hunsettled hlast
  · rw [halts, hlastNode]
    simp only [Option.some.injEq, exists_eq_left']
  · obtain ⟨hstatus, hat⟩ := hstoppedAt result hresult
    rw [hstatus, if_pos rfl, hlastNode, hat]
    rfl
  · cases hlastNode.symm.trans hnode
    obtain ⟨fault, hexpected, hending⟩ := trigger htype
    rw [hexpected]
    exact hending

theorem shape_of_course {stoppedAt : Outcome (Option String)} {events : List Event} (actions : Nat)
    (h : Course env r r.workflow.nodes stoppedAt events) :
    ∃ entered groups, Shape env r (stoppedAt.map fun at? =>
      ⟨r.executionId, if at?.isSome then .stopped else .completed, actions, at?⟩) events entered groups := by
  cases h with
  | through passed => exact ⟨_, _, shape_through passed rfl rfl⟩
  | stopped split passed stops halts =>
    -- A group of three events is none of those of a node that is passed, or that raised.
    refine ⟨_, _, shape_ended split passed stops.begins ?_ ?_ ?_ ?_ ?_ ?_ ?_⟩
    · intro hsettles
      have hlength := hsettles.length.symm.trans stops.length
      omega
    · intro hcompleted
      cases returns_ok_iff.mp hcompleted
    · exact iff_of_true stops (returns_ok_iff.mpr rfl)
    · refine iff_of_false (fun hgroup => ?_) ?_
      · have hlength := stops.length
        rw [hgroup] at hlength
        cases hlength
      · rintro ⟨fault, hfault⟩
        cases hfault
    · exact iff_of_true (returns_ok_iff.mpr rfl) halts
    · intro result hresult
      cases hresult
      exact ⟨rfl, rfl⟩
    · intro htrigger
      cases halts.type.symm.trans htrigger
  | raised split passed trigger goesOn =>
    refine ⟨_, _, shape_ended split passed List.prefix_rfl ?_ not_returns_error ?_ ?_ ?_ ?_ fun htrigger =>
      ⟨_, trigger htrigger, rfl⟩⟩
    · intro hsettles
      cases hsettles.length
    · exact iff_of_false (fun hstops => by cases hstops.length) not_returns_error
    · exact iff_of_true rfl ⟨_, rfl⟩
    · exact iff_of_false not_returns_error goesOn
    · intro result hresult
      cases hresult

/-- The events of every run have this shape, as long as the faults of its hook can be logged and dropped: one group
for each node of a first part of the workflow, in order. All but the last group tell of the entry of their node and
of one outcome. The last one tells of a stop, too, if and only if the run returns that it stopped, and of nothing but
the entry if and only if the run ends in a fault. A trigger ends the run if and only if the event that it waits for
has no text. -/
theorem events_shaped (env : Surroundings σ) (r : RunRequest) (w : σ) (h : env.NeverInterrupts) :
    let final := (run env r).runOn { world := w }
    ∃ entered groups, Shape env r final.1 final.2.events entered groups := by
  intro final
  obtain ⟨events, hevents, hcourse⟩ := runNodes_course h r.workflow.nodes { world := w } (r := r)
  have hfinal : final = _ := runOn_run { world := w }
  rcases hrun : (runNodes env r r.workflow.nodes).runOn { world := w } with ⟨f | stoppedAt, q⟩ <;>
    rw [hrun] at hfinal hevents hcourse
  · rw [hfinal, show q.events = events from hevents]
    exact shape_of_course 0 hcourse
  · rw [hfinal, show q.events = events from hevents]
    exact shape_of_course q.actions hcourse

/-- Waits for another event, acts, and stops before its last node, since its lead has no address. -/
def addressed : RunRequest where
  workflow := { nodes := [
    ⟨"begin", "trigger", [("event", .str "signup")]⟩,
    ⟨"first", actionType, []⟩,
    ⟨"check", "condition", [("path", .str "lead.email"), ("stopOnFalse", .bool true)]⟩,
    ⟨"second", actionType, []⟩] }
  tenantId := "tenant"
  clientId := "client"
  triggerType := "manual"
  executionId := "run"
  maxActions := 2

theorem events_shaped_addressed :
    let final := (run counting addressed).runOn { world := 0 }
    counting.NeverInterrupts ∧
      (∃ entered groups, Shape counting addressed final.1 final.2.events entered groups) ∧
      final.2.events.map (·.kind) = [.nodeEnter, .triggerSkipped, .nodeEnter, .actionExecuted, .nodeEnter,
        .conditionEvaluated, .stoppedByCondition] := by
  have hhook : counting.NeverInterrupts := by
    intro e w fault hfault
    cases hfault
  exact ⟨hhook, events_shaped counting addressed 0 hhook, rfl⟩

/-- Waits for an event that has no text, and then acts. -/
def unshown : RunRequest where
  workflow := { nodes := [⟨"begin", "trigger", [("event", .leastUnwritten)]⟩, ⟨"first", actionType, []⟩] }
  tenantId := "tenant"
  clientId := "client"
  triggerType := "manual"
  executionId := "run"
  maxActions := 2

/-- Surroundings that count the dispatches, with a hook that orders the run to stop when a trigger is skipped. -/
def halting : Surroundings Nat :=
  { counting with hook := fun e => if e.kind = .triggerSkipped then throw (.cancelled "stop") else return () }

theorem expectedEvent_unshown : expectedEvent ⟨"begin", "trigger", [("event", .leastUnwritten)]⟩ =
    .error .integerTooLong := congrArg (Text.strip <$> ·) Json.shownGiven_leastUnwritten

/-- A trigger for an event that has no text ends the run after its entry. One for another event ends the run, too,
if the hook orders a stop. -/
theorem triggers_end_runs :
    let refused := (run counting unshown).runOn { world := 0 }
    let halted := (run halting addressed).runOn { world := 0 }
    (refused.1 = .error .integerTooLong ∧ refused.2.events.map (·.kind) = [.nodeEnter]) ∧
      halted.1 = .error (.cancelled "stop") ∧ halted.2.events.map (·.kind) = [.nodeEnter, .triggerSkipped] := by
  intro refused halted
  have hhook : counting.NeverInterrupts := by
    intro e w fault hfault
    cases hfault
  have hrefused : refused = _ := run_unshown hhook (r := unshown) rfl rfl expectedEvent_unshown 0
  rw [hrefused]
  exact ⟨⟨rfl, rfl⟩, rfl, rfl⟩

end Runtime

end Cadence.Workflow
