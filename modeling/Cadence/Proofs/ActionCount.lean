import Cadence.Proofs.ActionCap
import Cadence.Workflow.Engine

/-!
# The count of actions

A run counts its actions before they are dispatched, and the engine counts the events that tell of executed
actions. As long as no fault ends the run, the two counts agree after every node.
-/

namespace Cadence.Workflow.Runtime

variable {σ : Type} {env : Surroundings σ} {r : RunRequest} {node : Node} {p q : Progress σ}

theorem executedActions_told_other {e : Event} (h : e.kind ≠ .actionExecuted) :
    Engine.executedActions (told env e p) = Engine.executedActions p := by
  simp only [Engine.executedActions, told, List.filter_append, List.filter_cons, List.filter_nil, h,
    decide_false, Bool.false_eq_true, if_false, List.append_nil]

theorem executedActions_told_executed {e : Event} (h : e.kind = .actionExecuted) :
    Engine.executedActions (told env e p) = Engine.executedActions p + 1 := by
  simp only [Engine.executedActions, told, List.filter_append, List.filter_cons, List.filter_nil, h,
    decide_true, if_true, List.length_append, List.length_singleton]

theorem counts_stepInvariant (env : Surroundings σ) (r : RunRequest) (notAction : node.type ≠ actionType)
    (executed counted : Nat) :
    StepInvariant env r node
      (fun p : Progress σ => Engine.executedActions p = executed ∧ p.actions = counted) where
  told e p he h := by
    have hkind : e.kind ≠ .actionExecuted := by
      cases he with
      | enter => exact EventKind.noConfusion
      | outcome _ notExecuted _ _ => exact notExecuted
      | executed isAction _ => exact absurd isAction notAction
    exact ⟨(executedActions_told_other hkind).trans h.1, h.2⟩
  slept _ _ h := h
  counted isAction := absurd isAction notAction
  acted isAction := absurd isAction notAction

theorem perform_settled (context : RunContext)
    (hrun : (perform env context node).runOn (counted (told env (entry node) p)) = (.ok (), q)) :
    Engine.executedActions q = Engine.executedActions p + 1 ∧ q.actions = p.actions + 1 := by
  have hentry : Engine.executedActions (told env (entry node) p) = Engine.executedActions p :=
    executedActions_told_other EventKind.noConfusion
  rw [runOn_perform] at hrun
  rcases hanswer : ((env.dispatch node context).runOn
    (counted (told env (entry node) p)).world).1 with f | v <;> rw [hanswer] at hrun
  · cases hrun
  · cases v with
    | obj result =>
      rcases runOn_emit_cases env (.about node.id .info .actionExecuted result)
        (acted env node context (counted (told env (entry node) p))) with hemit | hemit <;>
        simp only [hemit] at hrun
      · obtain ⟨-, rfl⟩ := Prod.mk.inj hrun
        exact ⟨(executedActions_told_executed rfl).trans (congrArg (· + 1) hentry), rfl⟩
      · cases hrun
    | _ => cases hrun

theorem runNode_settled {stops : Bool} (h : Engine.executedActions p = p.actions)
    (hrun : (runNode env r node).runOn p = (.ok stops, q)) : Engine.executedActions q = q.actions := by
  by_cases isAction : node.type = actionType
  · rw [runOn_runNode_action isAction] at hrun
    rcases htelling : tellingOutcome env (entry node) p.world with f | ⟨⟩ <;> rw [htelling] at hrun
    · cases hrun
    · by_cases hfull : r.maxActions ≤ p.actions
      · simp only [if_pos hfull] at hrun
        cases hrun
      · simp only [if_neg hfull] at hrun
        rcases hperform : (perform env r.context node).runOn (counted (told env (entry node) p))
          with ⟨f | ⟨⟨⟩⟩, q'⟩ <;> rw [hperform] at hrun <;> cases hrun
        obtain ⟨hexecuted, hactions⟩ := perform_settled r.context hperform
        rw [hexecuted, hactions, h]
  · have hkept := (counts_stepInvariant env r isAction (Engine.executedActions p) p.actions).runNode_keeps p
      ⟨rfl, rfl⟩
    rw [hrun] at hkept
    exact hkept.1.trans (h.trans hkept.2.symm)

theorem runNodes_settled {stoppedAt : Option String} (nodes : List Node)
    (h : Engine.executedActions p = p.actions)
    (hrun : (runNodes env r nodes).runOn p = (.ok stoppedAt, q)) :
    Engine.executedActions q = q.actions := by
  induction nodes generalizing p with
  | nil =>
    cases hrun
    exact h
  | cons node rest ih =>
    rw [runOn_runNodes_cons] at hrun
    rcases hnode : (runNode env r node).runOn p with ⟨f | ⟨⟨⟩⟩, q'⟩ <;> rw [hnode] at hrun
    · cases hrun
    · exact ih (runNode_settled h hnode) hrun
    · cases hrun
      exact runNode_settled h hnode

/-- A run that gets a result has told of as many actions as the result says. -/
theorem run_settled {result : RunResult} {w : σ}
    (hrun : (run env r).runOn { world := w } = (.ok result, q)) :
    result.actionsExecuted = Engine.executedActions q := by
  rw [runOn_run] at hrun
  rcases hnodes : (runNodes env r r.workflow.nodes).runOn { world := w } with ⟨f | stoppedAt, q'⟩ <;>
    rw [hnodes] at hrun <;> cases hrun
  rw [runNodes_settled r.workflow.nodes rfl hnodes]

end Cadence.Workflow.Runtime
