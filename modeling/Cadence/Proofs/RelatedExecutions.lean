import Cadence.Proofs.TracedRuns
import Cadence.Workflow.Engine

/-!
# Executions from related states

A relation of states that each part of an engine respects is respected by what the engine does with them: from
related states two executions of one request end alike, and leave related states.
-/

namespace Cadence.Workflow

variable {σ : Type} {R : σ → σ → Prop}

/-- Two runs have done the same, and left related states. -/
structure Progress.Related (R : σ → σ → Prop) (p q : Progress σ) : Prop where
  world : R p.world q.world
  events : p.events = q.events
  sleeps : p.sleeps = q.sleeps
  actions : p.actions = q.actions

namespace Engine

/-- Each part of the engine, and the hook, ends alike on related states. -/
structure Respects (R : σ → σ → Prop) (e : Engine σ) (hook : Event → Task σ Unit) : Prop where
  clock : ∀ s s', R s s' → e.clock s = e.clock s'
  dispatch : ∀ node context, Task.Agrees R (e.dispatch node context) (e.dispatch node context)
  sleep : ∀ seconds, Task.Agrees R (e.sleep seconds) (e.sleep seconds)
  start : ∀ s, Task.Agrees R (e.recorder.start s) (e.recorder.start s)
  record : ∀ id level type payload,
    Task.Agrees R (e.recorder.record id level type payload) (e.recorder.record id level type payload)
  finish : ∀ id ending, Task.Agrees R (e.recorder.finish id ending) (e.recorder.finish id ending)
  freshId : Task.Agrees R e.freshId e.freshId
  putLogContext : ∀ fields s s', R s s' → R (e.putLogContext fields s) (e.putLogContext fields s')
  addLogContext : ∀ fields s s', R s s' → R (e.addLogContext fields s) (e.addLogContext fields s')
  hook : ∀ event, Task.Agrees R (hook event) (hook event)

section Respects
variable {e : Engine σ} {hook : Event → Task σ Unit} (h : Respects R e hook) (r : RunRequest)
include h

theorem Respects.telling (event : Event) :
    Task.Agrees R ((e.surroundings r hook).hook event) ((e.surroundings r hook).hook event) :=
  (h.record _ _ _ _).bind fun _ => h.hook event

theorem Respects.sameSteps :
    Runtime.SameSteps (e.surroundings r hook) (e.surroundings r hook) (Progress.Related R) where
  clock p q hpq := h.clock _ _ hpq.world
  told event p q hpq := by
    obtain ⟨houtcome, hleft⟩ := h.telling r event _ _ hpq.world
    refine ⟨?_, { hpq with world := hleft, events := congrArg (· ++ [event]) hpq.events }⟩
    unfold Runtime.tellingOutcome
    rw [houtcome]
  slept seconds p q hpq := by
    obtain ⟨houtcome, hleft⟩ := h.sleep seconds _ _ hpq.world
    exact ⟨houtcome, { hpq with world := hleft, sleeps := congrArg (· ++ [seconds]) hpq.sleeps }⟩
  counted p q hpq := { hpq with actions := congrArg (· + 1) hpq.actions }
  acted node context p q hpq := by
    obtain ⟨houtcome, hleft⟩ := h.dispatch node context _ _ hpq.world
    exact ⟨houtcome, { hpq with world := hleft }⟩
  actions _ _ hpq := hpq.actions

theorem Respects.attemptRun {s s' : σ} (hs : R s s') :
    (e.attemptRun r hook s).1 = (e.attemptRun r hook s').1 ∧
      Progress.Related R (e.attemptRun r hook s).2 (e.attemptRun r hook s').2 := by
  have hstart : Progress.Related R { world := s } { world := s' } := ⟨hs, rfl, rfl, rfl⟩
  unfold Engine.attemptRun
  split
  · exact ⟨rfl, hstart⟩
  · exact (h.sameSteps r).run_agrees r _ _ hstart

variable (id : String) (executed : Nat)

theorem Respects.recordFailure (code message : String) :
    Task.Agrees R (e.recordFailure id code message executed) (e.recordFailure id code message executed) := by
  have hrecording := (h.record id .error EventKind.failed.label
    [("errorCode", .str code), ("message", .str message)]).bind fun _ => h.finish id
      { status := .failed, actionsExecuted := executed, errorCode := some code, errorMessage := some message }
  refine hrecording.attempt.bind fun outcome => ?_
  rcases outcome with fault | ⟨⟩
  · cases fault with
    | failure _ => exact Task.Agrees.pure _
    | _ => exact Task.Agrees.throw _
  · exact Task.Agrees.pure _

theorem Respects.fail {α : Type} (f : Failure) :
    Task.Agrees R (e.fail id f executed : Task σ α) (e.fail id f executed) := by
  unfold Engine.fail
  cases clashingField? f.context with
  | some name => exact Task.Agrees.throw _
  | none => exact (h.recordFailure id executed _ _).bind fun _ => Task.Agrees.throw _

theorem Respects.conclude (outcome : Outcome RunResult) :
    Task.Agrees R (e.conclude id executed outcome) (e.conclude id executed outcome) := by
  have hplain (fault : Fault) := (Task.Agrees.lift (R := R) fault.text).bind fun message =>
    (h.recordFailure id executed "internal_error" message).bind fun _ =>
      Task.Agrees.throw (R := R) (α := RunResult) fault
  have htimeout : Task.Agrees R
      (do e.fail id (.executionTimeout (.str id) e.timeLimitJson (e.clock (← get))) executed : Task σ RunResult)
      (do e.fail id (.executionTimeout (.str id) e.timeLimitJson (e.clock (← get))) executed) := by
    refine Task.Agrees.get_bind fun s s' hs => ?_
    rw [h.clock s s' hs]
    exact h.fail id executed _
  rcases outcome with fault | result
  · cases fault with
    | failure f => exact h.fail id executed f
    | elapsed | timeout _ => exact htimeout
    | cancelled _ => exact Task.Agrees.throw _
    | _ => exact hplain _
  · exact (h.finish id _).bind fun _ => Task.Agrees.pure _

theorem Respects.runAndRecord : Task.Agrees R (e.runAndRecord r hook) (e.runAndRecord r hook) := by
  refine Task.Agrees.get_bind fun s s' hs => ?_
  have hrun := h.attemptRun r hs
  rcases hp : e.attemptRun r hook s with ⟨outcome, p⟩
  rcases hq : e.attemptRun r hook s' with ⟨outcome', q⟩
  rw [hp, hq] at hrun
  obtain ⟨rfl, hprogress⟩ : outcome = outcome' ∧ Progress.Related R p q := hrun
  have hexecuted : executedActions p = executedActions q := by
    unfold executedActions
    rw [hprogress.events]
  have hset : Task.Agrees R (set p.world) (set q.world) := fun _ _ _ => ⟨rfl, hprogress.world⟩
  dsimp only
  rw [hexecuted]
  exact hset.bind fun _ => h.conclude r.executionId _ _

/-- From related states the executions of a request end alike, and leave related states. -/
theorem Respects.execute : Task.Agrees R (e.execute r hook) (e.execute r hook) := by
  unfold Engine.execute
  have hadd : Task.Agrees R (modify (e.addLogContext [("execution_id", .str r.executionId),
      ("tenant_id", .str r.tenantId), ("client_id", .str r.clientId)])) (modify (e.addLogContext
        [("execution_id", .str r.executionId), ("tenant_id", .str r.tenantId), ("client_id", .str r.clientId)])) :=
    fun s s' hs => ⟨rfl, h.addLogContext _ s s' hs⟩
  have hput : Task.Agrees R (modify (e.putLogContext [])) (modify (e.putLogContext [])) :=
    fun s s' hs => ⟨rfl, h.putLogContext _ s s' hs⟩
  refine hadd.bind fun _ => ?_
  refine ((h.start _).bind fun _ => h.runAndRecord r).attempt.bind fun outcome => ?_
  exact hput.bind fun _ => Task.Agrees.lift outcome

theorem Respects.submit (s : Submission) : Task.Agrees R (e.submit s hook) (e.submit s hook) := by
  have hrequest : Task.Agrees R (e.request s) (e.request s) := by
    unfold Engine.request
    by_cases hgiven : s.executionId.isGiven = true
    · rw [if_pos hgiven]
      exact (Task.Agrees.pure _).bind fun _ => Task.Agrees.lift _
    · rw [if_neg hgiven]
      have hdrawn : Task.Agrees R (Json.str <$> e.freshId) (Json.str <$> e.freshId) :=
        h.freshId.bind fun id => Task.Agrees.pure (Json.str id)
      exact hdrawn.bind fun _ => Task.Agrees.lift _
  exact hrequest.bind fun r => h.execute r

end Respects

end Engine

end Cadence.Workflow
