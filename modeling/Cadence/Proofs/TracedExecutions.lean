import Cadence.Proofs.RecordedRuns
import Cadence.Proofs.TracedRuns

/-!
# Executions with a trace of their dispatches

An execution does more than its run: it opens the record before, and concludes it after. The engine is traced as
runs are, by a list that is kept beside the state. The trace changes nothing about an execution, and holds what
its run dispatches, or nothing where the record cannot be opened.
-/

namespace Cadence.Workflow

namespace Traced

variable {σ α β : Type}

theorem runOn_within (t : Task σ α) (s : Traced σ) :
    (within t).runOn s = ((t.runOn s.world).1, { s with world := (t.runOn s.world).2 }) := rfl

theorem within_bind (t : Task σ α) (f : α → Task σ β) :
    within (t >>= f) = within t >>= fun a => within (f a) := by
  funext s
  show (within (t >>= f)).runOn s = (within t >>= fun a => within (f a)).runOn s
  rcases h : t.runOn s.world with ⟨e | a, w⟩
  · have hwithin : (within t).runOn s = (.error e, { s with world := w }) := by rw [runOn_within, h]
    rw [Task.runOn_bind_error hwithin, runOn_within, Task.runOn_bind_error h]
  · have hwithin : (within t).runOn s = (.ok a, { s with world := w }) := by rw [runOn_within, h]
    rw [Task.runOn_bind_ok hwithin, runOn_within, runOn_within, Task.runOn_bind_ok h]

theorem within_attempt (t : Task σ α) : within t.attempt = (within t).attempt := rfl

end Traced

namespace Engine

variable {σ : Type}

def tracedRecorder (r : Recorder σ) : Recorder (Traced σ) where
  start s := Traced.within (r.start s)
  record id level type payload := Traced.within (r.record id level type payload)
  finish id e := Traced.within (r.finish id e)

/-- The engine that notes every dispatch before it is made. -/
def traced (e : Engine σ) : Engine (Traced σ) where
  clock s := e.clock s.world
  dispatch node context := do
    modify fun s => { s with dispatches := s.dispatches ++ [⟨s.world, node, context⟩] }
    Traced.within (e.dispatch node context)
  sleep seconds := Traced.within (e.sleep seconds)
  recorder := tracedRecorder e.recorder
  freshId := Traced.within e.freshId
  putLogContext fields s := { s with world := e.putLogContext fields s.world }
  addLogContext fields s := { s with world := e.addLogContext fields s.world }
  defaultMaxActions := e.defaultMaxActions
  timeLimit := e.timeLimit

/-- The execution of a request with a trace of its dispatches. -/
def tracedExecute (e : Engine σ) (r : RunRequest) (hook : Event → Task σ Unit) (w : σ) :
    Outcome RunResult × Traced σ :=
  (e.traced.execute r fun event => Traced.within (hook event)).runOn { world := w }

/-- The calls of handlers that an execution makes, with what each handler is told about the run. A dispatch makes
none if the name of its action has no text. -/
def calls (e : Engine σ) (r : RunRequest) (hook : Event → Task σ Unit) (w : σ) : List (ActionCall × RunContext) :=
  (e.tracedExecute r hook w).2.dispatches.filterMap Dispatch.call?

variable (e : Engine σ) (r : RunRequest) (hook : Event → Task σ Unit) (w : σ)

theorem traced_surroundings :
    e.traced.surroundings r (fun event => Traced.within (hook event)) = (e.surroundings r hook).traced := by
  have hhook (event : Event) : (do
      let _ ← Traced.within (e.recorder.record r.executionId event.level event.kind.label event.payload)
      Traced.within (hook event) : Task (Traced σ) Unit) =
      Traced.within ((e.surroundings r hook).hook event) := (Traced.within_bind _ _).symm
  show Surroundings.mk _ _ _ _ = Surroundings.mk _ _ _ _
  congr 1
  funext event
  exact hhook event

theorem traced_recordFailure (id code message : String) (executed : Nat) :
    e.traced.recordFailure id code message executed =
      Traced.within (e.recordFailure id code message executed) := by
  unfold recordFailure
  dsimp only
  rw [Traced.within_bind, Traced.within_attempt, Traced.within_bind]
  refine congrArg _ (funext fun outcome => ?_)
  rcases outcome with fault | ⟨⟩
  · cases fault <;> rfl
  · rfl

theorem traced_fail {α : Type} (id : String) (f : Failure) (executed : Nat) :
    (e.traced.fail id f executed : Task (Traced σ) α) = Traced.within (e.fail id f executed) := by
  unfold fail
  cases clashingField? f.context with
  | some name => rfl
  | none =>
    have hrecord := traced_recordFailure e id f.code f.message executed
    show (e.traced.recordFailure id f.code f.message executed >>= fun _ => throw (.failure f)) =
      Traced.within (e.recordFailure id f.code f.message executed >>= fun _ => throw (.failure f))
    rw [Traced.within_bind, hrecord]
    rfl

theorem traced_conclude (id : String) (executed : Nat) (o : Outcome RunResult) :
    e.traced.conclude id executed o = Traced.within (e.conclude id executed o) := by
  have hrecorded (fault : Fault) (message : String) :
      (e.traced.recordFailure id "internal_error" message executed >>= fun _ =>
        (throw fault : Task (Traced σ) RunResult)) =
      Traced.within (e.recordFailure id "internal_error" message executed >>= fun _ => throw fault) := by
    rw [Traced.within_bind, traced_recordFailure]
    rfl
  have hplain (fault : Fault) : (do
        let message ← fault.text
        e.traced.recordFailure id "internal_error" message executed
        throw fault : Task (Traced σ) RunResult) =
      Traced.within (do
        let message ← fault.text
        e.recordFailure id "internal_error" message executed
        throw fault) := by
    rw [Traced.within_bind]
    exact congrArg (Task.ofOutcome fault.text >>= ·) (funext fun message => hrecorded fault message)
  have htimeout : (do
        let now := e.traced.clock (← get)
        e.traced.fail id (.executionTimeout (.str id) e.traced.timeLimitJson now) executed :
        Task (Traced σ) RunResult) =
      Traced.within (do
        let now := e.clock (← get)
        e.fail id (.executionTimeout (.str id) e.timeLimitJson now) executed) := by
    rw [Traced.within_bind]
    funext s
    have hfail := traced_fail (α := RunResult) e id
      (.executionTimeout (.str id) e.timeLimitJson (e.clock s.world)) executed
    exact congrFun hfail s
  rcases o with fault | result
  · cases fault with
    | failure f => exact traced_fail e id f executed
    | elapsed | timeout _ => exact htimeout
    | cancelled _ => rfl
    | _ => exact hplain _
  · exact (Traced.within_bind (e.recorder.finish id _) fun _ => pure result).symm

theorem traced_opening :
    e.traced.opening r { world := w } = ((e.opening r w).1, { world := (e.opening r w).2 }) := rfl

theorem traced_attempted :
    (e.traced.attempted r (fun event => Traced.within (hook event)) { world := w }).1 = (e.attempted r hook w).1 ∧
      (e.traced.attempted r (fun event => Traced.within (hook event)) { world := w }).2.untraced =
        (e.attempted r hook w).2 := by
  unfold attempted
  rw [traced_opening]
  unfold attemptRun
  rw [traced_surroundings]
  by_cases hexpired : e.isExpired
  · have hexpired' : e.traced.isExpired := hexpired
    rw [if_pos hexpired, if_pos hexpired']
    exact ⟨rfl, rfl⟩
  · have hexpired' : ¬e.traced.isExpired := hexpired
    rw [if_neg hexpired, if_neg hexpired']
    have hrun := Runtime.tracedRun_untraced (e.surroundings r hook) r (e.opening r w).2
    exact ⟨congrArg Prod.fst hrun, congrArg Prod.snd hrun⟩

theorem traced_concluded :
    e.traced.concluded r (fun event => Traced.within (hook event)) { world := w } =
      ((e.concluded r hook w).1, ⟨(e.concluded r hook w).2,
        (e.traced.attempted r (fun event => Traced.within (hook event)) { world := w }).2.world.dispatches⟩) := by
  obtain ⟨houtcome, hprogress⟩ := traced_attempted e r hook w
  unfold concluded
  rw [traced_conclude, Traced.runOn_within, houtcome, ← hprogress]
  rfl

/-- The trace changes nothing about an execution. -/
theorem tracedExecute_untraced :
    ((e.tracedExecute r hook w).1, (e.tracedExecute r hook w).2.world) = (e.execute r hook).runOn w := by
  unfold tracedExecute
  rw [runOn_execute, runOn_execute, traced_opening, traced_concluded]
  rcases (e.opening r w).1 with f | ⟨⟩ <;> rfl

/-- An execution makes the dispatches of its run, or none if its record cannot be opened. -/
theorem calls_eq :
    e.calls r hook w =
      match (e.opening r w).1 with
      | .ok () =>
        if e.isExpired then []
        else (Runtime.dispatches (e.surroundings r hook) r (e.opening r w).2).filterMap Dispatch.call?
      | .error _ => [] := by
  have hmade : (e.traced.attempted r (fun event => Traced.within (hook event)) { world := w }).2.world.dispatches =
      if e.isExpired then [] else Runtime.dispatches (e.surroundings r hook) r (e.opening r w).2 := by
    unfold attempted attemptRun
    rw [traced_opening, traced_surroundings]
    by_cases hexpired : e.isExpired
    · have hexpired' : e.traced.isExpired := hexpired
      rw [if_pos hexpired, if_pos hexpired']
    · have hexpired' : ¬e.traced.isExpired := hexpired
      rw [if_neg hexpired, if_neg hexpired']
      rfl
  unfold calls tracedExecute
  rw [runOn_execute, traced_opening, traced_concluded, hmade]
  rcases (e.opening r w).1 with f | ⟨⟩
  · rfl
  · by_cases hexpired : e.isExpired
    · simp only [if_pos hexpired]
      rfl
    · simp only [if_neg hexpired]
      rfl

end Engine

end Cadence.Workflow
