import Cadence.Proofs.ActionCap

/-!
# Runs that are watched

A hook is told every event of a run. It sees the state of the run, and acts on a memory of its own, from which
it may choose how to fail the next time. As long as each of its faults can be logged and dropped, the run is the
one that no hook watches: forgetting the memory relates the two runs at each of their changes.
-/

namespace Cadence.Workflow

variable {σ τ α : Type}

/-- A state, with what a hook remembers of the events before it. -/
structure Watched (σ τ : Type) where
  world : σ
  memory : τ

namespace Watched

def within (t : Task σ α) : Task (Watched σ τ) α :=
  Task.focus (·.world) (fun s world => { s with world := world }) t

def remember (t : σ → Task τ α) : Task (Watched σ τ) α := do
  let world := (← get).world
  Task.focus (·.memory) (fun s memory => { s with memory := memory }) (t world)

theorem runOn_remember (t : σ → Task τ α) (s : Watched σ τ) :
    (remember t).runOn s = (((t s.world).runOn s.memory).1, ⟨s.world, ((t s.world).runOn s.memory).2⟩) := by
  unfold remember
  rw [Task.runOn_bind_ok (Task.runOn_get s)]
  rfl

end Watched

/-- However the hook fails, it is by a fault that has a text and is no order to stop. -/
def OnlyFails (hook : Event → σ → Task τ Unit) : Prop :=
  ∀ e world memory fault, ((hook e world).runOn memory).1 = .error fault → fault.Loggable

namespace Surroundings

/-- The surroundings with a hook that only looks at the state. -/
def watchedBy (env : Surroundings σ) (hook : Event → σ → Task τ Unit) : Surroundings (Watched σ τ) where
  clock s := env.clock s.world
  dispatch node context := Watched.within (env.dispatch node context)
  sleep seconds := Watched.within (env.sleep seconds)
  hook e := Watched.remember (hook e)

def unwatched (env : Surroundings σ) : Surroundings σ := { env with hook := fun _ => return () }

end Surroundings

def Dispatch.unwatched (d : Dispatch (Watched σ τ)) : Dispatch σ := ⟨d.before.world, d.node, d.context⟩

/-- The progress of a run that keeps a trace, without what the hook remembers. -/
def Progress.unwatched (p : Progress (Traced (Watched σ τ))) : Progress (Traced σ) where
  world := ⟨p.world.world.world, p.world.dispatches.map Dispatch.unwatched⟩
  events := p.events
  sleeps := p.sleeps
  actions := p.actions

namespace Runtime

variable {env : Surroundings σ} {hook : Event → σ → Task τ Unit}

section Hooks
variable (h : OnlyFails hook)
include h

theorem neverInterrupts_watchedBy : (env.watchedBy hook).traced.NeverInterrupts := by
  intro e s fault hfault
  refine h e s.world.world s.world.memory fault ?_
  have hhook := Watched.runOn_remember (hook e) s.world
  rw [← hfault]
  exact (congrArg Prod.fst hhook).symm

theorem tellingOutcome_watchedBy (e : Event) (s : Traced (Watched σ τ)) (w : Traced σ) :
    tellingOutcome (env.watchedBy hook).traced e s = tellingOutcome env.unwatched.traced e w := by
  rw [tellingOutcome_of_neverInterrupts (neverInterrupts_watchedBy h)]
  rfl

end Hooks

theorem told_watchedBy (e : Event) (p : Progress (Traced (Watched σ τ))) :
    (told (env.watchedBy hook).traced e p).unwatched = told env.unwatched.traced e p.unwatched := by
  have hhook := Watched.runOn_remember (hook e) p.world.world
  have hworld : ((Watched.remember (hook e)).runOn p.world.world).2.world = p.world.world.world := by
    rw [hhook]
  show (⟨⟨((Watched.remember (hook e)).runOn p.world.world).2.world, _⟩, _, _, _⟩ : Progress (Traced σ)) = _
  rw [hworld]
  rfl

theorem acted_watchedBy (node : Node) (context : RunContext) (p : Progress (Traced (Watched σ τ))) :
    (acted (env.watchedBy hook).traced node context p).unwatched =
      acted env.unwatched.traced node context p.unwatched := by
  have hnoted (d : Dispatch (Watched σ τ)) :
      (p.world.dispatches ++ [d]).map Dispatch.unwatched =
        p.world.dispatches.map Dispatch.unwatched ++ [d.unwatched] := List.map_append
  show (⟨⟨_, (p.world.dispatches ++ [_]).map Dispatch.unwatched⟩, _, _, _⟩ : Progress (Traced σ)) = _
  rw [hnoted]
  rfl

theorem watchedBy_sameSteps (h : OnlyFails hook) :
    SameSteps (env.watchedBy hook).traced env.unwatched.traced (fun p q => p.unwatched = q) where
  clock := by
    rintro p _ rfl
    rfl
  told := by
    rintro e p _ rfl
    exact ⟨tellingOutcome_watchedBy h e p.world p.unwatched.world, told_watchedBy e p⟩
  slept := by
    rintro seconds p _ rfl
    exact ⟨rfl, rfl⟩
  counted := by
    rintro p _ rfl
    rfl
  acted := by
    rintro node context p _ rfl
    exact ⟨rfl, acted_watchedBy node context p⟩
  actions := by
    rintro p _ rfl
    rfl

/-- A hook that may fail on any event, by any fault that has a text and is no order to stop, has no influence on the
run: it has the outcome, the events, the sleeps, the dispatches and the last state of the run that no hook
watches. -/
theorem run_watched (env : Surroundings σ) (hook : Event → σ → Task τ Unit) (r : RunRequest) (world : σ)
    (memory : τ) (h : OnlyFails hook) :
    let watched := (run (env.watchedBy hook) r).runOn { world := ⟨world, memory⟩ }
    let plain := (run env.unwatched r).runOn { world }
    watched.1 = plain.1 ∧
      watched.2.events = plain.2.events ∧
      watched.2.sleeps = plain.2.sleeps ∧
      watched.2.world.world = plain.2.world ∧
      (dispatches (env.watchedBy hook) r ⟨world, memory⟩).map Dispatch.unwatched =
        dispatches env.unwatched r world := by
  intro watched plain
  have hwatched : watched = _ := run_eq_traced (env.watchedBy hook) r ⟨world, memory⟩
  have hplain : plain = _ := run_eq_traced env.unwatched r world
  obtain ⟨houtcome, hprogress⟩ :=
    (watchedBy_sameSteps h).run_agrees r { world := { world := ⟨world, memory⟩ } } { world := { world } } rfl
  have htraced : (tracedRun (env.watchedBy hook) r ⟨world, memory⟩).2.unwatched =
      (tracedRun env.unwatched r world).2 := hprogress
  rw [hwatched, hplain]
  refine ⟨houtcome, ?_, ?_, ?_, ?_⟩
  · exact congrArg Progress.events htraced
  · exact congrArg Progress.sleeps htraced
  · exact congrArg (·.world.world) htraced
  · exact congrArg (·.world.dispatches) htraced

/-- Fails on every second event. -/
def faltering : Event → Nat → Task Nat Unit := fun _ _ => do
  let seen ← get
  modify (· + 1)
  if seen % 2 = 0 then throw (.other "RuntimeError" "sink unavailable")

theorem onlyFails_faltering : OnlyFails faltering := by
  intro e world memory fault hfault
  have hrun : ((faltering e world).runOn memory).1 =
      if memory % 2 = 0 then .error (.other "RuntimeError" "sink unavailable") else .ok () := by
    unfold faltering
    rw [Task.runOn_bind_ok (Task.runOn_get memory), Task.runOn_bind_ok (Task.runOn_modify _ memory)]
    split <;> rfl
  rw [hrun] at hfault
  split at hfault
  · cases hfault
    exact ⟨rfl, _, rfl⟩
  · cases hfault

theorem run_watched_faltering :
    let watched := (run (counting.watchedBy faltering) twoActions).runOn { world := ⟨0, 0⟩ }
    OnlyFails faltering ∧
      watched.2.world.memory = 3 ∧
      watched.1 = ((run counting.unwatched twoActions).runOn { world := 0 }).1 := by
  intro watched
  obtain ⟨houtcome, -⟩ := run_watched counting faltering twoActions 0 0 onlyFails_faltering
  exact ⟨onlyFails_faltering, rfl, houtcome⟩

/-- Fails on every event, by a fault of which there is no text. -/
def unreadable : Event → Nat → Task Unit Unit := fun _ _ => throw .textless

/-- A fault of the hook that has no text ends the run at its first event. -/
theorem run_ended_by_unreadable :
    let plenty := { twoActions with maxActions := 2 }
    let watched := (run (counting.watchedBy unreadable) plenty).runOn { world := ⟨0, ()⟩ }
    let plain := (run counting.unwatched plenty).runOn { world := 0 }
    (watched.1 = .error (.other "ValueError" Fault.integerTooLong.message) ∧
        watched.2.events.map (·.kind) = [.nodeEnter]) ∧
      plain.1 = .ok ⟨"run", .completed, 2, none⟩ :=
  ⟨⟨rfl, rfl⟩, rfl⟩

end Runtime

end Cadence.Workflow
