import Cadence.Proofs.ActionFaults
import Cadence.Proofs.DefaultActions
import Cadence.Proofs.RefusedWrites
import Cadence.Proofs.RelatedActions
import Cadence.Proofs.RunEnding
import Cadence.Proofs.TracedExecutions

/-!
# Executions whose writes are refused

A run does not see whether what is recorded of it is refused. So an execution with refused writes calls the actions
that it calls otherwise, with the same answers, and it returns a result only if the end of the run was written.
-/

namespace Cadence

open Workflow Storage

namespace World

variable {α μ β : Type}

/-- The world without the log of runs, and without the memory that a hook keeps beside the state of the actions. -/
def unlogged (w : World (α × μ)) : World α where
  now := w.now
  sources := w.sources
  line := w.line
  custom := w.custom.1
  database := w.database.unlogged
  noncesDrawn := w.noncesDrawn
  identifiersDrawn := w.identifiersDrawn
  logContext := w.logContext

/-- The worlds differ in the log of runs and in the memory of a hook at most. -/
def Beside (w w' : World (α × μ)) : Prop := w.unlogged = w'.unlogged

section Beside
variable {w w' : World (α × μ)}

theorem Beside.eq (h : Beside w w') : w.unlogged = w'.unlogged := h

theorem beside_oneTime : OneTime (Beside : World (α × μ) → World (α × μ) → Prop) := fun _ _ h =>
  congrArg (fun v => v.now) h.eq

theorem Beside.line (h : Beside w w') : w.line = w'.line := congrArg (fun v => v.line) h.eq

/-- The credentials are not among what may differ. -/
theorem Beside.newest (h : Beside w w') :
    Option.Rel (fun t t' => ∀ key, Option.Rel Eq (newestOf key t.credentials) (newestOf key t'.credentials))
      w.database.tables w'.database.tables := by
  have htables : w.database.tables.map Tables.unlogged = w'.database.tables.map Tables.unlogged :=
    congrArg (fun v => v.database.tables) h.eq
  rcases ht : w.database.tables with _ | t <;> rcases ht' : w'.database.tables with _ | t' <;>
    rw [ht, ht'] at htables
  · exact .none
  · cases htables
  · cases htables
  · have hrows : t.credentials = t'.credentials := congrArg (·.credentials) (Option.some.inj htables)
    refine .some fun key => ?_
    rw [hrows]
    cases newestOf key t'.credentials with
    | none => exact .none
    | some row => exact .some rfl

theorem overLine_beside (t : Task Provider.Line β) :
    Task.Agrees Beside (overLine t : Task (World (α × μ)) β) (overLine t) := by
  intro w w' hw
  show (t.runOn w.line).1 = (t.runOn w'.line).1 ∧ Beside { w with line := (t.runOn w.line).2 }
    { w' with line := (t.runOn w'.line).2 }
  rw [hw.line]
  have hsent := congrArg (fun v => { v with line := (t.runOn w'.line).2 }) hw.eq
  exact ⟨rfl, hsent⟩

end Beside

end World

namespace Action

variable {α μ : Type} {services : WhatsApp.Services}

theorem beside_sameSends :
    SameSends (World.Beside : World (α × μ) → World (α × μ) → Prop) Eq Eq services where
  oneTime := World.beside_oneTime
  current := World.current_couples World.beside_oneTime fun _ _ hw => hw.newest
  opens := by
    rintro row _ now rfl
    exact Task.alike_eq_iff.mpr rfl
  request := by
    rintro token _ phone m rfl
    exact (World.overLine_beside _).attempt

end Action

/-! ### Progress without the log -/

theorem Workflow.Runtime.runOn_traced_dispatch {σ : Type} (env : Surroundings σ) (node : Node)
    (context : RunContext) (s : Traced σ) :
    (env.traced.dispatch node context).runOn s =
      (((env.dispatch node context).runOn s.world).1,
        ⟨((env.dispatch node context).runOn s.world).2, s.dispatches ++ [⟨s.world, node, context⟩]⟩) := rfl

def Workflow.Dispatch.unlogged {α μ : Type} (d : Dispatch (World (α × μ))) : Dispatch (World α) :=
  ⟨d.before.unlogged, d.node, d.context⟩

/-- The two runs have done the same, and left worlds that differ in the log of runs at most. -/
structure Workflow.Progress.Beside {α μ : Type} (p q : Progress (Traced (World (α × μ)))) : Prop where
  world : p.world.world.Beside q.world.world
  dispatches : p.world.dispatches.map Dispatch.unlogged = q.world.dispatches.map Dispatch.unlogged
  events : p.events = q.events
  sleeps : p.sleeps = q.sleeps
  actions : p.actions = q.actions

/-! ### Engines -/

namespace Application

/-- The engine of an application whose log of runs refuses some writes. -/
def engineRefusing {α : Type} (app : Application α) (refusals : Refusals) (limit : Option Numeral)
    (sleep : Binary64 → Task (World α) Unit) : Engine (World α) :=
  { app.engineWithin limit sleep with recorder := refusing refusals }

theorem engineRefusing_none {α : Type} (app : Application α) (limit : Option Numeral)
    (sleep : Binary64 → Task (World α) Unit) :
    app.engineRefusing (fun _ => none) limit sleep = app.engineWithin limit sleep := by
  unfold engineRefusing
  rw [refusing_none]
  rfl

variable {α μ : Type}

/-- The code around a run neither looks at the log of runs nor writes to the record of the run. A hook may keep a
memory of its own, and may fail, but it does not hold up the run. -/
structure Unaware (app : Application (α × μ)) (sleep : Binary64 → Task (World (α × μ)) Unit)
    (hook : Event → Task (World (α × μ)) Unit) (id : String) : Prop where
  undisturbed : Undisturbed app sleep hook id
  actionsBlind : ∀ entry ∈ app.registry.entries, ∀ call context,
    Task.Agrees World.Beside (entry.run call context) (entry.run call context)
  sleepBlind : ∀ seconds, Task.Agrees World.Beside (sleep seconds) (sleep seconds)
  hookApart : ∀ event w, ((hook event).runOn w).2.Beside w
  hookFails : ∀ event w fault, ((hook event).runOn w).1 = .error fault → fault.Loggable

variable {app : Application (α × μ)} {limit : Option Numeral} {sleep : Binary64 → Task (World (α × μ)) Unit}
  {hook : Event → Task (World (α × μ)) Unit} {r : RunRequest} {w : World (α × μ)} {refusals : Refusals}

theorem refusing_dispatch {α : Type} (app : Application α) (refusals : Refusals) (limit : Option Numeral)
    (sleep : Binary64 → Task (World α) Unit) (r : RunRequest) (hook : Event → Task (World α) Unit) :
    ((app.engineRefusing refusals limit sleep).surroundings r hook).dispatch =
      (app.registry.dispatch (·.now)).onNode := rfl

theorem record_beside (refusals : Refusals) (id : String) (level : EventLevel) (type : String) (payload : Members)
    (w : World (α × μ)) : (((refusing refusals).record id level type payload).runOn w).2.Beside w := by
  have hlog := RunLog.record_unlogged refusals id w.now w.database level type payload
  show World.unlogged (Task.runOn (World.store _) w).2 = w.unlogged
  rw [World.runOn_store]
  exact congrArg (fun db => { w.unlogged with database := db }) hlog

/-- A record that is opened is opened as if nothing were refused. -/
theorem opening_refusing (hopen : ((app.engineRefusing refusals limit sleep).opening r w).1 = .ok ()) :
    refusals .start = none ∧
      (app.engineRefusing refusals limit sleep).opening r w = (app.engineWithin limit sleep).opening r w := by
  obtain ⟨w', hopening⟩ : ∃ w', ∀ refusals, (app.engineRefusing refusals limit sleep).opening r w =
      (World.store (RunLog.startUnless refusals (Engine.startOf r))).runOn w' := ⟨_, fun _ => rfl⟩
  rw [← engineRefusing_none]
  rw [hopening] at hopen ⊢
  rw [hopening]
  cases hrefusal : refusals .start with
  | none =>
    rw [RunLog.startUnless_none hrefusal, RunLog.startUnless_none rfl]
    exact ⟨rfl, rfl⟩
  | some refusal =>
    obtain ⟨f, hf⟩ := RunLog.startUnless_some hrefusal (Engine.startOf r) w'.now
    rw [World.runOn_store, hf] at hopen
    cases hopen

/-- What is told is recorded first, and each fault of the recording can be logged and dropped. -/
theorem telling_neverInterrupts {α : Type} (app : Application α) (refusals : Refusals) (limit : Option Numeral)
    (sleep : Binary64 → Task (World α) Unit) (r : RunRequest) {hook : Event → Task (World α) Unit}
    (hhook : ∀ event w fault, ((hook event).runOn w).1 = .error fault → fault.Loggable) :
    ((app.engineRefusing refusals limit sleep).surroundings r hook).NeverInterrupts := by
  intro event w fault htold
  change ((((refusing refusals).record r.executionId event.level event.kind.label event.payload >>=
    fun _ => hook event)).runOn w).1 = .error fault at htold
  rcases hrun : ((refusing refusals).record r.executionId event.level event.kind.label event.payload).runOn w
    with ⟨refused | number, w'⟩
  · rw [Task.runOn_bind_error hrun] at htold
    cases htold
    have hrecord : ((RunLog.recordUnless refusals r.executionId event.level event.kind.label event.payload
        w.now).runOn w.database).1 = .error fault := by
      have hstore := congrArg Prod.fst hrun
      exact hstore
    rcases RunLog.record_fault refusals hrecord with ⟨f, rfl⟩ | ⟨-, rfl⟩ <;> exact ⟨rfl, _, rfl⟩
  · rw [Task.runOn_bind_ok hrun] at htold
    exact hhook event w' fault htold

section Unaware
variable (h : Unaware app sleep hook r.executionId)
include h

variable (limit refusals) in
theorem telling_beside (event : Event) (w : World (α × μ)) :
    ((((app.engineRefusing refusals limit sleep).surroundings r hook).hook event).runOn w).2.Beside w := by
  have hrecord := record_beside refusals r.executionId event.level event.kind.label event.payload w
  show ((((refusing refusals).record r.executionId event.level event.kind.label event.payload >>=
    fun _ => hook event)).runOn w).2.Beside w
  rcases hrun : ((refusing refusals).record r.executionId event.level event.kind.label event.payload).runOn w with
    ⟨fault | number, w'⟩ <;> rw [hrun] at hrecord
  · rw [Task.runOn_bind_error hrun]
    exact hrecord
  · rw [Task.runOn_bind_ok hrun]
    exact (h.hookApart event w').trans hrecord

theorem telling_row (event : Event) : Task.Keeps (HasRow r.executionId)
    (((app.engineRefusing refusals limit sleep).surroundings r hook).hook event) :=
  Task.Keeps.bind (record_row refusals r.executionId event.level event.kind.label event.payload) fun _ w hw =>
    hw.of_share (h.undisturbed.hook event w)

variable (limit refusals) in
theorem refusing_neverInterrupts :
    ((app.engineRefusing refusals limit sleep).surroundings r hook).traced.NeverInterrupts := by
  intro event s fault hfault
  exact telling_neverInterrupts app refusals limit sleep r h.hookFails event s.world fault hfault

variable (limit) in
theorem refusing_sameSteps (refusals refusals' : Refusals) :
    Runtime.SameSteps ((app.engineRefusing refusals limit sleep).surroundings r hook).traced
      ((app.engineRefusing refusals' limit sleep).surroundings r hook).traced Progress.Beside where
  clock p q hpq := World.beside_oneTime _ _ hpq.world
  told event p q hpq := by
    -- An event is told to the log first, so the hook may hear of it in one run and not in the other.
    have hp := telling_beside limit refusals h event p.world.world
    have hq := telling_beside limit refusals' h event q.world.world
    have houtcome (refusals : Refusals) (s : Traced (World (α × μ))) :=
      Runtime.tellingOutcome_of_neverInterrupts (refusing_neverInterrupts limit refusals h) event s
    refine ⟨(houtcome refusals _).trans (houtcome refusals' _).symm, ?_⟩
    exact { hpq with
      world := (hp.trans hpq.world).trans hq.symm
      events := congrArg (· ++ [event]) hpq.events }
  slept seconds p q hpq := by
    obtain ⟨houtcome, hleft⟩ := h.sleepBlind seconds _ _ hpq.world
    exact ⟨houtcome, { hpq with world := hleft, sleeps := congrArg (· ++ [seconds]) hpq.sleeps }⟩
  counted p q hpq := { hpq with actions := congrArg (· + 1) hpq.actions }
  acted node context p q hpq := by
    obtain ⟨houtcome, hleft⟩ := Action.onNode_agrees
      (Action.dispatch_agrees World.beside_oneTime h.actionsBlind) node context _ _ hpq.world
    have hmade : (⟨p.world.world, node, context⟩ : Dispatch (World (α × μ))).unlogged =
        Dispatch.unlogged ⟨q.world.world, node, context⟩ :=
      congrArg (fun v => Dispatch.mk v node context) hpq.world.eq
    simp only [Runtime.acted, Runtime.runOn_traced_dispatch, refusing_dispatch]
    refine ⟨houtcome, { hpq with world := ?_, dispatches := ?_ }⟩
    · dsimp only
      exact hleft
    · rw [List.map_append, List.map_append, hpq.dispatches, List.map_singleton, List.map_singleton, hmade]
  actions _ _ hpq := hpq.actions

/-- The record of the run is there after the run, whichever of its events were recorded. -/
theorem attempted_row (hopen : ((app.engineRefusing refusals limit sleep).opening r w).1 = .ok ()) :
    HasRow r.executionId ((app.engineRefusing refusals limit sleep).attempted r hook w).2.world := by
  obtain ⟨-, hsame⟩ := opening_refusing hopen
  have hworking : ((app.engineWithin limit sleep).opening r w).1 = .ok () := hsame ▸ hopen
  obtain ⟨sh₀, -, -, hopened⟩ := opening_share hworking
  have hrow : HasRow r.executionId ((app.engineRefusing refusals limit sleep).opening r w).2 := by
    rw [hsame]
    exact ⟨_, hopened, List.cons_ne_nil _ _⟩
  refine Engine.attempted_keeps (I := fun p => HasRow r.executionId p.world) _ r hook w (fun node => ?_) hrow
  exact {
    told := fun event p _ hp => telling_row h event p.world hp
    slept := fun seconds p hp => hp.of_share (h.undisturbed.sleep seconds p.world)
    counted := fun _ p hp => hp
    acted := fun _ p hp => by
      simp only [Runtime.acted, refusing_dispatch]
      exact hp.of_share (onNode_spares (dispatch_spares h.undisturbed.actions) _ _ p.world) }

/-- What the runtime does is the same whichever writes are refused. -/
theorem attempted_refusing (hopen : ((app.engineRefusing refusals limit sleep).opening r w).1 = .ok ()) :
    (app.engineRefusing refusals limit sleep).calls r hook w = (app.engineWithin limit sleep).calls r hook w ∧
      ((app.engineRefusing refusals limit sleep).attempted r hook w).1 =
        ((app.engineWithin limit sleep).attempted r hook w).1 ∧
      ((app.engineRefusing refusals limit sleep).attempted r hook w).2.events =
        ((app.engineWithin limit sleep).attempted r hook w).2.events := by
  obtain ⟨-, hsame⟩ := opening_refusing hopen
  obtain ⟨houtcome, hprogress⟩ := (refusing_sameSteps limit h refusals fun _ => none).run_agrees r
    { world := { world := ((app.engineWithin limit sleep).opening r w).2 } }
    { world := { world := ((app.engineWithin limit sleep).opening r w).2 } } ⟨rfl, rfl, rfl, rfl, rfl⟩
  rw [engineRefusing_none] at houtcome hprogress
  have hplain (e : Engine (World (α × μ))) :=
    Runtime.tracedRun_untraced (e.surroundings r hook) r ((app.engineWithin limit sleep).opening r w).2
  have hexpired : (app.engineRefusing refusals limit sleep).isExpired =
      (app.engineWithin limit sleep).isExpired := rfl
  unfold Engine.attempted Engine.attemptRun
  rw [Engine.calls_eq, Engine.calls_eq, hsame, hexpired]
  by_cases hlimit : (app.engineWithin limit sleep).isExpired
  · simp only [if_pos hlimit, and_self]
  · simp only [if_neg hlimit, ← hplain]
    refine ⟨?_, houtcome, hprogress.events⟩
    have hcalls := congrArg (List.filterMap Dispatch.call?) hprogress.dispatches
    rw [List.filterMap_map, List.filterMap_map] at hcalls
    cases ((app.engineWithin limit sleep).opening r w).1 with
    | error _ => rfl
    | ok _ => exact hcalls

end Unaware

/-! ### The end of an execution -/

section Conclude
variable {α : Type} (app : Application α) (refusals : Refusals) (limit : Option Numeral)
  (sleep : Binary64 → Task (World α) Unit) (id : String) (executed : Nat)

/-- The failure of a run is recorded, or that is given up without a word. -/
theorem recordFailure_returns (code message : String) (w : World α) :
    ∃ w', ((app.engineRefusing refusals limit sleep).recordFailure id code message executed).runOn w =
      (.ok (), w') := by
  have hnode : namedNode? [("errorCode", .str code), ("message", .str message)] = some none := rfl
  have hrecording := Task.Leads.bind (refusing_record_failsOnly (α := α) refusals id .error
    EventKind.failed.label hnode) fun _ => refusing_finish_failsOnly refusals id
      { status := .failed, actionsExecuted := executed, errorCode := some code, errorMessage := some message }
  have hrun := hrecording w trivial
  split at hrun
  · rename_i w' hran
    exact ⟨w', Task.runOn_attempt_bind hran⟩
  · rename_i w' hran
    obtain ⟨f, rfl⟩ := hrun
    exact ⟨w', Task.runOn_attempt_bind hran⟩

/-- However the recording of a fault fares, the fault that is raised is the one that is raised otherwise. -/
theorem conclude_refusing_fault (fault : Fault) (w : World α) :
    (((app.engineRefusing refusals limit sleep).conclude id executed (.error fault)).runOn w).1 =
      .error ((app.engineRefusing refusals limit sleep).raised id w.now fault) := by
  have hrecorded {β : Type} (code message : String) (fault : Fault) :
      (((app.engineRefusing refusals limit sleep).recordFailure id code message executed >>= fun _ =>
        (throw fault : Task (World α) β)).runOn w).1 = .error fault := by
    obtain ⟨w', hrecord⟩ := recordFailure_returns app refusals limit sleep id executed code message w
    rw [Task.runOn_bind_ok hrecord]
    rfl
  have hfail (f : Failure) (hclash : Engine.clashingField? f.context = none) :
      (((app.engineRefusing refusals limit sleep).fail id f executed : Task (World α) RunResult).runOn w).1 =
        .error (.failure f) := by
    unfold Engine.fail
    rw [hclash]
    exact hrecorded f.code f.message _
  -- A fault that cannot be logged is replaced before anything is recorded, and a cancellation is not recorded.
  cases fault with
  | failure f =>
    show (((app.engineRefusing refusals limit sleep).fail id f executed : Task (World α) RunResult).runOn w).1 = _
    cases hclash : Engine.clashingField? f.context with
    | none =>
      rw [raised_of_no_clash _ _ hclash]
      exact hfail f hclash
    | some name =>
      rw [raised_of_clash _ _ hclash]
      unfold Engine.fail
      rw [hclash]
      rfl
  | elapsed | timeout _ =>
    rw [runOn_conclude_timeout executed _ rfl]
    exact hfail _ (clashingField?_executionTimeout ..)
  | cancelled _ | unreadable _ _ _ => rfl
  | _ => exact hrecorded _ _ _

def resultEnd (result : RunResult) : RunEnd where
  status := result.status
  actionsExecuted := result.actionsExecuted

theorem runOn_conclude_refusing (result : RunResult) (w : World α) :
    ((app.engineRefusing refusals limit sleep).conclude id executed (.ok result)).runOn w =
      let finished := (RunLog.finishUnless refusals id (resultEnd result) w.now).runOn w.database
      (finished.1.map fun _ => result, { w with database := finished.2 }) := by
  have hconclude : ((app.engineRefusing refusals limit sleep).conclude id executed (.ok result)).runOn w =
      (World.store (RunLog.finishUnless refusals id (resultEnd result)) >>= fun _ => pure result).runOn w := rfl
  rw [hconclude, Task.runOn_bind_pure, World.runOn_store]

theorem conclude_refusing_result (result : RunResult) {w : World α} (hrow : HasRow id w) :
    (((app.engineRefusing refusals limit sleep).conclude id executed (.ok result)).runOn w).1 =
      match refusals .finish with
      | none => .ok result
      | some _ => .error (runRefused "finalize" "finalize_run" id w.now) := by
  obtain ⟨sh, hsh, hrows⟩ := hrow
  rw [runOn_conclude_refusing]
  unfold RunLog.finishUnless
  cases refusals .finish with
  | none =>
    have hfinish := (RunLog.finish_recorded (resultEnd result) w.now hsh hrows).1
    dsimp only
    rw [hfinish]
    rfl
  | some _ => rfl

theorem runOn_loadRun_of_load {record : RunRecord} {w : World α}
    (h : (RunLog.load id w.now).runOn w.database = (.ok record, w.database)) :
    (loadRun id).runOn w = (.ok record, w) := by
  unfold loadRun
  rw [World.runOn_store, h]

theorem conclude_refusing_durable {outcome : Outcome RunResult} {result : RunResult} {w w' : World α}
    (h : ((app.engineRefusing refusals limit sleep).conclude id executed outcome).runOn w = (.ok result, w')) :
    ∃ record, (RunLog.load id w'.now).runOn w'.database = (.ok record, w'.database) ∧
      record.row.status = result.status ∧
      record.row.actionsExecuted = result.actionsExecuted := by
  cases outcome with
  | error fault =>
    have hraised := conclude_refusing_fault app refusals limit sleep id executed fault w
    rw [h] at hraised
    cases hraised
  | ok concluded =>
    rw [runOn_conclude_refusing] at h
    unfold RunLog.finishUnless at h
    cases hrefusal : refusals .finish with
    | some _ =>
      rw [hrefusal] at h
      cases h
    | none =>
      rw [hrefusal] at h
      dsimp only at h
      rcases hfinish : (RunLog.finish id (resultEnd concluded) w.now).runOn w.database with ⟨fault | ⟨⟩, db⟩ <;>
        rw [hfinish] at h <;> cases h
      have hdurable := RunLog.finish_durable (e := resultEnd concluded) (by rw [hfinish]) w.now
      rw [hfinish] at hdurable
      obtain ⟨record, hload, hstatus, hactions, -⟩ := hdurable
      exact ⟨record, hload, hstatus, hactions⟩

end Conclude

/-- Refused writes forge nothing. If the record of a run cannot be opened, no action is called. Otherwise the run
calls the same actions, and ends in the same way, as without refusals. A result is returned only if it is on record;
a result that cannot be recorded is replaced by the refusal, and a fault of the standard actions or of the cap is
raised as it is. -/
theorem execute_refusing (app : Application (α × μ)) (refusals : Refusals) (limit : Option Numeral)
    (sleep : Binary64 → Task (World (α × μ)) Unit) (hook : Event → Task (World (α × μ)) Unit) (r : RunRequest)
    (w : World (α × μ)) (h : Unaware app sleep hook r.executionId) :
    let failing := app.engineRefusing refusals limit sleep
    let working := app.engineWithin limit sleep
    let opened := (failing.opening r w).1
    let attempted := failing.attempted r hook w
    let final := (failing.execute r hook).runOn w
    (refusals .start ≠ none → ∃ fault, opened = .error fault) ∧
      (∀ fault, opened = .error fault → final.1 = .error fault ∧ failing.calls r hook w = []) ∧
      (opened = .ok () →
        failing.calls r hook w = working.calls r hook w ∧
          attempted.1 = (working.attempted r hook w).1 ∧
          attempted.2.events = (working.attempted r hook w).2.events ∧
          (∀ result, attempted.1 = .ok result → final.1 =
            match refusals .finish with
            | none => .ok result
            | some _ => .error (runRefused "finalize" "finalize_run" r.executionId attempted.2.world.now)) ∧
          ∀ fault, attempted.1 = .error fault →
            ((∃ node now, fault = Runtime.capFault r node now) ∨ Action.DefaultFault (α × μ) fault) →
            final.1 = .error fault) ∧
      ∀ result, final.1 = .ok result →
        ∃ record, (loadRun r.executionId).runOn final.2 = (.ok record, final.2) ∧
          record.row.status = result.status ∧
          record.row.actionsExecuted = result.actionsExecuted := by
  intro failing working opened attempted final
  have hexecute : final = _ := Engine.runOn_execute failing r hook w
  refine ⟨fun hrefused => ?_, fun fault hfault => ?_, fun hopen => ?_, fun result hresult => ?_⟩
  · cases hopen : opened with
    | error fault => exact ⟨fault, rfl⟩
    | ok _ => exact absurd (opening_refusing hopen).1 hrefused
  · have hopened : (failing.opening r w).1 = .error fault := hfault
    rw [hexecute, Engine.calls_eq, hopened]
    exact ⟨rfl, rfl⟩
  · obtain ⟨hcalls, houtcome, hevents⟩ := attempted_refusing h hopen
    have hopened : (failing.opening r w).1 = .ok () := hopen
    have hfinal : final.1 = (failing.concluded r hook w).1 := by
      rw [hexecute, hopened]
    refine ⟨hcalls, houtcome, hevents, fun result hresult => ?_, fun fault hfault horigin => ?_⟩
    · have hended : (failing.attempted r hook w).1 = .ok result := hresult
      rw [hfinal, Engine.concluded, hended]
      exact conclude_refusing_result app refusals limit sleep r.executionId _ result (attempted_row h hopen)
    · have hended : (failing.attempted r hook w).1 = .error fault := hfault
      have hplain : fault.Plain := by
        rcases horigin with ⟨node, now, rfl⟩ | hdefault
        · exact capFault_plain r node now
        · exact hdefault.plain
      rw [hfinal, Engine.concluded, hended]
      rw [conclude_refusing_fault app refusals limit sleep]
      exact congrArg Except.error (raised_eq_self_iff.mpr ⟨hplain.inTime, hplain.loggable⟩)
  · rcases hopen : (failing.opening r w).1 with fault | ⟨⟩
    · rw [hexecute, hopen] at hresult
      cases hresult
    · rw [hexecute, hopen] at hresult ⊢
      have hconcluded : failing.concluded r hook w = (.ok result, (failing.concluded r hook w).2) :=
        Prod.ext hresult rfl
      obtain ⟨record, hload, hstatus, hactions⟩ :=
        conclude_refusing_durable app refusals limit sleep r.executionId _ hconcluded
      have hstored := runOn_loadRun_of_load r.executionId
        (w := failing.putLogContext [] (failing.concluded r hook w).2) hload
      exact ⟨record, hstored, hstatus, hactions⟩

/-- An application with the standard actions, beside which a hook counts. -/
def watchedDefaults : Application (Unit × Nat) where
  settings := (withActions {}).settings
  cipher := ⟨id⟩
  registry := Action.defaults { cipher := ⟨id⟩, client := {} }
  integration := { cipher := ⟨id⟩, client := {} }

def watchedWorld : World (Unit × Nat) where
  now := ⟨0⟩
  sources := ⟨fun _ => [], fun _ => "id"⟩
  line := { transport := fun _ _ => .ok ⟨200, "\x7b\x7d"⟩ }
  custom := ((), 0)

/-- Counts the events that it is told, and fails on each of them. -/
def countingHook : Event → Task (World (Unit × Nat)) Unit := fun _ => do
  modify fun w => { w with custom := ((), w.custom.2 + 1) }
  throw (.other "RuntimeError" "sink unavailable")

def statusRequest : RunRequest where
  workflow := { nodes := [⟨"crm", actionType, [("action", .str "crm.update_status"), ("status", .str "won")]⟩] }
  tenantId := "tenant"
  clientId := "client"
  triggerType := "manual"
  executionId := "run"
  maxActions := 5

/-- Refuses the second event of a run, and its end. -/
def refuseLast : Refusals
  | .event 2 | .finish => some .other
  | _ => none

theorem watchedDefaults_unaware : Unaware watchedDefaults (fun _ => return ()) countingHook "run" where
  undisturbed := {
    actions := fun entry hentry call context w => by
      have hreads := (Action.defaults_discreet _ entry hentry).readsOnly call context w
      exact congrArg (fun db : Database => db.share "run") hreads
    sleep := fun _ _ => rfl
    hook := fun _ _ => rfl }
  actionsBlind := Action.defaults_agree Action.beside_sameSends
  sleepBlind _ := Task.Agrees.pure _
  hookApart _ _ := rfl
  hookFails _ _ fault hfault := by
    cases hfault
    exact ⟨rfl, _, rfl⟩

theorem execute_refusing_refuseLast :
    let failing := watchedDefaults.engineRefusing refuseLast none fun _ => return ()
    Unaware watchedDefaults (fun _ => return ()) countingHook statusRequest.executionId ∧
      (failing.opening statusRequest watchedWorld).1 = .ok () ∧
      (failing.attempted statusRequest countingHook watchedWorld).1 = .ok ⟨"run", .completed, 1, none⟩ ∧
      ((failing.execute statusRequest countingHook).runOn watchedWorld).1 =
        .error (runRefused "finalize" "finalize_run" "run" ⟨0⟩) := by
  intro failing
  have hopen : (failing.opening statusRequest watchedWorld).1 = .ok () := rfl
  have hended : (failing.attempted statusRequest countingHook watchedWorld).1 = .ok ⟨"run", .completed, 1, none⟩ :=
    rfl
  obtain ⟨-, -, hopened, -⟩ := execute_refusing watchedDefaults refuseLast none (fun _ => return ()) countingHook
    statusRequest watchedWorld watchedDefaults_unaware
  obtain ⟨-, -, -, hresult, -⟩ := hopened hopen
  exact ⟨watchedDefaults_unaware, hopen, hended, hresult _ hended⟩

end Application

end Cadence
