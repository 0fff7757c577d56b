import Cadence.Application
import Cadence.Proofs.NodeSteps
import Cadence.Proofs.RunShare

/-!
# Recorded runs

The engine opens the record of a run, runs it, and concludes the record. Opening and concluding are
described by the run's share of the database, and a property of the share that recording an event keeps
holds after the run itself, as long as the code around the run leaves the share alone.
-/

namespace Cadence

open Workflow Storage

namespace World

variable {α β : Type}

theorem runOn_store (t : Instant → Task Database β) (w : World α) :
    (store t).runOn w =
      (((t w.now).runOn w.database).1, { w with database := ((t w.now).runOn w.database).2 }) := by
  unfold store
  rw [Task.runOn_bind_ok (Task.runOn_get w), Task.runOn_focus]

def share (w : World α) (id : String) : Option Share := w.database.share id

/-- A task leaves the share of a run alone. -/
def Spares (id : String) (t : Task (World α) β) : Prop := ∀ w, (t.runOn w).2.share id = w.share id

/-- A task leaves the database alone. -/
def ReadsOnly (t : Task (World α) β) : Prop := ∀ w, (t.runOn w).2.database = w.database

section Frames
variable {id : String} {t : Task (World α) β}

theorem Spares.keeps (h : Spares id t) (sh : Option Share) : Task.Keeps (fun w => w.share id = sh) t :=
  fun w hw => (h w).trans hw

theorem spares_of_keeps (h : ∀ sh, Task.Keeps (fun w => w.share id = sh) t) : Spares id t :=
  fun w => h (w.share id) w rfl

theorem ReadsOnly.keeps (h : ReadsOnly t) (db : Database) : Task.Keeps (fun w => w.database = db) t :=
  fun w hw => (h w).trans hw

theorem readsOnly_of_keeps (h : ∀ db, Task.Keeps (fun w => w.database = db) t) : ReadsOnly t :=
  fun w => h w.database w rfl

end Frames

end World

namespace Workflow

namespace Engine

variable {σ : Type} (e : Engine σ) (r : RunRequest) (hook : Event → Task σ Unit) (w : σ)

def startOf (r : RunRequest) : RunStart :=
  ⟨r.executionId, r.tenantId, r.clientId, r.triggerType, r.workflow.id⟩

/-- How opening the record of a run ends. -/
def opening : Outcome Unit × σ :=
  (e.recorder.start (startOf r)).runOn (e.addLogContext [("execution_id", .str r.executionId),
    ("tenant_id", .str r.tenantId), ("client_id", .str r.clientId)] w)

/-- How a run itself ends, and all it has done, once its record is opened. -/
def attempted : Outcome RunResult × Progress σ := e.attemptRun r hook (e.opening r w).2

def concluded : Outcome RunResult × σ :=
  (e.conclude r.executionId (executedActions (e.attempted r hook w).2) (e.attempted r hook w).1).runOn
    (e.attempted r hook w).2.world

theorem runOn_execute :
    (e.execute r hook).runOn w =
      match (e.opening r w).1 with
      | .ok () => ((e.concluded r hook w).1, e.putLogContext [] (e.concluded r hook w).2)
      | .error f => (.error f, e.putLogContext [] (e.opening r w).2) := by
  unfold execute concluded attempted opening startOf
  rw [Task.runOn_bind_ok (Task.runOn_modify ..), Task.runOn_bind_ok (Task.runOn_attempt ..),
    Task.runOn_bind_ok (Task.runOn_modify ..), Task.runOn_bind]
  rcases (e.recorder.start _).runOn _ with ⟨f | ⟨⟨⟩⟩, s⟩ <;> rfl

theorem attempted_keeps {I : Progress σ → Prop}
    (h : ∀ node, Runtime.StepInvariant (e.surroundings r hook) r node I)
    (hstart : I { world := (e.opening r w).2 }) : I (e.attempted r hook w).2 := by
  unfold attempted attemptRun
  split
  · exact hstart
  · exact Runtime.run_keeps (fun node _ => h node) _ hstart

theorem attempted_status {result : RunResult} (h : (e.attempted r hook w).1 = .ok result) :
    result.status = .completed ∨ result.status = .stopped := by
  unfold attempted attemptRun at h
  split at h
  · cases h
  · rw [Runtime.runOn_run] at h
    rcases hr : (Runtime.runNodes (e.surroundings r hook) r r.workflow.nodes).runOn
      { world := (e.opening r w).2 } with ⟨f | stoppedAt, q⟩ <;> rw [hr] at h
    · cases h
    · cases h
      cases stoppedAt with
      | none => exact .inl rfl
      | some _ => exact .inr rfl

end Engine

end Workflow

/-! ### Concluding a record -/

/-- The code that the record of a run carries that a fault ended. -/
def Fault.code : Fault → String
  | failure f => f.code
  | _ => "internal_error"

/-- Whether a fault is one by which time ran out, in the run or below. -/
def Fault.isTimeout : Fault → Bool
  | elapsed | timeout _ => true
  | _ => false

/-- What is raised in place of a fault that cannot be logged, be it that a name in its context is taken, or that
asking for its text fails. -/
def Fault.unlogged? : Fault → Option Fault
  | failure f => (Engine.clashingField? f.context).map .reservedField
  | unreadable _ raised message => some (.other raised message)
  | _ => none

/-- Whether the engine leaves the record of a run open that a fault has ended: an order to stop is passed
on at once, and a fault that cannot be logged breaks off the recording. -/
def Fault.leavesOpen : Fault → Bool
  | cancelled _ => true
  | fault => fault.unlogged?.isSome

/-- What the engine raises at a time for a fault of a run. -/
def Workflow.Engine.raised {σ : Type} (e : Engine σ) (id : String) (now : Instant) (fault : Fault) : Fault :=
  if fault.isTimeout then .failure (.executionTimeout (.str id) e.timeLimitJson now)
  else fault.unlogged?.getD fault

namespace Application

variable {α : Type}

/-- The engine of an application under a time limit. -/
def engineWithin (app : Application α) (limit : Option Numeral) (sleep : Binary64 → Task (World α) Unit) :
    Engine (World α) :=
  { app.engine sleep with timeLimit := limit }

section Conclude
variable {w : World α} {id : String} {sh : Share}

theorem store_record (level : EventLevel) (type : String) {payload : Members} {node : Option String}
    (h : w.share id = some sh) (hnode : namedNode? payload = some node) :
    ∃ w' : World α, (World.store (RunLog.record id level type payload)).runOn w = (.ok (sh.last + 1), w') ∧
      w'.now = w.now ∧
      w'.share id = some (sh.noted ⟨id, sh.last + 1, level, type, node, payload, w.now⟩) := by
  obtain ⟨hok, hshare⟩ := RunLog.record_noted level type w.now h hnode
  refine ⟨{ w with database := ((RunLog.record id level type payload w.now).runOn w.database).2 }, ?_,
    rfl, hshare⟩
  rw [World.runOn_store, hok]

theorem store_record_skipped (level : EventLevel) (type : String) {payload : Members}
    (h : w.share id = some sh) (hnode : namedNode? payload = none) :
    ∃ w' : World α, (World.store (RunLog.record id level type payload)).runOn w =
        (.error (recordRefusal id type payload w.now), w') ∧
      w'.share id = some sh.skipped := by
  obtain ⟨herror, hshare⟩ := RunLog.record_skipped level type w.now h hnode
  refine ⟨{ w with database := ((RunLog.record id level type payload w.now).runOn w.database).2 }, ?_,
    hshare⟩
  rw [World.runOn_store, herror]

theorem store_finish (e : RunEnd) (h : w.share id = some sh) (hrows : sh.rows ≠ []) :
    ∃ w' : World α, (World.store (RunLog.finish id e)).runOn w = (.ok (), w') ∧
      w'.share id = some (sh.ended e w.now) := by
  obtain ⟨hok, hshare⟩ := RunLog.finish_recorded e w.now h hrows
  refine ⟨{ w with database := ((RunLog.finish id e w.now).runOn w.database).2 }, ?_, hshare⟩
  rw [World.runOn_store, hok]

section Others
variable {other : String} (h : other ≠ id)
include h

theorem store_record_other (level : EventLevel) (type : String) (payload : Members) :
    World.Spares other (World.store (RunLog.record id level type payload) : Task (World α) Nat) := by
  intro w
  rw [World.runOn_store]
  exact RunLog.record_other h

theorem store_finish_other (e : RunEnd) :
    World.Spares other (World.store (RunLog.finish id e) : Task (World α) Unit) := by
  intro w
  rw [World.runOn_store]
  exact RunLog.finish_other h

end Others

def failedRow (id : String) (last : Nat) (fault : Fault) (now : Instant) : EventRow :=
  ⟨id, last + 1, .error, EventKind.failed.label, none,
    [("errorCode", .str fault.code), ("message", .str fault.message)], now⟩

def failedEnd (executed : Nat) (fault : Fault) : RunEnd where
  status := .failed
  actionsExecuted := executed
  errorCode := some fault.code
  errorMessage := some fault.message

/-- The share of a run after a fault is recorded. -/
def withFailure (id : String) (executed : Nat) (fault : Fault) (now : Instant) (sh : Share) : Share :=
  (sh.noted (failedRow id sh.last fault now)).ended (failedEnd executed fault) now

variable (app : Application α) (limit : Option Numeral) (sleep : Binary64 → Task (World α) Unit)
  (executed : Nat)

theorem runOn_recordFailure (h : w.share id = some sh) (hrows : sh.rows ≠ []) (fault : Fault) :
    ∃ w', ((app.engineWithin limit sleep).recordFailure id fault.code fault.message executed).runOn w =
        (.ok (), w') ∧
      w'.share id = some (withFailure id executed fault w.now sh) := by
  obtain ⟨w₁, hnoting, hnow, hnoted⟩ := store_record .error EventKind.failed.label h
    (show namedNode? [("errorCode", .str fault.code), ("message", .str fault.message)] = some none from rfl)
  obtain ⟨w₂, hending, hended⟩ := store_finish (failedEnd executed fault) hnoted hrows
  refine ⟨w₂, ?_, by rw [hended, hnow]; rfl⟩
  have hrecording : (World.store (RunLog.record id .error EventKind.failed.label
      [("errorCode", .str fault.code), ("message", .str fault.message)]) >>= fun _ =>
        World.store (RunLog.finish id (failedEnd executed fault))).runOn w = (.ok (), w₂) := by
    rw [Task.runOn_bind_ok hnoting, hending]
  exact Task.runOn_attempt_bind hrecording

theorem fail_recorded {f : Failure} (h : w.share id = some sh) (hrows : sh.rows ≠ [])
    (hclash : Engine.clashingField? f.context = none) :
    ∃ w', ((app.engineWithin limit sleep).fail id f executed : Task (World α) RunResult).runOn w =
        (.error (.failure f), w') ∧
      w'.share id = some (withFailure id executed (.failure f) w.now sh) := by
  obtain ⟨w', hrecord, hshare⟩ := runOn_recordFailure app limit sleep executed h hrows (.failure f)
  refine ⟨w', ?_, hshare⟩
  unfold Engine.fail
  rw [hclash]
  exact Task.runOn_bind_ok hrecord

theorem fail_clash {f : Failure} {name : String} (hclash : Engine.clashingField? f.context = some name) :
    ((app.engineWithin limit sleep).fail id f executed : Task (World α) RunResult).runOn w =
      (.error (.reservedField name), w) := by
  unfold Engine.fail
  rw [hclash]
  rfl

theorem conclude_result (h : w.share id = some sh) (hrows : sh.rows ≠ []) (result : RunResult) :
    ∃ w', ((app.engineWithin limit sleep).conclude id executed (.ok result)).runOn w = (.ok result, w') ∧
      w'.share id = some (sh.ended
        { status := result.status, actionsExecuted := result.actionsExecuted } w.now) := by
  obtain ⟨w', hfinish, hshare⟩ := store_finish
    { status := result.status, actionsExecuted := result.actionsExecuted } h hrows
  exact ⟨w', Task.runOn_bind_ok hfinish, hshare⟩

theorem clashingField?_executionTimeout (id limit : Json) (now : Instant) :
    Engine.clashingField? (Failure.executionTimeout id limit now).context = none := rfl

theorem raised_of_clash {f : Failure} {name : String} (e : Engine (World α)) (now : Instant)
    (hclash : Engine.clashingField? f.context = some name) :
    e.raised id now (.failure f) = .reservedField name := by
  show ((Engine.clashingField? f.context).map Fault.reservedField).getD _ = _
  rw [hclash]
  rfl

theorem raised_of_no_clash {f : Failure} (e : Engine (World α)) (now : Instant)
    (hclash : Engine.clashingField? f.context = none) : e.raised id now (.failure f) = .failure f := by
  show ((Engine.clashingField? f.context).map Fault.reservedField).getD _ = _
  rw [hclash]
  rfl

theorem runOn_conclude_timeout (e : Engine (World α)) {fault : Fault} (h : fault.isTimeout = true) :
    (e.conclude id executed (.error fault)).runOn w =
      (e.fail id (.executionTimeout (.str id) e.timeLimitJson (e.clock w)) executed).runOn w := by
  cases fault with
  | elapsed | timeout _ =>
    simp only [Engine.conclude]
    rw [Task.runOn_bind_ok (Task.runOn_get w)]
  | _ => cases h

/-- A fault that does not leave the record open is recorded as the engine raises it. -/
theorem conclude_failed {fault : Fault} (h : w.share id = some sh) (hrows : sh.rows ≠ [])
    (hopen : fault.leavesOpen = false) :
    let raised := (app.engineWithin limit sleep).raised id w.now fault
    ∃ w', ((app.engineWithin limit sleep).conclude id executed (.error fault)).runOn w =
        (.error raised, w') ∧
      w'.share id = some (withFailure id executed raised w.now sh) := by
  intro raised
  have hplain (hcode : fault.code = "internal_error") (hraised : raised = fault) :
      ∃ w', ((app.engineWithin limit sleep).recordFailure id "internal_error" fault.message executed >>=
          fun _ => (throw fault : Task (World α) RunResult)).runOn w = (.error raised, w') ∧
        w'.share id = some (withFailure id executed raised w.now sh) := by
    obtain ⟨w', hrecord, hshare⟩ := runOn_recordFailure app limit sleep executed h hrows fault
    rw [hcode] at hrecord
    rw [hraised]
    exact ⟨w', Task.runOn_bind_ok hrecord, hshare⟩
  cases fault with
  | failure f =>
    have hclash : Engine.clashingField? f.context = none :=
      Option.map_eq_none_iff.mp (Option.isNone_iff_eq_none.mp (Option.isSome_eq_false_iff.mp hopen))
    have hraised : raised = .failure f := raised_of_no_clash _ _ hclash
    rw [hraised]
    exact fail_recorded app limit sleep executed h hrows hclash
  | elapsed | timeout _ =>
    rw [runOn_conclude_timeout executed _ rfl]
    exact fail_recorded app limit sleep executed h hrows (clashingField?_executionTimeout ..)
  | cancelled _ | unreadable _ _ _ => cases hopen
  | _ => exact hplain rfl rfl

/-- A fault that leaves the record open changes nothing. -/
theorem conclude_open {fault : Fault} (hopen : fault.leavesOpen = true) :
    ((app.engineWithin limit sleep).conclude id executed (.error fault)).runOn w =
      (.error ((app.engineWithin limit sleep).raised id w.now fault), w) := by
  cases fault with
  | failure f =>
    have hsome : (Engine.clashingField? f.context).isSome := Option.isSome_map.symm.trans hopen
    obtain ⟨name, hclash⟩ := Option.isSome_iff_exists.mp hsome
    rw [raised_of_clash _ _ hclash]
    exact fail_clash app limit sleep executed hclash
  | cancelled _ | unreadable _ _ _ => rfl
  | _ => cases hopen

theorem recordFailure_other {other : String} (h : other ≠ id) (code message : String) :
    World.Spares other ((app.engineWithin limit sleep).recordFailure id code message executed) := by
  refine World.spares_of_keeps fun sh => ?_
  have hrecord := (store_record_other (α := α) h .error EventKind.failed.label
    [("errorCode", .str code), ("message", .str message)]).keeps sh
  refine Task.Keeps.bind (Task.Keeps.attempt (Task.Keeps.bind hrecord fun _ =>
    (store_finish_other h _).keeps sh)) fun outcome => ?_
  rcases outcome with fault | ⟨⟩
  · cases fault <;> exact fun _ hw => hw
  · exact Task.Keeps.pure _

theorem fail_other {other : String} (h : other ≠ id) (f : Failure) :
    World.Spares other ((app.engineWithin limit sleep).fail id f executed : Task (World α) RunResult) := by
  refine World.spares_of_keeps fun sh => ?_
  unfold Engine.fail
  cases Engine.clashingField? f.context with
  | some name => exact Task.Keeps.throw _
  | none =>
    exact Task.Keeps.bind ((recordFailure_other app limit sleep executed h _ _).keeps sh) fun _ =>
      Task.Keeps.throw _

theorem conclude_other {other : String} (h : other ≠ id) (outcome : Outcome RunResult) :
    World.Spares other ((app.engineWithin limit sleep).conclude id executed outcome) := by
  refine World.spares_of_keeps fun sh => ?_
  have hplain (fault : Fault) : Task.Keeps (fun w => w.share other = sh) (do
      let message ← fault.text
      (app.engineWithin limit sleep).recordFailure id "internal_error" message executed
      throw fault : Task (World α) RunResult) :=
    Task.Keeps.bind (Task.Keeps.lift _) fun message =>
      Task.Keeps.bind ((recordFailure_other app limit sleep executed h _ message).keeps sh) fun _ =>
        Task.Keeps.throw _
  rcases outcome with fault | result
  · cases fault with
    | failure f => exact (fail_other app limit sleep executed h f).keeps sh
    | elapsed | timeout _ =>
      exact Task.Keeps.bind Task.Keeps.get fun _ => (fail_other app limit sleep executed h _).keeps sh
    | cancelled _ => exact Task.Keeps.throw _
    | _ => exact hplain _
  · exact Task.Keeps.bind ((store_finish_other h _).keeps sh) fun _ => Task.Keeps.pure _

theorem runOn_loadRun {row : RunRow} {rest : List RunRow} {events : List EventRow} {last : Nat}
    (h : w.share id = some ⟨row :: rest, events, last⟩) :
    (loadRun id).runOn w = (.ok ⟨row, events.mergeSort fun a b => a.sequence ≤ b.sequence⟩, w) := by
  unfold loadRun
  rw [World.runOn_store, RunLog.load_share w.now h]

end Conclude

/-! ### What a run makes of its share -/

/-- A property of shares that recording an event of a run keeps, and using up a number too. -/
structure KeptByRecording (id : String) (P : Share → Prop) : Prop where
  noted : ∀ sh level type node payload now, type ≠ EventKind.failed.label → P sh →
    P (sh.noted ⟨id, sh.last + 1, level, type, node, payload, now⟩)
  skipped : ∀ sh, P sh → P sh.skipped

/-- The code around a run leaves the share of the run alone: the registered actions, waiting, and what is
told about the events. -/
structure Undisturbed (app : Application α) (sleep : Binary64 → Task (World α) Unit)
    (hook : Event → Task (World α) Unit) (id : String) : Prop where
  actions : ∀ entry ∈ app.registry.entries, ∀ call context, World.Spares id (entry.run call context)
  sleep : ∀ seconds, World.Spares id (sleep seconds)
  hook : ∀ event, World.Spares id (hook event)

section Run
variable {app : Application α} {limit : Option Numeral} {sleep : Binary64 → Task (World α) Unit}
  {hook : Event → Task (World α) Unit} {r : RunRequest} {w : World α} {sh : Share} {P : Share → Prop}

/-- A dispatch either ends in a fault of the registry, or is what one of its actions does. -/
theorem dispatch_cases (registry : Registry (World α)) (clock : World α → Instant) (call : ActionCall)
    (context : RunContext) (w : World α) :
    (∃ f, (registry.dispatch clock call context).runOn w = (.error f, w)) ∨
      ∃ entry ∈ registry.entries, ∃ named,
        (registry.dispatch clock call context).runOn w = (entry.run named context).runOn w := by
  unfold Registry.dispatch
  rw [Task.runOn_bind_ok (Task.runOn_get w)]
  by_cases hempty : normalizeName call.action = ""
  · simp only [hempty, if_true]
    exact .inl ⟨_, rfl⟩
  · simp only [hempty, if_false]
    cases hfind : registry.find? (normalizeName call.action) with
    | none => exact .inl ⟨_, rfl⟩
    | some entry => exact .inr ⟨entry, List.mem_of_find?_eq_some hfind, _, rfl⟩

theorem dispatch_spares {id : String} {registry : Registry (World α)} {clock : World α → Instant}
    (h : ∀ entry ∈ registry.entries, ∀ call context, World.Spares id (entry.run call context))
    (call : ActionCall) (context : RunContext) :
    World.Spares id (registry.dispatch clock call context) := by
  intro w
  rcases dispatch_cases registry clock call context w with ⟨f, hrun⟩ | ⟨entry, hentry, named, hrun⟩
  · rw [hrun]
  · rw [hrun]
    exact h entry hentry named context w

theorem telling_keeps (hP : KeptByRecording r.executionId P)
    (hhook : ∀ event, World.Spares r.executionId (hook event)) {event : Event}
    (hkind : event.kind.label ≠ EventKind.failed.label) :
    Task.Keeps (fun w : World α => ∃ sh, w.share r.executionId = some sh ∧ P sh)
      (((app.engineWithin limit sleep).surroundings r hook).hook event) := by
  rintro w ⟨sh, hsh, hp⟩
  show ∃ sh, (Task.runOn (World.store (RunLog.record r.executionId event.level event.kind.label
    event.payload) >>= fun _ => hook event) w).2.share r.executionId = some sh ∧ P sh
  cases hnode : namedNode? event.payload with
  | none =>
    obtain ⟨w', hrun, hshare⟩ := store_record_skipped event.level event.kind.label hsh hnode
    rw [Task.runOn_bind_error hrun]
    exact ⟨sh.skipped, hshare, hP.skipped sh hp⟩
  | some node =>
    obtain ⟨w', hrun, -, hshare⟩ := store_record event.level event.kind.label hsh hnode
    rw [Task.runOn_bind_ok hrun]
    exact ⟨_, (hhook event w').trans hshare, hP.noted sh _ _ _ _ _ hkind hp⟩

theorem onNode_spares {id : String} {handler : Handler (World α)}
    (h : ∀ call context, World.Spares id (handler call context)) (node : Node) (context : RunContext) :
    World.Spares id (handler.onNode node context) := by
  intro w
  rw [Runtime.runOn_onNode]
  cases actionCall node with
  | ok call => exact h call context w
  | error f => rfl

theorem surroundings_dispatch :
    ((app.engineWithin limit sleep).surroundings r hook).dispatch = (app.registry.dispatch (·.now)).onNode := rfl

theorem stepInvariant_of_keptByRecording (hP : KeptByRecording r.executionId P)
    (hcode : Undisturbed app sleep hook r.executionId) (node : Node) :
    Runtime.StepInvariant ((app.engineWithin limit sleep).surroundings r hook) r node
      (fun p => ∃ sh, p.world.share r.executionId = some sh ∧ P sh) where
  told event p he h := telling_keeps hP hcode.hook he.label_ne_failed p.world h
  slept seconds p h := by
    obtain ⟨sh, hsh, hp⟩ := h
    exact ⟨sh, (hcode.sleep seconds p.world).trans hsh, hp⟩
  counted _ p h := h
  acted _ p h := by
    simp only [Runtime.acted, surroundings_dispatch]
    rw [onNode_spares (dispatch_spares hcode.actions)]
    exact h

/-- A property of shares that recording keeps holds after a run if it held when the record was opened. -/
theorem attempted_share (hP : KeptByRecording r.executionId P)
    (hcode : Undisturbed app sleep hook r.executionId)
    (hopened : ((app.engineWithin limit sleep).opening r w).2.share r.executionId = some sh) (hp : P sh) :
    ∃ sh', ((app.engineWithin limit sleep).attempted r hook w).2.world.share r.executionId = some sh' ∧
      P sh' :=
  Engine.attempted_keeps _ r hook w (stepInvariant_of_keptByRecording hP hcode) ⟨sh, hopened, hp⟩

theorem runOn_opening (app : Application α) (limit : Option Numeral)
    (sleep : Binary64 → Task (World α) Unit) (r : RunRequest) (w : World α) :
    ∃ fields, (app.engineWithin limit sleep).opening r w =
      (((RunLog.start (Engine.startOf r) w.now).runOn w.database).1,
        { w with
          database := ((RunLog.start (Engine.startOf r) w.now).runOn w.database).2
          logContext := fields }) :=
  ⟨_, World.runOn_store _ _⟩

/-- A record is opened only for an id that is free, and holds one row of a running run then. -/
theorem opening_share (hopen : ((app.engineWithin limit sleep).opening r w).1 = .ok ()) :
    ∃ sh, w.share r.executionId = some sh ∧ sh.rows = [] ∧
      ((app.engineWithin limit sleep).opening r w).2.share r.executionId =
        some ⟨[(Engine.startOf r).row w.now], sh.events, 0⟩ := by
  obtain ⟨fields, hrun⟩ := runOn_opening app limit sleep r w
  rw [hrun] at hopen ⊢
  obtain ⟨sh, hsh, hrows⟩ := RunLog.free_of_start hopen
  exact ⟨sh, hsh, hrows, (RunLog.start_free hsh hrows).2⟩

end Run

end Application

end Cadence
