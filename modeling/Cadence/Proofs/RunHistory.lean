import Cadence.Proofs.ActionCount
import Cadence.Proofs.DefaultActions
import Cadence.Proofs.RunEnding

/-!
# The history of a run

The record of a run over the standard actions is what the run told about itself. Every event is recorded
as it is told, so the record mirrors the events at every step of the run, and the number of actions that
the run counted is the number of events that tell of one.
-/

namespace Cadence

open Workflow Storage

namespace Members

theorem get?_setAll_absent {more : Members} {name : String} (h : more.get? name = none)
    (members : Members) : (members.setAll more).get? name = members.get? name := by
  rw [get?_setAll, last?_eq_none_iff.mpr h, Option.none_or]

end Members

/-! ### What events say -/

/-- What an event says: how serious it is, what happened, to which node, and the payload. -/
def Workflow.Event.content (e : Event) : EventLevel × String × Option (Option String) × Members :=
  (e.level, e.kind.label, namedNode? e.payload, e.payload)

def Storage.EventRow.content (e : EventRow) : EventLevel × String × Option (Option String) × Members :=
  (e.level, e.eventType, some e.nodeId, e.payload)

theorem Workflow.namedNode?_about {id : String} {level : EventLevel} {kind : EventKind} {more : Members}
    (h : more.get? "nodeId" = none) :
    namedNode? (Event.about id level kind more).payload = some (some id) := by
  unfold namedNode? Event.about
  rw [Members.get?_setAll_absent h]
  rfl

namespace Storage.Share

/-- The events of a share are those that were told, in order, and numbered from one. -/
structure Mirrors (sh : Share) (told : List Event) : Prop where
  content : sh.events.map EventRow.content = told.map Event.content
  numbers : sh.events.map (·.sequence) = List.range' 1 told.length
  last : sh.last = told.length

variable {sh : Share} {told : List Event}

theorem Mirrors.noted (h : sh.Mirrors told) {id : String} {e : Event} {node : Option String} {now : Instant}
    (hnode : namedNode? e.payload = some node) :
    (sh.noted ⟨id, sh.last + 1, e.level, e.kind.label, node, e.payload, now⟩).Mirrors (told ++ [e]) where
  content := by
    simp only [Share.noted, List.map_append, List.map_singleton, h.content, EventRow.content, Event.content,
      hnode]
  numbers := by
    simp only [Share.noted, List.map_append, List.map_singleton, h.numbers, h.last, List.length_append,
      List.length_singleton, List.range'_1_concat, Nat.add_comm 1]
  last := by
    simp only [Share.noted, h.last, List.length_append, List.length_singleton]

theorem Mirrors.increasing (h : sh.Mirrors told) :
    sh.events.Pairwise fun a b => a.sequence < b.sequence := by
  have hnumbers : (List.range' 1 told.length).Pairwise (· < ·) := List.pairwise_lt_range'
  rw [← h.numbers] at hnumbers
  exact List.pairwise_map.mp hnumbers

theorem Mirrors.countP_executed (h : sh.Mirrors told) :
    sh.events.countP (·.eventType = EventKind.actionExecuted.label) =
      told.countP (·.kind = .actionExecuted) := by
  have hcontent : (sh.events.map EventRow.content).countP (·.2.1 = EventKind.actionExecuted.label) =
      (told.map Event.content).countP (·.2.1 = EventKind.actionExecuted.label) := by
    rw [h.content]
  rw [List.countP_map, List.countP_map] at hcontent
  refine Eq.trans hcontent (List.countP_congr fun e _ => ?_)
  have hlabel : e.kind.label = EventKind.actionExecuted.label ↔ e.kind = .actionExecuted := by
    cases e.kind <;> decide
  simp only [Function.comp_apply, Event.content, hlabel]

end Storage.Share

/-! ### The record of a run over the standard actions -/

namespace Application

variable {α : Type} {app : Application α} {limit : Option Numeral}
  {sleep : Binary64 → Task (World α) Unit} {hook : Event → Task (World α) Unit} {r : RunRequest}
  {w₀ : World α} {row : RunRow}

/-- How far a run has come since a world: its one row is as it was at the start, its events mirror what was
told, none of them tells of a failure, and all other runs are as they were. -/
structure Chronicle (w₀ : World α) (id : String) (row : RunRow) (w : World α) (told : List Event) :
    Prop where
  others : ∀ other, other ≠ id → w.share other = w₀.share other
  quiet : ∀ e ∈ told, e.kind.label ≠ EventKind.failed.label
  mirrored : ∃ sh, w.share id = some sh ∧ sh.rows = [row] ∧ sh.Mirrors told

variable {id : String} {w w' : World α} {told : List Event}

theorem Chronicle.of_database (h : Chronicle w₀ id row w told) (hw : w'.database = w.database) :
    Chronicle w₀ id row w' told := by
  have hshare (other : String) : w'.share other = w.share other := congrArg (·.share other) hw
  refine ⟨fun other hother => (hshare other).trans (h.others other hother), h.quiet, ?_⟩
  obtain ⟨sh, hsh, hrows, hmirrors⟩ := h.mirrored
  exact ⟨sh, (hshare id).trans hsh, hrows, hmirrors⟩

theorem Chronicle.record {e : Event} {node : Option String} (h : Chronicle w₀ id row w told)
    (hkind : e.kind.label ≠ EventKind.failed.label) (hnode : namedNode? e.payload = some node) :
    ∃ number w', (World.store (RunLog.record id e.level e.kind.label e.payload)).runOn w =
        (.ok number, w') ∧
      Chronicle w₀ id row w' (told ++ [e]) := by
  obtain ⟨sh, hsh, hrows, hmirrors⟩ := h.mirrored
  obtain ⟨w', hrun, -, hnoted⟩ := store_record e.level e.kind.label hsh hnode
  refine ⟨_, w', hrun, ⟨fun other hother => ?_, fun e' he' => ?_, _, hnoted, hrows, hmirrors.noted hnode⟩⟩
  · have hother' := store_record_other hother e.level e.kind.label e.payload w
    rw [hrun] at hother'
    exact hother'.trans (h.others other hother)
  · rcases List.mem_append.mp he' with he' | he'
    · exact h.quiet e' he'
    · rw [List.mem_singleton.mp he']
      exact hkind

theorem named_of_tells {env : Surroundings (World α)} {node : Node} {e : Event}
    (hunnamed : ∀ context w result, ((env.dispatch node context).runOn w).1 = .ok (.obj result) →
      Members.get? result "nodeId" = none) (h : Runtime.Tells env r node e) :
    namedNode? e.payload = some (some node.id) := by
  cases h with
  | enter => exact namedNode?_about rfl
  | outcome _ _ _ noNode => exact namedNode?_about noNode
  | executed _ answer => exact namedNode?_about (hunnamed _ _ _ answer)

theorem chronicle_stepInvariant (hactions : ∀ entry ∈ app.registry.entries, Action.Discreet entry.run)
    (hsleep : ∀ seconds, World.ReadsOnly (sleep seconds)) (hhook : ∀ event, World.ReadsOnly (hook event))
    (node : Node) :
    Runtime.StepInvariant ((app.engineWithin limit sleep).surroundings r hook) r node
      (fun p => Chronicle w₀ r.executionId row p.world p.events) where
  told e p he h := by
    have hdiscreet : Action.Discreet (app.registry.dispatch (·.now)) := Action.dispatch_discreet hactions
    obtain ⟨number, w', hrun, hnoted⟩ :=
      h.record he.label_ne_failed (named_of_tells (Action.onNode_unnamed hdiscreet node) he)
    show Chronicle w₀ r.executionId row (Task.runOn (World.store (RunLog.record r.executionId e.level
      e.kind.label e.payload) >>= fun _ => hook e) p.world).2 (p.events ++ [e])
    rw [Task.runOn_bind_ok hrun]
    exact hnoted.of_database (hhook e w')
  slept seconds p h := h.of_database (hsleep seconds p.world)
  counted _ _ h := h
  acted _ p h := by
    simp only [Runtime.acted, surroundings_dispatch]
    exact h.of_database (Action.onNode_readsOnly (Action.dispatch_discreet hactions) node r.context p.world)

theorem attempted_chronicle (hactions : ∀ entry ∈ app.registry.entries, Action.Discreet entry.run)
    (hsleep : ∀ seconds, World.ReadsOnly (sleep seconds)) (hhook : ∀ event, World.ReadsOnly (hook event))
    (hfresh : w.database.Eventless r.executionId)
    (hopen : ((app.engineWithin limit sleep).opening r w).1 = .ok ()) :
    let attempted := (app.engineWithin limit sleep).attempted r hook w
    Chronicle w r.executionId ((Engine.startOf r).row w.now) attempted.2.world attempted.2.events := by
  intro attempted
  obtain ⟨sh₀, hsh₀, -, hopened⟩ := opening_share hopen
  rw [(eventless_iff hsh₀).mp hfresh] at hopened
  have hstart : Chronicle w r.executionId ((Engine.startOf r).row w.now)
      ((app.engineWithin limit sleep).opening r w).2 [] := by
    refine ⟨fun other hother => ?_, fun e he => absurd he List.not_mem_nil, _, hopened, rfl, rfl, rfl, rfl⟩
    obtain ⟨fields, hrun⟩ := runOn_opening app limit sleep r w
    rw [hrun]
    exact RunLog.start_other hother
  exact Engine.attempted_keeps _ r hook w (chronicle_stepInvariant hactions hsleep hhook) hstart

/-! ### The history of an execution -/

def failureEvent (fault : Fault) : Event :=
  ⟨.error, .failed, [("errorCode", .str fault.code), ("message", .str fault.message)]⟩

/-- What the engine tells about the end of a run: one event if it raises a fault. -/
def closing : Outcome RunResult → List Event
  | .ok _ => []
  | .error fault => [failureEvent fault]

theorem attempted_settled {result : RunResult}
    (h : ((app.engineWithin limit sleep).attempted r hook w).1 = .ok result) :
    result.actionsExecuted =
      Engine.executedActions ((app.engineWithin limit sleep).attempted r hook w).2 := by
  unfold Engine.attempted Engine.attemptRun at h ⊢
  split at h
  · cases h
  · rename_i hexpired
    rw [if_neg hexpired]
    exact Runtime.run_settled (Prod.ext h rfl)

theorem mirrors_closing {sh : Share} (h : sh.Mirrors told) (fault : Fault) (now : Instant) :
    (sh.noted (failedRow id sh.last fault now)).Mirrors (told ++ closing (.error fault)) := by
  have hnode : namedNode? (failureEvent fault).payload = some none := rfl
  exact h.noted hnode

/-- The record says that the run told these events, and how many of its actions were executed. -/
structure Recounts (record : RunRecord) (told : List Event) : Prop where
  content : record.events.map EventRow.content = told.map Event.content
  numbers : record.events.map (·.sequence) = List.range' 1 record.events.length
  executed : record.row.actionsExecuted =
    record.events.countP (·.eventType = EventKind.actionExecuted.label)

theorem recounts_of_mirrors {sh mirror : Share} (hmirrors : mirror.Mirrors told)
    (hsh : w.share id = some sh) (hrows : sh.rows = [row]) (hevents : sh.events = mirror.events)
    (hexecuted : row.actionsExecuted = told.countP (·.kind = .actionExecuted)) :
    (loadRun id).runOn w = (.ok ⟨row, mirror.events⟩, w) ∧ Recounts ⟨row, mirror.events⟩ told := by
  have hload := runOn_loadRun_single hsh hrows
  rw [hevents, Share.mergeSort_of_increasing hmirrors.increasing] at hload
  refine ⟨hload, hmirrors.content, ?_, ?_⟩
  · have hlength : mirror.events.length = told.length := by
      rw [← List.length_map EventRow.content, hmirrors.content, List.length_map]
    rw [hlength]
    exact hmirrors.numbers
  · rw [hmirrors.countP_executed]
    exact hexecuted

theorem execute_taken (hrecords : w.database.Records r.executionId) :
    let final := ((app.engineWithin limit sleep).execute r hook).runOn w
    final.1 = .error (.failure (.executionConflict (.str r.executionId) w.now)) ∧
      final.2.database = w.database := by
  intro final
  obtain ⟨t, ht, -⟩ := id hrecords
  have hsh : w.database.share r.executionId = some _ := congrArg (Option.map _) ht
  obtain ⟨fields, hrun⟩ := runOn_opening app limit sleep r w
  have hstart : (RunLog.start (Engine.startOf r) w.now).runOn w.database = _ :=
    RunLog.start_taken hsh ((records_iff hsh).mp hrecords)
  rw [hstart] at hrun
  have hfinal : final = _ := Engine.runOn_execute (app.engineWithin limit sleep) r hook w
  rw [hfinal, hrun]
  exact ⟨rfl, rfl⟩

theorem opening_of_free (htables : w.database.tables.isSome)
    (hrecords : ¬w.database.Records r.executionId) :
    ((app.engineWithin limit sleep).opening r w).1 = .ok () := by
  obtain ⟨t, ht⟩ := Option.isSome_iff_exists.mp htables
  have hsh : w.database.share r.executionId = some _ := congrArg (Option.map _) ht
  have hfree := not_not.mp (mt (records_iff hsh).mpr hrecords)
  obtain ⟨fields, hrun⟩ := runOn_opening app limit sleep r w
  rw [hrun]
  exact (RunLog.start_free hsh hfree).1

theorem execute_shares {told : List Event}
    (hopen : ((app.engineWithin limit sleep).opening r w).1 = .ok ())
    (h : Chronicle w r.executionId row ((app.engineWithin limit sleep).attempted r hook w).2.world told) :
    let final := ((app.engineWithin limit sleep).execute r hook).runOn w
    (∃ sh, final.2.share r.executionId = some sh ∧ sh.rows ≠ []) ∧
      ∀ other, other ≠ r.executionId → final.2.share other = w.share other := by
  intro final
  have hfinal : final = _ := execute_of_concluded hopen rfl
  obtain ⟨sh, hsh, hrow, -⟩ := h.mirrored
  have hrows := Share.rows_ne_nil hrow
  refine ⟨?_, fun other hother => ?_⟩
  · rcases hending : ((app.engineWithin limit sleep).attempted r hook w).1 with fault | result
    · cases hleft : fault.leavesOpen with
      | true =>
        obtain ⟨w', hrun, hshare⟩ := execute_open hopen hending hleft
        rw [show final = _ from hrun]
        exact ⟨sh, hshare.trans hsh, hrows⟩
      | false =>
        obtain ⟨w', hrun, hshare⟩ := execute_failed hopen hsh hrows hending hleft
        rw [show final = _ from hrun]
        exact ⟨_, hshare, Share.rows_ne_nil (rows_withFailure hrow)⟩
    · obtain ⟨w', hrun, hshare⟩ := execute_result hopen hsh hrows hending
      rw [show final = _ from hrun]
      exact ⟨_, hshare, Share.rows_ne_nil (rows_ended hrow)⟩
  · rw [hfinal]
    exact (conclude_other app limit sleep _ hother _ _).trans (h.others other hother)

theorem countP_closing (told : List Event) (o : Outcome RunResult) :
    (told ++ closing o).countP (·.kind = .actionExecuted) = told.countP (·.kind = .actionExecuted) := by
  rw [List.countP_append]
  cases o <;> rfl

theorem executedActions_eq_countP (p : Progress (World α)) :
    Engine.executedActions p = p.events.countP (·.kind = .actionExecuted) :=
  List.countP_eq_length_filter.symm

theorem raised_ne_failure {fault : Fault} (hleft : fault.leavesOpen = true) (e : Engine (World α))
    (id : String) (now : Instant) (f : Failure) : e.raised id now fault ≠ .failure f := by
  cases fault with
  | failure g =>
    have hsome : (Engine.clashingField? g.context).isSome := Option.isSome_map.symm.trans hleft
    obtain ⟨name, hclash⟩ := Option.isSome_iff_exists.mp hsome
    rw [raised_of_clash e now hclash]
    exact Fault.noConfusion
  | cancelled _ | unreadable _ _ _ => exact Fault.noConfusion
  | _ => cases hleft

theorem attached_of_shares {sh : Share} (hattached : w.database.Attached) (hsh : w'.share id = some sh)
    (hrows : sh.rows ≠ []) (hothers : ∀ other, other ≠ id → w'.share other = w.share other) :
    w'.database.Attached := by
  intro other hfree
  have hne : other ≠ id := by
    rintro rfl
    exact hfree ((records_iff hsh).mpr hrows)
  obtain ⟨t, ht, -⟩ := share_eq_some hsh
  have hshare' : w'.database.share other = some _ := congrArg (Option.map _) ht
  have hshare : w.database.share other = some _ := (hothers other hne).symm.trans hshare'
  have hnone := hattached other fun hrecords =>
    hfree ((records_iff hshare').mpr ((records_iff hshare).mp hrecords))
  exact (eventless_iff hshare').mpr ((eventless_iff hshare).mp hnone)

/-- The record of an execution that returns, or raises a failure, says what the run told and how it ended. -/
theorem execute_recounts
    (hopen : ((app.engineWithin limit sleep).opening r w).1 = .ok ())
    (h : Chronicle w r.executionId row ((app.engineWithin limit sleep).attempted r hook w).2.world
      ((app.engineWithin limit sleep).attempted r hook w).2.events) :
    let final := ((app.engineWithin limit sleep).execute r hook).runOn w
    let told := ((app.engineWithin limit sleep).attempted r hook w).2.events
    ((∃ result, final.1 = .ok result) ∨ ∃ f, final.1 = .error (.failure f)) →
      ∃ record, (loadRun r.executionId).runOn final.2 = (.ok record, final.2) ∧
        Recounts record (told ++ closing final.1) ∧
        ∀ result, final.1 = .ok result →
          record.row.status = result.status ∧ record.row.actionsExecuted = result.actionsExecuted := by
  intro final told hended
  obtain ⟨sh, hsh, hrow, hmirrors⟩ := h.mirrored
  have hrows := Share.rows_ne_nil hrow
  have hexecuted (o : Outcome RunResult) :
      Engine.executedActions ((app.engineWithin limit sleep).attempted r hook w).2 =
        (told ++ closing o).countP (·.kind = .actionExecuted) := by
    rw [countP_closing, executedActions_eq_countP]
  rcases hending : ((app.engineWithin limit sleep).attempted r hook w).1 with fault | result
  · cases hleft : fault.leavesOpen with
    | true =>
      obtain ⟨w', hrun, -⟩ := execute_open hopen hending hleft
      rw [show final = _ from hrun] at hended
      rcases hended with ⟨result, hresult⟩ | ⟨f, hf⟩
      · cases hresult
      · exact absurd (Except.error.inj hf) (raised_ne_failure hleft _ _ _ f)
    | false =>
      obtain ⟨w', hrun, hshare⟩ := execute_failed hopen hsh hrows hending hleft
      rw [show final = _ from hrun]
      obtain ⟨hload, hrecounts⟩ := recounts_of_mirrors (mirrors_closing hmirrors _ _) hshare
        (rows_withFailure hrow) rfl (congrArg Nat.cast (hexecuted _))
      exact ⟨_, hload, hrecounts, fun result hresult => by cases hresult⟩
  · obtain ⟨w', hrun, hshare⟩ := execute_result hopen hsh hrows hending
    rw [show final = _ from hrun]
    have hmirrors' : sh.Mirrors (told ++ closing (.ok result)) := by
      rw [closing, List.append_nil]
      exact hmirrors
    have hsettled := attempted_settled hending
    obtain ⟨hload, hrecounts⟩ := recounts_of_mirrors hmirrors' hshare (rows_ended hrow) rfl
      (hsettled.trans (congrArg Nat.cast (hexecuted (.ok result))))
    refine ⟨_, hload, hrecounts, fun other hother => ?_⟩
    cases hother
    exact ⟨rfl, rfl⟩

/-- The history of an execution over the standard actions. If the id of the run is taken, a conflict is
raised and the database stays as it is. If nothing is recorded under the id, and the execution returns or
raises a failure, the record of the run holds exactly the events that the run told, in order and numbered
from one, and after them one event of the failure if there is one; it counts the actions that the events
tell of, and its status and count are those of the result if there is one. No execution leaves an event
without its run. -/
theorem history_recorded (s : Action.WhatsApp.Services) (app : Application α)
    (hstandard : app.registry = Action.defaults s) (limit : Option Numeral)
    (sleep : Binary64 → Task (World α) Unit) (hook : Event → Task (World α) Unit) (r : RunRequest)
    (w : World α) (hsleep : ∀ seconds, World.ReadsOnly (sleep seconds))
    (hhook : ∀ event, World.ReadsOnly (hook event)) (htables : w.database.tables.isSome) :
    let e := app.engineWithin limit sleep
    let final := (e.execute r hook).runOn w
    let told := (e.attempted r hook w).2.events
    (w.database.Records r.executionId →
      final.1 = .error (.failure (.executionConflict (.str r.executionId) w.now)) ∧
        final.2.database = w.database) ∧
    (¬w.database.Records r.executionId → w.database.Eventless r.executionId →
      (∃ result, final.1 = .ok result) ∨ (∃ f, final.1 = .error (.failure f)) →
      ∃ record, (loadRun r.executionId).runOn final.2 = (.ok record, final.2) ∧
        record.events.map EventRow.content = (told ++ closing final.1).map Event.content ∧
        record.events.map (·.sequence) = List.range' 1 record.events.length ∧
        (∀ event ∈ told, event.kind.label ≠ EventKind.failed.label) ∧
        record.row.actionsExecuted =
          record.events.countP (·.eventType = EventKind.actionExecuted.label) ∧
        ∀ result, final.1 = .ok result →
          record.row.status = result.status ∧ record.row.actionsExecuted = result.actionsExecuted) ∧
    (w.database.Attached → final.2.database.Attached) := by
  intro e final told
  have hactions : ∀ entry ∈ app.registry.entries, Action.Discreet entry.run := by
    rw [hstandard]
    exact Action.defaults_discreet s
  refine ⟨execute_taken, fun hfree hfresh hended => ?_, fun hattached => ?_⟩
  · have hopen : (e.opening r w).1 = .ok () := opening_of_free htables hfree
    have hchronicle := attempted_chronicle hactions hsleep hhook hfresh hopen
    obtain ⟨record, hload, hrecounts, hresult⟩ := execute_recounts hopen hchronicle hended
    exact ⟨record, hload, hrecounts.content, hrecounts.numbers, hchronicle.quiet, hrecounts.executed,
      hresult⟩
  · by_cases hrecords : w.database.Records r.executionId
    · rw [(execute_taken hrecords).2]
      exact hattached
    · have hopen : (e.opening r w).1 = .ok () := opening_of_free htables hrecords
      have hchronicle := attempted_chronicle hactions hsleep hhook (hattached _ hrecords) hopen
      obtain ⟨⟨sh, hsh, hrows⟩, hothers⟩ := execute_shares hopen hchronicle
      exact attached_of_shares hattached hsh hrows hothers

def updateRequest : RunRequest where
  workflow := { nodes := [⟨"only", actionType, [("action", .str Action.Crm.name), ("status", .str "won")]⟩] }
  tenantId := "tenant"
  clientId := "client"
  triggerType := "manual"
  executionId := "run"
  maxActions := 5

def standard : Application Unit :=
  withActions (Action.defaults { cipher := ⟨fun block => block⟩, client := {} })

def updateRun (w : World Unit) : Outcome RunResult × World Unit :=
  ((standard.engineWithin none noWait).execute updateRequest noHook).runOn w

theorem history_recorded_update :
    ∃ record, (loadRun "run").runOn (updateRun emptyWorld).2 = (.ok record, (updateRun emptyWorld).2) ∧
      record.events.map (·.sequence) = List.range' 1 record.events.length ∧
      record.row.status = .completed ∧ record.row.actionsExecuted = 1 := by
  obtain ⟨-, hfree, -⟩ := history_recorded { cipher := ⟨fun block => block⟩, client := {} } standard rfl
    none noWait noHook updateRequest emptyWorld (fun _ _ => rfl) (fun _ _ => rfl) rfl
  have hnone : ¬emptyWorld.database.Records "run" := by
    rintro ⟨t, ht, row, hrow, -⟩
    cases ht
    cases hrow
  have hfresh : emptyWorld.database.Eventless "run" := by
    rintro t ht e he
    cases ht
    cases he
  have hok : (updateRun emptyWorld).1 = .ok ⟨"run", .completed, 1, none⟩ := rfl
  obtain ⟨record, hload, -, hnumbers, -, -, hresult⟩ := hfree hnone hfresh (.inl ⟨_, hok⟩)
  exact ⟨record, hload, hnumbers, hresult _ hok⟩

/-- A world in which an event was recorded under the id of the request, but no run. -/
def strayWorld : World Unit := ((recorder.record "run" .info "note" []).runOn emptyWorld).2

/-- An id that is not fresh mixes the records. The second execution of a request raises a failure, but the
record under its id is the one of the first execution, in which no event tells of a failure; and an event
that was recorded under the id before stands among those of the run. -/
theorem history_of_used_id :
    ((updateRun (updateRun emptyWorld).2).1 = .error (.failure (.executionConflict (.str "run") ⟨0⟩)) ∧
      ∃ record, (loadRun "run").runOn (updateRun (updateRun emptyWorld).2).2 =
          (.ok record, (updateRun (updateRun emptyWorld).2).2) ∧
        record.row.status = .completed ∧ record.events.length = 2 ∧
        ∀ event ∈ record.events, event.eventType ≠ EventKind.failed.label) ∧
    ((updateRun strayWorld).1 = .ok ⟨"run", .completed, 1, none⟩ ∧
      ((standard.engineWithin none noWait).attempted updateRequest noHook strayWorld).2.events.length = 2 ∧
      ∃ record, (loadRun "run").runOn (updateRun strayWorld).2 = (.ok record, (updateRun strayWorld).2) ∧
        record.events.length = 3) := by
  refine ⟨⟨rfl, _, runOn_loadRun_single rfl rfl, rfl, ?_, fun event hevent => ?_⟩,
    rfl, rfl, _, runOn_loadRun_single rfl rfl, ?_⟩
  · rw [List.length_mergeSort]
    rfl
  · rw [List.mem_mergeSort] at hevent
    revert event
    decide
  · rw [List.length_mergeSort]
    rfl

end Application

end Cadence
