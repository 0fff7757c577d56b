import Cadence.Proofs.RunHistory
import Mathlib.Data.List.Forall2

/-!
# Events and their nodes

A run tells of its nodes one after the other, and every event is filed under the node that its payload names. The
result of an action comes last in the payload of its event: where it has a value in the place of the node, the
event is filed under that value, and under none if no column can hold it.
-/

namespace Cadence

open Workflow Storage

/-! ### Which node an event names -/

namespace Workflow.Runtime

variable {σ : Type} {env : Surroundings σ} {r : RunRequest} {node : Node}

/-- What an event of a node names in the place of the node: the node, unless it is the event of a result that
names something else. -/
inductive Names (env : Surroundings σ) (r : RunRequest) (node : Node) (e : Event) : Prop where
  | own (notExecuted : e.kind ≠ .actionExecuted) (named : e.payload.get? "nodeId" = some (.str node.id))
  | result {world : σ} {result : Members} (isAction : node.type = actionType) (executed : e.kind = .actionExecuted)
      (answer : ((env.dispatch node r.context).runOn world).1 = .ok (.obj result))
      (named : e.payload.get? "nodeId" = some ((result.last? "nodeId").getD (.str node.id)))

theorem Tells.names {e : Event} (h : Tells env r node e) : Names env r node e := by
  have hown {level : EventLevel} {kind : EventKind} {more : Members} (hmore : more.get? "nodeId" = none) :
      (Event.about node.id level kind more).payload.get? "nodeId" = some (.str node.id) :=
    Members.get?_setAll_absent hmore _
  cases h with
  | enter => exact .own EventKind.noConfusion (hown rfl)
  | outcome _ notExecuted _ noNode => exact .own notExecuted (hown noNode)
  | @executed world result isAction answer =>
    refine .result isAction rfl answer ?_
    show (Members.setAll [("nodeId", .str node.id)] result).get? "nodeId" = _
    rw [Members.get?_setAll]
    cases result.last? "nodeId" <;> rfl

/-- The events since a point of a run are ones that the node tells. -/
def ToldSince (env : Surroundings σ) (r : RunRequest) (node : Node) (before : List Event) (p : Progress σ) : Prop :=
  ∃ group, p.events = before ++ entry node :: group ∧ ∀ e ∈ entry node :: group, Tells env r node e

theorem toldSince_stepInvariant (before : List Event) :
    StepInvariant env r node (ToldSince env r node before) where
  told e p he h := by
    obtain ⟨group, hevents, htells⟩ := h
    refine ⟨group ++ [e], ?_, fun other hother => ?_⟩
    · rw [told, hevents, List.append_assoc, List.cons_append]
    · rw [← List.cons_append] at hother
      rcases List.mem_append.mp hother with hother | hother
      · exact htells other hother
      · exact List.mem_singleton.mp hother ▸ he
  slept _ _ h := h
  counted _ _ h := h
  acted _ _ h := h

theorem runNode_toldSince (p : Progress σ) : ToldSince env r node p.events ((runNode env r node).runOn p).2 := by
  have hentered : ToldSince env r node p.events (told env (entry node) p) :=
    ⟨[], rfl, fun e he => List.mem_singleton.mp he ▸ .enter⟩
  rw [runOn_runNode]
  cases tellingOutcome env (entry node) p.world with
  | error f => exact hentered
  | ok done => exact (toldSince_stepInvariant p.events).body_keeps _ hentered

/-- The events of a node that was entered. -/
def GroupOf (env : Surroundings σ) (r : RunRequest) (node : Node) (group : List Event) : Prop :=
  group.head? = some (entry node) ∧ ∀ e ∈ group, Tells env r node e

theorem runNodes_grouped (env : Surroundings σ) (r : RunRequest) (nodes : List Node) (p : Progress σ) :
    ∃ entered groups, entered <+: nodes ∧
      ((runNodes env r nodes).runOn p).2.events = p.events ++ groups.flatten ∧
      List.Forall₂ (GroupOf env r) entered groups := by
  -- The induction is on the nodes; what was told before the first of them is general.
  induction nodes generalizing p with
  | nil => exact ⟨[], [], List.prefix_rfl, (List.append_nil _).symm, .nil⟩
  | cons node rest ih =>
    have htoldSince : ToldSince env r node p.events ((runNode env r node).runOn p).2 := runNode_toldSince p
    obtain ⟨group, hevents, htells⟩ := htoldSince
    have hgroup : GroupOf env r node (entry node :: group) := ⟨rfl, htells⟩
    have hone : [node] <+: node :: rest := ⟨rest, rfl⟩
    rw [runOn_runNodes_cons]
    rcases hrun : (runNode env r node).runOn p with ⟨f | ⟨⟨⟩⟩, q⟩ <;> rw [hrun] at hevents
    · exact ⟨[node], [_], hone, by simpa using hevents, .cons hgroup .nil⟩
    · obtain ⟨entered, groups, hstart, hrest, hgroups⟩ := ih q
      refine ⟨node :: entered, (entry node :: group) :: groups, (List.prefix_cons_inj node).mpr hstart, ?_,
        .cons hgroup hgroups⟩
      dsimp only at hevents ⊢
      rw [hrest, hevents, List.flatten_cons, List.append_assoc]
    · exact ⟨[node], [_], hone, by simpa using hevents, .cons hgroup .nil⟩

/-- Whatever the hook does, the events of a run come in groups, one for each node of a first part of the
workflow, and all events of a group are told by its node. -/
theorem run_grouped (env : Surroundings σ) (r : RunRequest) (w : σ) :
    ∃ entered groups, entered <+: r.workflow.nodes ∧
      ((run env r).runOn { world := w }).2.events = groups.flatten ∧
      List.Forall₂ (GroupOf env r) entered groups := by
  obtain ⟨entered, groups, hstart, hevents, hgroups⟩ := runNodes_grouped env r r.workflow.nodes { world := w }
  refine ⟨entered, groups, hstart, ?_, hgroups⟩
  rw [runOn_run]
  rcases hrun : (runNodes env r r.workflow.nodes).runOn { world := w } with ⟨f | stoppedAt, q⟩ <;> rw [hrun] at hevents
  · exact hevents
  · exact hevents

end Workflow.Runtime

/-! ### Which events are stored -/

namespace Storage

/-- The events that a column can hold the node of, with the numbers at which they were told. -/
def filed (told : List Event) : List (Nat × EventLevel × String × Option (Option String) × Members) :=
  (told.zipIdx 1).filterMap fun (e, number) => (namedNode? e.payload).map fun _ => (number, e.content)

theorem filed_append (told : List Event) (e : Event) :
    filed (told ++ [e]) =
      filed told ++ ((namedNode? e.payload).map fun _ => (told.length + 1, e.content)).toList := by
  unfold filed
  rw [List.zipIdx_append, List.filterMap_append, Nat.add_comm 1]
  cases hnode : namedNode? e.payload <;> simp [hnode]

/-- A share holds, after earlier events, what was told of a run, with the numbers it was told at. -/
structure Share.Files (earlier : List EventRow) (sh : Share) (told : List Event) : Prop where
  stored : ∃ new, sh.events = earlier ++ new ∧ new.map (fun row => (row.sequence, row.content)) = filed told
  last : sh.last = told.length

variable {earlier : List EventRow} {sh : Share} {told : List Event} {e : Event}

theorem Share.Files.noted (h : sh.Files earlier told) {id : String} {node : Option String} {now : Instant}
    (hnode : namedNode? e.payload = some node) :
    (sh.noted ⟨id, sh.last + 1, e.level, e.kind.label, node, e.payload, now⟩).Files earlier (told ++ [e]) where
  stored := by
    obtain ⟨new, hevents, hnew⟩ := h.stored
    refine ⟨new ++ [⟨id, sh.last + 1, e.level, e.kind.label, node, e.payload, now⟩], ?_, ?_⟩
    · rw [Share.noted, hevents, List.append_assoc]
    · rw [List.map_append, hnew, filed_append, hnode, h.last]
      simp only [List.map_singleton, EventRow.content, Event.content, hnode, Option.map_some, Option.toList_some]
  last := by rw [Share.noted, List.length_append, h.last]; rfl

theorem Share.Files.skipped (h : sh.Files earlier told) (hnode : namedNode? e.payload = none) :
    sh.skipped.Files earlier (told ++ [e]) where
  stored := by
    obtain ⟨new, hevents, hnew⟩ := h.stored
    refine ⟨new, hevents, ?_⟩
    rw [hnew, filed_append, hnode, Option.map_none, Option.toList_none, List.append_nil]
  last := by rw [Share.skipped, List.length_append, h.last]; rfl

theorem label_eq_executed {kind : EventKind} :
    kind.label = EventKind.actionExecuted.label ↔ kind = .actionExecuted := by
  cases kind <;> decide

/-- Of the actions that were told, those are stored whose event has a node that a column can hold. -/
theorem countP_stored {new : List EventRow} (h : new.map (fun row => (row.sequence, row.content)) = filed told) :
    new.countP (·.eventType = EventKind.actionExecuted.label) =
      told.countP (fun e => e.kind = .actionExecuted ∧ (namedNode? e.payload).isSome) := by
  have hnew : new.countP (·.eventType = EventKind.actionExecuted.label) =
      (filed told).countP (·.2.2.1 = EventKind.actionExecuted.label) := by
    rw [← h, List.countP_map]
    rfl
  have htold : told.countP (fun e => e.kind = .actionExecuted ∧ (namedNode? e.payload).isSome) =
      (told.zipIdx 1).countP (fun (e, _) => e.kind = .actionExecuted ∧ (namedNode? e.payload).isSome) := by
    conv_lhs => rw [← List.zipIdx_map_fst 1 told, List.countP_map]
    rfl
  rw [hnew, htold, filed, List.countP_filterMap]
  refine List.countP_congr fun entry _ => ?_
  obtain ⟨e, number⟩ := entry
  cases hnode : namedNode? e.payload <;> simp [hnode, Event.content, label_eq_executed]

theorem countP_and_eq_iff {α : Type} (p q : α → Bool) (items : List α) :
    items.countP (fun a => p a && q a) = items.countP p ↔ ∀ a ∈ items, p a = true → q a = true := by
  induction items with
  | nil => exact iff_of_true rfl fun a ha => absurd ha List.not_mem_nil
  | cons a rest ih =>
    have hle : rest.countP (fun a => p a && q a) ≤ rest.countP p :=
      List.countP_mono_left fun _ _ h => (Bool.and_eq_true_iff.mp h).1
    rw [List.countP_cons, List.countP_cons, List.forall_mem_cons, ← ih]
    cases hp : p a with
    | false => simp
    | true =>
      cases hq : q a with
      | false => simp; omega
      | true => simp

theorem countP_stored_eq_iff {new : List EventRow}
    (h : new.map (fun row => (row.sequence, row.content)) = filed told) :
    new.countP (·.eventType = EventKind.actionExecuted.label) = told.countP (·.kind = .actionExecuted) ↔
      ∀ e ∈ told, e.kind = .actionExecuted → (namedNode? e.payload).isSome := by
  have hiff := countP_and_eq_iff (fun e : Event => decide (e.kind = .actionExecuted))
    (fun e => (namedNode? e.payload).isSome) told
  simp only [decide_eq_true_eq] at hiff
  rw [countP_stored h, ← hiff]
  simp only [Bool.decide_and, Bool.decide_eq_true]

end Storage

/-! ### The events of an execution -/

namespace Application

variable {α : Type} {app : Application α} {limit : Option Numeral}
  {sleep : Binary64 → Task (World α) Unit} {hook : Event → Task (World α) Unit} {r : RunRequest}
  {w : World α} {earlier : List EventRow} {row : RunRow}

/-- The share of a run that is going on: its row is as it was at the start, and its events are filed. -/
def Filing (id : String) (row : RunRow) (earlier : List EventRow) (w : World α) (told : List Event) : Prop :=
  ∃ sh, w.share id = some sh ∧ sh.rows = [row] ∧ sh.Files earlier told

theorem Filing.of_share {id : String} {w' : World α} {told : List Event} (h : Filing id row earlier w told)
    (hw : w'.share id = w.share id) : Filing id row earlier w' told := by
  obtain ⟨sh, hsh, hfiles⟩ := h
  exact ⟨sh, hw.trans hsh, hfiles⟩

theorem Filing.tell (hhook : ∀ event, World.Spares r.executionId (hook event)) {told : List Event}
    (h : Filing r.executionId row earlier w told) (e : Event) :
    Filing r.executionId row earlier
      ((((app.engineWithin limit sleep).surroundings r hook).hook e).runOn w).2 (told ++ [e]) := by
  obtain ⟨sh, hsh, hrows, hfiles⟩ := h
  show Filing r.executionId row earlier (Task.runOn (World.store (RunLog.record r.executionId e.level
    e.kind.label e.payload) >>= fun _ => hook e) w).2 (told ++ [e])
  cases hnode : namedNode? e.payload with
  | none =>
    obtain ⟨w', hrun, hshare⟩ := store_record_skipped e.level e.kind.label hsh hnode
    rw [Task.runOn_bind_error hrun]
    exact ⟨sh.skipped, hshare, hrows, hfiles.skipped hnode⟩
  | some named =>
    obtain ⟨w', hrun, -, hshare⟩ := store_record e.level e.kind.label hsh hnode
    rw [Task.runOn_bind_ok hrun]
    exact ⟨_, (hhook e w').trans hshare, hrows, hfiles.noted hnode⟩

theorem filing_stepInvariant (hcode : Undisturbed app sleep hook r.executionId) (node : Node) :
    Runtime.StepInvariant ((app.engineWithin limit sleep).surroundings r hook) r node
      (fun p => Filing r.executionId row earlier p.world p.events) where
  told e _ _ h := h.tell hcode.hook e
  slept seconds p h := h.of_share (hcode.sleep seconds p.world)
  counted _ _ h := h
  acted _ p h := by
    simp only [Runtime.acted, surroundings_dispatch]
    exact h.of_share (onNode_spares (dispatch_spares hcode.actions) node r.context p.world)

theorem attempted_filing (hcode : Undisturbed app sleep hook r.executionId)
    (hopen : ((app.engineWithin limit sleep).opening r w).1 = .ok ()) :
    ∃ before, w.share r.executionId = some before ∧
      Filing r.executionId ((Engine.startOf r).row w.now) before.events
        ((app.engineWithin limit sleep).attempted r hook w).2.world
        ((app.engineWithin limit sleep).attempted r hook w).2.events := by
  obtain ⟨before, hbefore, -, hopened⟩ := opening_share hopen
  refine ⟨before, hbefore, ?_⟩
  exact Engine.attempted_keeps _ r hook w (filing_stepInvariant hcode)
    ⟨_, hopened, rfl, ⟨[], (List.append_nil _).symm, rfl⟩, rfl⟩

theorem attempted_grouped (app : Application α) (limit : Option Numeral)
    (sleep : Binary64 → Task (World α) Unit) (hook : Event → Task (World α) Unit) (r : RunRequest) (w : World α) :
    ∃ entered groups, entered <+: r.workflow.nodes ∧
      ((app.engineWithin limit sleep).attempted r hook w).2.events = groups.flatten ∧
      List.Forall₂ (Runtime.GroupOf ((app.engineWithin limit sleep).surroundings r hook) r) entered groups := by
  unfold Engine.attempted Engine.attemptRun
  split
  · exact ⟨[], [], List.nil_prefix, rfl, .nil⟩
  · exact Runtime.run_grouped _ r _

/-- In every run whose record is opened, the events come in groups of the nodes in order, and every event names
its node unless it is the result of an action with a value in that place. The record takes up those events whose
node a column can hold, under the numbers at which they were told and in this order, and after them at most one
event of a failure. It has as many events of actions as the result says if and only if none of these is lost. -/
theorem events_filed (app : Application α) (limit : Option Numeral)
    (sleep : Binary64 → Task (World α) Unit) (hook : Event → Task (World α) Unit) (r : RunRequest)
    (w : World α) (hcode : Undisturbed app sleep hook r.executionId)
    (hopen : ((app.engineWithin limit sleep).opening r w).1 = .ok ()) :
    let e := app.engineWithin limit sleep
    let told := (e.attempted r hook w).2.events
    let final := (e.execute r hook).runOn w
    (∃ entered groups, entered <+: r.workflow.nodes ∧ told = groups.flatten ∧
      List.Forall₂ (fun node group => group.head? = some (Runtime.entry node) ∧
        ∀ event ∈ group, Runtime.Names (e.surroundings r hook) r node event) entered groups) ∧
    ∃ before after new closing,
      w.share r.executionId = some before ∧ final.2.share r.executionId = some after ∧
      after.events = before.events ++ new ++ closing ∧
      new.map (fun row => (row.sequence, row.content)) = filed told ∧
      (closing = [] ∨ ∃ row, closing = [row] ∧ row.eventType = EventKind.failed.label) ∧
      ∀ result, final.1 = .ok result → closing = [] ∧
        ((new.countP (·.eventType = EventKind.actionExecuted.label) : Int) = result.actionsExecuted ↔
          ∀ event ∈ told, event.kind = .actionExecuted → (namedNode? event.payload).isSome) := by
  intro e told final
  obtain ⟨before, hbefore, sh, hsh, hrow, ⟨new, hevents, hnew⟩, -⟩ := attempted_filing hcode hopen
  have hrows := Share.rows_ne_nil hrow
  refine ⟨?_, before, ?_⟩
  · obtain ⟨entered, groups, hstart, htold, hgroups⟩ := attempted_grouped app limit sleep hook r w
    exact ⟨entered, groups, hstart, htold, hgroups.imp fun _ _ h => ⟨h.1, fun event hevent => (h.2 event hevent).names⟩⟩
  rcases hending : (e.attempted r hook w).1 with fault | result
  · cases hleft : fault.leavesOpen with
    | true =>
      obtain ⟨w', hrun, hshare⟩ := execute_open hopen hending hleft
      rw [show final = _ from hrun]
      exact ⟨sh, new, [], hbefore, hshare.trans hsh, by rw [hevents, List.append_nil], hnew, .inl rfl,
        fun result hresult => by cases hresult⟩
    | false =>
      obtain ⟨w', hrun, hshare⟩ := execute_failed hopen hsh hrows hending hleft
      rw [show final = _ from hrun]
      exact ⟨_, new, [_], hbefore, hshare, congrArg (· ++ _) hevents, hnew, .inr ⟨_, rfl, rfl⟩,
        fun result hresult => by cases hresult⟩
  · obtain ⟨w', hrun, hshare⟩ := execute_result hopen hsh hrows hending
    rw [show final = _ from hrun]
    refine ⟨_, new, [], hbefore, hshare, hevents.trans (List.append_nil _).symm, hnew, .inl rfl, ?_⟩
    rintro _ ⟨⟩
    refine ⟨rfl, ?_⟩
    rw [attempted_settled hending, executedActions_eq_countP, Int.natCast_inj]
    exact countP_stored_eq_iff hnew

/-- An application whose one action answers with an object. -/
def answering (result : Members) : Application Unit :=
  withActions ⟨[⟨"answer", fun _ _ => return .obj result⟩], [("answer", "Answers with an object")]⟩

def answerRequest : RunRequest where
  workflow := { nodes := [⟨"only", actionType, [("action", .str "answer")]⟩] }
  tenantId := "tenant"
  clientId := "client"
  triggerType := "manual"
  executionId := "run"
  maxActions := 5

def answeringRun (result : Members) : Outcome RunResult × World Unit :=
  (((answering result).engineWithin none noWait).execute answerRequest noHook).runOn emptyWorld

theorem answering_undisturbed (result : Members) : Undisturbed (answering result) noWait noHook "run" where
  actions entry hentry call context := by
    rw [List.mem_singleton.mp hentry]
    exact fun _ => rfl
  sleep _ _ := rfl
  hook _ _ := rfl

theorem events_filed_sent :
    ∃ after, (answeringRun [("status", .str "sent")]).2.share "run" = some after ∧
      (answeringRun [("status", .str "sent")]).1 = .ok ⟨"run", .completed, 1, none⟩ ∧
      after.events.countP (·.eventType = EventKind.actionExecuted.label) = 1 := by
  obtain ⟨-, before, after, new, closing, hbefore, hafter, hevents, -, -, hcount⟩ :=
    events_filed (answering [("status", .str "sent")]) none noWait noHook answerRequest emptyWorld
      (answering_undisturbed _) rfl
  have hresult : (answeringRun [("status", .str "sent")]).1 = .ok ⟨"run", .completed, 1, none⟩ := rfl
  obtain ⟨rfl, hstored⟩ := hcount _ hresult
  cases hbefore
  have hnew : after.events = new := hevents.trans (List.append_nil new)
  refine ⟨after, hafter, hresult, ?_⟩
  rw [hnew]
  refine Int.natCast_inj.mp (hstored.mpr fun event hevent _ => ?_)
  revert event
  decide

/-- The result of an action can put its event under another node, and can keep it from being stored. -/
theorem result_misfiles_event :
    ((answeringRun [("nodeId", .str "other")]).1 = .ok ⟨"run", .completed, 1, none⟩ ∧
      ((answeringRun [("nodeId", .str "other")]).2.share "run").map (fun sh => sh.events.map (·.nodeId)) =
        some [some "only", some "other"]) ∧
    (answeringRun [("nodeId", .arr [])]).1 = .ok ⟨"run", .completed, 1, none⟩ ∧
      ((answeringRun [("nodeId", .arr [])]).2.share "run").map (fun sh => sh.events.map (·.eventType)) =
        some [EventKind.nodeEnter.label] :=
  ⟨⟨rfl, rfl⟩, rfl, rfl⟩

end Application

end Cadence
