import Cadence.Proofs.LineUse
import Cadence.Proofs.ResolvedPaths

/-!
# Faults of the standard actions

The engine passes a fault of a run on as it is, except where time ran out and where the fault cannot be logged. The
standard actions end in no such fault as long as the provider answers or cannot be reached.
-/

namespace Cadence

open Workflow Storage

/-- The engine passes the fault on as it is. -/
structure Fault.Plain (fault : Fault) : Prop where
  inTime : fault.isTimeout = false
  loggable : fault.unlogged? = none

namespace Workflow

theorem plain_of_names {f : Failure} (h : Engine.clashingField? f.context = none) : (Fault.failure f).Plain where
  inTime := rfl
  loggable := congrArg (Option.map Fault.reservedField) h

/-- A context that notes a node, unless its id is empty, can be logged if it can in both cases. -/
theorem clash_noted {c : Members Detail → Members Detail} (hnone : Engine.clashingField? (c []) = none)
    (hnoted : ∀ id, Engine.clashingField? (c [("node_id", .known (.str id))]) = none) (id : String) :
    Engine.clashingField? (c (Failure.noted "node_id" id)) = none := by
  unfold Failure.noted
  split
  · exact hnone
  · exact hnoted id

theorem capFault_plain (r : RunRequest) (node : Node) (now : Instant) : (Runtime.capFault r node now).Plain :=
  plain_of_names (clash_noted (c := Members.setAll []) rfl (fun _ => rfl) node.id)

end Workflow

namespace Secret.Cipher

theorem decrypt_plain {cipher : Cipher} {token : String} {now : Instant} {fault : Fault}
    (h : cipher.decrypt token now = .error fault) : fault.Plain := by
  unfold decrypt at h
  split at h
  · cases h
    exact plain_of_names rfl
  · split at h
    · cases h
      exact plain_of_names rfl
    · unfold readSecret at h
      split at h <;> cases h
      exact ⟨rfl, rfl⟩

end Secret.Cipher

namespace Action

variable {α : Type}

/-- A task that keeps the provider answering ends in plain faults only. -/
def EndsPlainly {β : Type} (t : Task (World α) β) : Prop :=
  Task.Leads (fun w => w.line.Answers) t (fun _ w => w.line.Answers) (fun fault _ => fault.Plain)

section EndsPlainly
variable {β γ : Type}

theorem EndsPlainly.bind {t : Task (World α) β} {f : β → Task (World α) γ} (ht : EndsPlainly t)
    (hf : ∀ b, EndsPlainly (f b)) : EndsPlainly (t >>= f) := Task.Leads.bind ht hf

theorem EndsPlainly.plain {t : Task (World α) β} (h : EndsPlainly t) {w : World α} (hw : w.line.Answers)
    {fault : Fault} (hfault : (t.runOn w).1 = .error fault) : fault.Plain := Task.Leads.loses h hw hfault

theorem endsPlainly_pure (b : β) : EndsPlainly (pure b : Task (World α) β) := Task.Leads.pure fun _ hw => hw

theorem endsPlainly_throw {fault : Fault} (h : fault.Plain) : EndsPlainly (throw fault : Task (World α) β) :=
  Task.Leads.throw fun _ _ => h

theorem endsPlainly_get : EndsPlainly (get : Task (World α) (World α)) := fun _ hw => hw

theorem endsPlainly_lift {o : Outcome β} (h : ∀ fault, o = .error fault → fault.Plain) :
    EndsPlainly (liftM o : Task (World α) β) :=
  Task.Leads.lift (fun _ _ _ hw => hw) fun fault _ hfault _ => h fault hfault

end EndsPlainly

theorem lacking_plain (call : ActionCall) (action reason : String) (now : Instant) :
    (lacking call action reason now).Plain :=
  plain_of_names
    (clash_noted (c := fun note => Members.setAll (Members.setAll [] note) [("action", .known (.str action))])
      rfl (fun _ => rfl) call.nodeId)

theorem sendFailed_plain (provider : String) (status : Json) (nodeId : String) (reason : Option String)
    (now : Instant) : (Fault.failure (.sendFailed provider status (some nodeId) reason {} now)).Plain :=
  plain_of_names (clash_noted (c := fun note => Members.setAll [] (("provider", .known (.str provider)) :: note)) rfl
    (fun _ => rfl) nodeId)

theorem firstText_plain {candidates : List Json} {fault : Fault} (h : Json.firstText candidates = .error fault) :
    fault.Plain := by
  obtain rfl := Json.firstText_error h
  exact ⟨rfl, rfl⟩

theorem settingText_plain (call : ActionCall) (name : String) :
    EndsPlainly (liftM (settingText call name) : Task (World α) String) :=
  endsPlainly_lift fun _ => firstText_plain

theorem settingOrPayload_plain (call : ActionCall) (context : RunContext) (name path : String) :
    EndsPlainly (liftM (settingOrPayload call context name path) : Task (World α) String) := by
  refine endsPlainly_lift fun fault hfault => ?_
  unfold settingOrPayload at hfault
  cases hread : Payload.readPath (.obj context.triggerPayload) path with
  | ok found =>
    rw [hread] at hfault
    exact firstText_plain hfault
  | error f =>
    rw [hread] at hfault
    cases hfault
    obtain ⟨digits, rfl, -⟩ := Payload.readPath_error.mp hread
    exact ⟨rfl, rfl⟩

theorem accessToken_plain (s : WhatsApp.Services) (call : ActionCall) (context : RunContext) :
    EndsPlainly (WhatsApp.accessToken s call context : Task (World α) String) := by
  unfold WhatsApp.accessToken
  refine EndsPlainly.bind (fun w hw => ?_) fun row? => ?_
  · rw [World.runOn_store, CredentialStore.current, Task.runOn_bind, runOn_tablesOr]
    rcases w.database.tables with _ | t
    · exact plain_of_names rfl
    · exact hw
  · cases row? with
    | some row => exact endsPlainly_get.bind fun w => endsPlainly_lift fun _ => Secret.Cipher.decrypt_plain
    | none => exact endsPlainly_get.bind fun w => endsPlainly_throw (plain_of_names rfl)

theorem headerFault?_plain {value : String} {fault : Fault} (h : Provider.headerFault? value = some fault) :
    fault.Plain := by
  unfold Provider.headerFault? at h
  dsimp only at h
  split at h <;> cases h
  exact ⟨rfl, rfl⟩

theorem request_fault {c : Provider.Client} {token phone : String} {m : Provider.Message} {fault : Fault}
    (h : c.request token phone m = .error fault) : fault.Plain := by
  unfold Provider.Client.request at h
  dsimp only at h
  split at h
  · cases h
    exact ⟨rfl, rfl⟩
  · split at h <;> cases h
    exact headerFault?_plain ‹_›

/-- What comes of a request: an answer, no connection, or a plain fault. -/
def Reached (outcome : Outcome Provider.Response) : Prop :=
  ∀ fault, outcome = .error fault → (∃ name message, fault = .transport name message) ∨ fault.Plain

theorem readAnswer_reached (c : Provider.Client) (answer : Provider.Answer) : Reached (c.readAnswer answer) := by
  intro fault hfault
  obtain ⟨kind, hunread⟩ := Provider.Client.unread_of_error hfault
  cases hfault.symm.trans hunread
  exact .inr ⟨rfl, rfl⟩

theorem request_reached (s : WhatsApp.Services) (token phone : String) (m : Provider.Message) :
    Task.Leads (fun w => w.line.Answers)
      (WhatsApp.request s token phone m : Task (World α) (Outcome Provider.Response))
      (fun outcome w => Reached outcome ∧ w.line.Answers) (fun fault _ => fault.Plain) := by
  intro w hw
  rw [WhatsApp.runOn_request_eq]
  cases hrequest : s.client.request token phone m with
  | error f => exact ⟨fun fault hfault => by cases hfault; exact .inr (request_fault hrequest), hw⟩
  | ok made =>
    refine ⟨?_, hw⟩
    cases hanswer : w.line.transport w.line.received.length made with
    | error f =>
      have hline : (w.line.send made).1 = .error f := hanswer
      rw [hline]
      intro fault hfault
      cases hfault
      exact .inl (hw _ _ _ hanswer)
    | ok answer =>
      have hline : (w.line.send made).1 = .ok answer := hanswer
      rw [hline]
      exact readAnswer_reached s.client answer

theorem sendTemplate_plain (s : WhatsApp.Services) (call : ActionCall) (context : RunContext) :
    EndsPlainly (WhatsApp.sendTemplate s call context : Task (World α) Json) := by
  unfold WhatsApp.sendTemplate
  refine endsPlainly_get.bind fun w => (settingOrPayload_plain call context _ _).bind fun recipient =>
    (settingText_plain call _).bind fun template => ?_
  dsimp only
  split
  · exact endsPlainly_throw (lacking_plain ..)
  · split
    · exact endsPlainly_pure _
    · refine (accessToken_plain s call context).bind fun token => (settingText_plain call _).bind fun phone => ?_
      split
      · exact endsPlainly_throw (lacking_plain ..)
      · refine (settingText_plain call _).bind fun language => ?_
        refine Task.Leads.bind (request_reached s token _ _) fun outcome => Task.Leads.of_and fun hreached => ?_
        rcases outcome with fault | response
        · rcases hreached fault rfl with ⟨name, message, rfl⟩ | hplain
          · exact endsPlainly_throw (sendFailed_plain ..)
          · cases fault with
            | transport _ _ => exact endsPlainly_throw (sendFailed_plain ..)
            | _ => exact endsPlainly_throw hplain
        · dsimp only
          split
          · exact endsPlainly_pure _
          · exact endsPlainly_throw (sendFailed_plain ..)

theorem updateStatus_plain (call : ActionCall) (context : RunContext) :
    EndsPlainly (Crm.updateStatus call context : Task (World α) Json) := by
  unfold Crm.updateStatus
  refine (settingText_plain call _).bind fun status => ?_
  by_cases hstatus : status = ""
  · simp only [hstatus, if_true]
    exact endsPlainly_get.bind fun _ => endsPlainly_throw (lacking_plain ..)
  · simp only [hstatus, if_false]
    exact endsPlainly_pure _

theorem sendEmail_plain (dryRun : Bool) (call : ActionCall) (context : RunContext) :
    EndsPlainly (Email.send dryRun call context : Task (World α) Json) := by
  unfold Email.send
  refine (settingOrPayload_plain call context _ _).bind fun recipient =>
    (settingText_plain call _).bind fun template => ?_
  by_cases hlacking : recipient = "" ∨ template = ""
  · simp only [hlacking, if_true]
    exact endsPlainly_get.bind fun _ => endsPlainly_throw (lacking_plain ..)
  · simp only [hlacking, if_false]
    exact endsPlainly_pure _

theorem defaults_plain (s : WhatsApp.Services) :
    ∀ entry ∈ (defaults s : Registry (World α)).entries, ∀ call context, EndsPlainly (entry.run call context) := by
  intro entry hentry call context
  simp only [defaults, List.mem_cons, List.not_mem_nil, or_false] at hentry
  rcases hentry with rfl | rfl | rfl
  · exact sendTemplate_plain s call context
  · exact sendEmail_plain s.dryRun call context
  · exact updateStatus_plain call context

theorem missingAction_plain (nodeId : String) (now : Instant) :
    (Fault.failure (.missingAction (some nodeId) nodeId now)).Plain :=
  plain_of_names (clash_noted (c := Members.setAll []) rfl (fun _ => rfl) nodeId)

theorem unsupportedAction_plain (action nodeId : String) (now : Instant) :
    (Fault.failure (.unsupportedAction action (some nodeId) now)).Plain :=
  plain_of_names
    (clash_noted (c := fun note => Members.setAll (Members.setAll [] note) [("action", .known (.str action))])
      rfl (fun _ => rfl) nodeId)

theorem runOn_dispatch (registry : Registry (World α)) (call : ActionCall) (context : RunContext) (w : World α) :
    (registry.dispatch (·.now) call context).runOn w =
      if normalizeName call.action = "" then
        (.error (.failure (.missingAction (some call.nodeId) call.nodeId w.now)), w)
      else
        match registry.find? (normalizeName call.action) with
        | none => (.error (.failure (.unsupportedAction (normalizeName call.action) (some call.nodeId) w.now)), w)
        | some entry => (entry.run { call with action := normalizeName call.action } context).runOn w := by
  unfold Registry.dispatch
  rw [Task.runOn_bind_ok (Task.runOn_get w)]
  by_cases hempty : normalizeName call.action = ""
  · simp only [hempty, if_true]
    rfl
  · simp only [hempty, if_false]
    cases registry.find? (normalizeName call.action) <;> rfl

theorem dispatch_plain {registry : Registry (World α)}
    (h : ∀ entry ∈ registry.entries, ∀ call context, EndsPlainly (entry.run call context)) {call : ActionCall}
    {context : RunContext} {w : World α} (hw : w.line.Answers) {fault : Fault}
    (hfault : ((registry.dispatch (·.now) call context).runOn w).1 = .error fault) : fault.Plain := by
  rw [runOn_dispatch] at hfault
  by_cases hempty : normalizeName call.action = ""
  · rw [if_pos hempty] at hfault
    cases hfault
    exact missingAction_plain ..
  · rw [if_neg hempty] at hfault
    cases hfind : registry.find? (normalizeName call.action) with
    | none =>
      rw [hfind] at hfault
      cases hfault
      exact unsupportedAction_plain ..
    | some entry =>
      rw [hfind] at hfault
      exact (h entry (List.mem_of_find?_eq_some hfind) _ _).plain hw hfault

/-- The fault is one in which a dispatch of the standard actions can end. -/
def DefaultFault (α : Type) (fault : Fault) : Prop :=
  ∃ (services : WhatsApp.Services) (call : ActionCall) (context : RunContext) (w : World α), w.line.Answers ∧
    (((defaults services).dispatch (·.now) call context).runOn w).1 = .error fault

theorem DefaultFault.plain {fault : Fault} (h : DefaultFault α fault) : fault.Plain := by
  obtain ⟨services, call, context, w, hline, hfault⟩ := h
  exact dispatch_plain (defaults_plain services) hline hfault

end Action

end Cadence
