import Cadence.Proofs.RecordedRuns

/-!
# The standard actions

The standard actions read the database but do not write to it, and their answers do not name a node. So
the event of an executed action names the node that was executed.
-/

namespace Cadence

open Workflow Storage

namespace Action

variable {α : Type}

/-- An action that leaves the database alone and does not name a node in its answers. -/
structure Discreet (run : Handler (World α)) : Prop where
  readsOnly : ∀ call context, World.ReadsOnly (run call context)
  unnamed : ∀ call context w result, ((run call context).runOn w).1 = .ok (.obj result) →
    Members.get? result "nodeId" = none

def Unnamed (v : Json) : Prop := ∀ result, v = .obj result → Members.get? result "nodeId" = none

theorem discreet_of_leads {run : Handler (World α)}
    (h : ∀ call context db, Task.Leads (fun w => w.database = db) (run call context)
      (fun v w => w.database = db ∧ Unnamed v) (fun _ w => w.database = db)) : Discreet run where
  readsOnly call context w := by
    have hw := h call context w.database w rfl
    rcases hr : (run call context).runOn w with ⟨f | v, w'⟩ <;> simp only [hr] at hw
    · exact hw
    · exact hw.1
  unnamed call context w result hresult := by
    have hw := h call context w.database w rfl
    rcases hr : (run call context).runOn w with ⟨f | v, w'⟩ <;> rw [hr] at hresult <;> cases hresult
    simp only [hr] at hw
    exact hw.2 result rfl

theorem accessToken_readsOnly (s : WhatsApp.Services) (call : ActionCall) (context : RunContext) :
    World.ReadsOnly (WhatsApp.accessToken s call context : Task (World α) String) := by
  refine World.readsOnly_of_keeps fun db => ?_
  unfold WhatsApp.accessToken
  refine Task.Keeps.bind (fun w hw => ?_) fun row? => ?_
  · rw [World.runOn_store]
    show ((CredentialStore.current _ w.now).runOn w.database).2 = db
    unfold CredentialStore.current
    rw [Task.runOn_bind, runOn_tablesOr]
    rcases w.database.tables with _ | t <;> exact hw
  · cases row? with
    | some row => exact Task.Keeps.bind Task.Keeps.get fun w => Task.Keeps.lift _
    | none => exact Task.Keeps.bind Task.Keeps.get fun w => Task.Keeps.throw _

theorem request_readsOnly (s : WhatsApp.Services) (token phoneNumberId : String) (m : Provider.Message) :
    World.ReadsOnly (WhatsApp.request s token phoneNumberId m : Task (World α) (Outcome Provider.Response)) :=
  fun _ => rfl

/-- The answer of the provider is a part of the answer of the action, and cannot name a node in it. -/
theorem sendTemplate_discreet (s : WhatsApp.Services) :
    Discreet (WhatsApp.sendTemplate s : Handler (World α)) := by
  refine discreet_of_leads fun call context db => ?_
  have hthrow (f : Fault) : Task.Leads (fun w : World α => w.database = db) (throw f)
      (fun v w => w.database = db ∧ Unnamed v) (fun _ w => w.database = db) := Task.Leads.throw fun _ hw => hw
  have hanswer (members : Members) (hnone : members.get? "nodeId" = none) :
      Task.Leads (fun w : World α => w.database = db) (pure (.obj members))
        (fun v w => w.database = db ∧ Unnamed v) (fun _ w => w.database = db) :=
    fun w hw => ⟨hw, fun result hresult => by cases hresult; exact hnone⟩
  have hlift (o : Outcome String) : Task.Leads (fun w : World α => w.database = db) (o : Task (World α) String)
      (fun _ w => w.database = db) (fun _ w => w.database = db) :=
    Task.Leads.lift (fun _ _ _ h => h) (fun _ _ _ h => h)
  unfold WhatsApp.sendTemplate
  refine Task.Leads.bind (Task.Keeps.leads Task.Keeps.get) fun w => ?_
  refine Task.Leads.bind (hlift _) fun recipient => Task.Leads.bind (hlift _) fun template => ?_
  dsimp only
  split
  · exact hthrow _
  · split
    · exact hanswer _ rfl
    · refine Task.Leads.bind ((accessToken_readsOnly s call context).keeps db).leads fun token => ?_
      refine Task.Leads.bind (hlift _) fun phoneNumberId => ?_
      split
      · exact hthrow _
      · refine Task.Leads.bind (hlift _) fun language => ?_
        refine Task.Leads.bind ((request_readsOnly s token _ _).keeps db).leads fun outcome => ?_
        rcases outcome with fault | response
        · cases fault <;> exact hthrow _
        · dsimp only
          split
          · exact hanswer _ rfl
          · exact hthrow _

theorem updateStatus_discreet : Discreet (Crm.updateStatus : Handler (World α)) := by
  refine discreet_of_leads fun call context db => ?_
  unfold Crm.updateStatus
  refine Task.Leads.bind (Task.Leads.lift (fun _ _ _ h => h) (fun _ _ _ h => h)) fun status => ?_
  by_cases hstatus : status = ""
  · simp only [hstatus, if_true]
    exact fun w hw => hw
  · simp only [hstatus, if_false]
    exact Task.Leads.pure fun w hw => ⟨hw, fun result hresult => by cases hresult; rfl⟩

theorem send_discreet (dryRun : Bool) : Discreet (Email.send dryRun : Handler (World α)) := by
  refine discreet_of_leads fun call context db => ?_
  unfold Email.send
  refine Task.Leads.bind (Task.Leads.lift (fun _ _ _ h => h) (fun _ _ _ h => h)) fun recipient => ?_
  refine Task.Leads.bind (Task.Leads.lift (fun _ _ _ h => h) (fun _ _ _ h => h)) fun template => ?_
  by_cases hlacking : recipient = "" ∨ template = ""
  · simp only [hlacking, if_true]
    exact fun w hw => hw
  · simp only [hlacking, if_false]
    exact Task.Leads.pure fun w hw => ⟨hw, fun result hresult => by cases hresult; rfl⟩

theorem defaults_discreet (s : WhatsApp.Services) :
    ∀ entry ∈ (defaults s : Registry (World α)).entries, Discreet entry.run := by
  intro entry hentry
  simp only [defaults, List.mem_cons, List.not_mem_nil, or_false] at hentry
  rcases hentry with rfl | rfl | rfl
  · exact sendTemplate_discreet s
  · exact send_discreet s.dryRun
  · exact updateStatus_discreet

theorem dispatch_discreet {registry : Registry (World α)} {clock : World α → Instant}
    (h : ∀ entry ∈ registry.entries, Discreet entry.run) : Discreet (registry.dispatch clock) where
  readsOnly call context w := by
    rcases Application.dispatch_cases registry clock call context w with
      ⟨f, hrun⟩ | ⟨entry, hentry, named, hrun⟩
    · rw [hrun]
    · rw [hrun]
      exact (h entry hentry).readsOnly named context w
  unnamed call context w result hresult := by
    rcases Application.dispatch_cases registry clock call context w with
      ⟨f, hrun⟩ | ⟨entry, hentry, named, hrun⟩
    · rw [hrun] at hresult
      cases hresult
    · rw [hrun] at hresult
      exact (h entry hentry).unnamed named context w result hresult

section OnNode
variable {run : Handler (World α)} (h : Discreet run) (node : Node) (context : RunContext)
include h

theorem onNode_readsOnly : World.ReadsOnly (run.onNode node context) := by
  intro w
  rw [Runtime.runOn_onNode]
  cases actionCall node with
  | ok call => exact h.readsOnly call context w
  | error f => rfl

theorem onNode_unnamed (w : World α) (result : Members)
    (hresult : ((run.onNode node context).runOn w).1 = .ok (.obj result)) :
    Members.get? result "nodeId" = none := by
  obtain ⟨call, -, hcalled⟩ := Runtime.called_of_onNode_ok hresult
  exact h.unnamed call context w result hcalled

end OnNode

end Action

end Cadence
