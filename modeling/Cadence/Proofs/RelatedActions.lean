import Cadence.Proofs.ClientEffects
import Cadence.Proofs.RecordedRuns

/-!
# The standard actions on related worlds

Two worlds that differ in what an action does not look at stay so, and the action ends alike on both. What has to be
known of the relation is little: the time is the same, the stored access tokens open alike, and sending a message
with either token ends alike.
-/

namespace Cadence

open Workflow Storage

namespace World

variable {α β : Type} {R : World α → World α → Prop}

/-- Related worlds have one time. -/
def OneTime (R : World α → World α → Prop) : Prop := ∀ w w', R w w' → w.now = w'.now

theorem OneTime.now_bind (h : OneTime R) {f g : World α → Task (World α) β}
    (hfg : ∀ w w', R w w' → w.now = w'.now → Task.Agrees R (f w) (g w')) :
    Task.Agrees R (get >>= f) (get >>= g) :=
  Task.Agrees.get_bind fun w w' hw => hfg w w' hw (h w w' hw)

theorem OneTime.throw_now (h : OneTime R) (fault : Instant → Fault) :
    Task.Agrees R (do throw (fault (← get).now) : Task (World α) β) (do throw (fault (← get).now)) :=
  h.now_bind fun w w' _ hnow => by
    rw [hnow]
    exact Task.Agrees.throw _

theorem current_couples {C : Integration.Credential → Integration.Credential → Prop} (h : OneTime R)
    (hrows : ∀ w w', R w w' → Option.Rel (fun t t' => ∀ key, Option.Rel C (newestOf key t.credentials)
      (newestOf key t'.credentials)) w.database.tables w'.database.tables) (key : CredentialKey) :
    Task.Couples R (Option.Rel C) (store (CredentialStore.current key)) (store (CredentialStore.current key)) := by
  intro w w' hw
  have hnow := h w w' hw
  have htables := hrows w w' hw
  rw [runOn_store, runOn_store]
  rcases ht : w.database.tables with _ | t <;> rcases ht' : w'.database.tables with _ | t' <;>
    rw [ht, ht'] at htables
  · rw [CredentialStore.runOn_current_none ht key, CredentialStore.runOn_current_none ht' key]
    refine ⟨?_, hw⟩
    rw [hnow]
    exact .error _
  · cases htables
  · cases htables
  · cases htables with
    | some hkeys =>
      rw [CredentialStore.runOn_current key ht, CredentialStore.runOn_current key ht']
      exact ⟨.ok (hkeys key), hw⟩

end World

namespace Action

variable {α : Type} {R : World α → World α → Prop} {C : Integration.Credential → Integration.Credential → Prop}
  {Q : String → String → Prop} {services : WhatsApp.Services}

/-- What an action that sends a message needs to know of a relation of worlds: how it relates the rows of
credentials, and how the access tokens in them. -/
structure SameSends (R : World α → World α → Prop) (C : Integration.Credential → Integration.Credential → Prop)
    (Q : String → String → Prop) (s : WhatsApp.Services) : Prop where
  oneTime : World.OneTime R
  current : ∀ key, Task.Couples R (Option.Rel C) (World.store (CredentialStore.current key))
    (World.store (CredentialStore.current key))
  opens : ∀ row row' now, C row row' →
    Task.Alike Q (s.cipher.decrypt row.encryptedSecret now) (s.cipher.decrypt row'.encryptedSecret now)
  request : ∀ token token' phone m, Q token token' →
    Task.Agrees R (WhatsApp.request s token phone m) (WhatsApp.request s token' phone m)

theorem decrypt_couples (h : SameSends R C Q services) {row row' : Integration.Credential} (hrow : C row row') :
    Task.Couples R Q (World.decrypt services.cipher row.encryptedSecret)
      (World.decrypt services.cipher row'.encryptedSecret) := by
  intro w w' hw
  rw [World.runOn_decrypt, World.runOn_decrypt, h.oneTime w w' hw]
  exact ⟨h.opens row row' w'.now hrow, hw⟩

theorem accessToken_couples (h : SameSends R C Q services) (call : ActionCall) (context : RunContext) :
    Task.Couples R Q (WhatsApp.accessToken services call context) (WhatsApp.accessToken services call context) := by
  unfold WhatsApp.accessToken
  refine (h.current _).bind fun row? row?' hrow => ?_
  cases hrow with
  | some hrow => exact decrypt_couples h hrow
  | none =>
    intro w w' hw
    rw [Task.runOn_bind_ok (Task.runOn_get w), Task.runOn_bind_ok (Task.runOn_get w'), h.oneTime w w' hw]
    exact ⟨.error _, hw⟩

theorem sendTemplate_agrees (h : SameSends R C Q services) (call : ActionCall) (context : RunContext) :
    Task.Agrees R (WhatsApp.sendTemplate services call context) (WhatsApp.sendTemplate services call context) := by
  unfold WhatsApp.sendTemplate
  refine h.oneTime.now_bind fun w w' _ hnow => ?_
  rw [hnow]
  refine Task.Agrees.bind (Task.Agrees.lift _) fun recipient => Task.Agrees.bind (Task.Agrees.lift _) fun template => ?_
  dsimp only
  split
  · exact Task.Agrees.throw _
  · split
    · exact Task.Agrees.pure _
    · refine (accessToken_couples h call context).bind_agrees fun token token' htoken => ?_
      refine Task.Agrees.bind (Task.Agrees.lift _) fun phone => ?_
      split
      · exact Task.Agrees.throw _
      · refine Task.Agrees.bind (Task.Agrees.lift _) fun language => ?_
        refine (h.request token token' _ _ htoken).bind fun outcome => ?_
        rcases outcome with fault | response
        · cases fault <;> exact Task.Agrees.throw _
        · dsimp only
          split
          · exact Task.Agrees.pure _
          · exact Task.Agrees.throw _

theorem updateStatus_agrees (h : World.OneTime R) (call : ActionCall) (context : RunContext) :
    Task.Agrees R (Crm.updateStatus call context) (Crm.updateStatus call context) := by
  unfold Crm.updateStatus
  refine Task.Agrees.bind (Task.Agrees.lift _) fun status => ?_
  by_cases hstatus : status = ""
  · simp only [hstatus, if_true]
    exact h.throw_now _
  · simp only [hstatus, if_false]
    exact Task.Agrees.pure _

theorem sendEmail_agrees (h : World.OneTime R) (dryRun : Bool) (call : ActionCall) (context : RunContext) :
    Task.Agrees R (Email.send dryRun call context) (Email.send dryRun call context) := by
  unfold Email.send
  refine Task.Agrees.bind (Task.Agrees.lift _) fun recipient => Task.Agrees.bind (Task.Agrees.lift _) fun template => ?_
  by_cases hlacking : recipient = "" ∨ template = ""
  · simp only [hlacking, if_true]
    exact h.throw_now _
  · simp only [hlacking, if_false]
    exact Task.Agrees.pure _

theorem defaults_agree (h : SameSends R C Q services) :
    ∀ entry ∈ (defaults services : Registry (World α)).entries, ∀ call context,
      Task.Agrees R (entry.run call context) (entry.run call context) := by
  intro entry hentry call context
  simp only [defaults, List.mem_cons, List.not_mem_nil, or_false] at hentry
  rcases hentry with rfl | rfl | rfl
  · exact sendTemplate_agrees h call context
  · exact sendEmail_agrees h.oneTime services.dryRun call context
  · exact updateStatus_agrees h.oneTime call context

/-- A registry whose actions end alike on related worlds dispatches alike. -/
theorem dispatch_agrees {registry : Registry (World α)} (htime : World.OneTime R)
    (h : ∀ entry ∈ registry.entries, ∀ call context,
      Task.Agrees R (entry.run call context) (entry.run call context)) (call : ActionCall) (context : RunContext) :
    Task.Agrees R (registry.dispatch (·.now) call context) (registry.dispatch (·.now) call context) := by
  unfold Registry.dispatch
  refine htime.now_bind fun w w' _ hnow => ?_
  dsimp only
  rw [hnow]
  by_cases hempty : normalizeName call.action = ""
  · simp only [hempty, if_true]
    exact Task.Agrees.throw _
  · simp only [hempty, if_false]
    cases hfind : registry.find? (normalizeName call.action) with
    | none => exact Task.Agrees.throw _
    | some entry => exact h entry (List.mem_of_find?_eq_some hfind) _ _

theorem onNode_agrees {handler : Handler (World α)}
    (h : ∀ call context, Task.Agrees R (handler call context) (handler call context)) (node : Node)
    (context : RunContext) : Task.Agrees R (handler.onNode node context) (handler.onNode node context) :=
  Task.Agrees.bind (Task.Agrees.lift _) fun call => h call context

end Action

end Cadence
