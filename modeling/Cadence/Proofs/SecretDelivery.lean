import Cadence.Action.WhatsApp
import Cadence.Proofs.RequestAddress
import Cadence.Proofs.VerificationRecords

/-!
# Delivery of secrets

A request that is made for a client carries the access token that the client saved last, whether a verification
makes it or the action that sends a template message, and the request of a verification goes to the phone
number that the client saved last. What other clients saved, and what the client saved before, is never sent.
-/

namespace Cadence

open Storage Integration

/-- The client on behalf of which a run acts. -/
def Workflow.RunContext.owner (c : Workflow.RunContext) : Owner := ⟨c.tenantId, c.clientId⟩

namespace Integration

/-- Secrets as the provider gives them: a token of printable ASCII characters, the id of a phone number. -/
def CredentialField.Admits : CredentialField → String → Prop
  | .accessToken, token => token ≠ "" ∧ ∀ c ∈ token.toList, 32 ≤ c.toNat ∧ c.toNat < 127
  | .phoneNumberId, phone => Provider.IsPhoneId phone
  | .accountId, _ => True

/-- The request carries the access token that the client saved last. -/
def CarriesToken (o : Owner) (steps : List Step) (request : Provider.Request) : Prop :=
  ∃ token, lastSaved o .accessToken steps = some token ∧ request.authorization = "Bearer " ++ token

/-- The request goes to the phone number that the client saved last. -/
def AddressesPhone (o : Owner) (steps : List Step) (request : Provider.Request) : Prop :=
  ∃ phone, lastSaved o .phoneNumberId steps = some phone ∧
    [phone, "messages"] <:+ Text.split '/' request.url

variable {α : Type} {o : Owner} {steps : List Step}

theorem accountId_ne_empty {step : Step} {id : String} (h : (.accountId, id) ∈ step.savesOf o) : id ≠ "" := by
  cases step with
  | call p c =>
    rw [Step.savesOf] at h
    split at h
    · cases c with
      | connect token phone account user =>
        rintro rfl
        cases account with
        | none => simp [Call.saves, accountSaves] at h
        | some given =>
          by_cases hgiven : given = ""
          · simp [Call.saves, accountSaves, hgiven] at h
          · simp [Call.saves, accountSaves, hgiven, Ne.symm hgiven] at h
      | rotate token user => simp [Call.saves] at h
      | verify r => cases h
      | status => cases h
    · cases h
  | clock now => cases h
  | provider answer => cases h

section Admitted
variable (hadmitted : ∀ step ∈ steps, ∀ save ∈ step.savesOf o, save.1.Admits save.2)
include hadmitted

theorem admits_lastSaved {field : CredentialField} {secret : String}
    (h : lastSaved o field steps = some secret) : field.Admits secret := by
  obtain ⟨step, hstep, hsave⟩ := exists_save_of_lastSaved h
  exact hadmitted step hstep _ hsave

theorem ne_empty_of_admitted : ∀ step ∈ steps, ∀ save ∈ step.savesOf o, save.2 ≠ "" := by
  rintro step hstep ⟨field, secret⟩ hsave
  have hadmits := hadmitted step hstep _ hsave
  cases field with
  | accessToken => exact hadmits.1
  | phoneNumberId => exact hadmits.1
  | accountId => exact accountId_ne_empty hsave

end Admitted

/-! ### Verifications -/

namespace Service

variable {s : Service} {r : VerifyRequest} {w : World α}

theorem line_of_verify (w : World α) :
    ((s.verify o r).runOn w).2.line = ((s.findings o r).runOn w).2.line := by
  rcases hfindings : (s.findings o r).runOn w with ⟨fault | f, w'⟩
  · rw [runOn_verify_lost hfindings]
  · -- The record goes into the database, whether or not that takes it.
    have hrecord : ((putOnRecord o r.initiatedBy f).runOn w').2.line = w'.line := by
      rw [putOnRecord, World.runOn_store]
    rw [verify, Task.runOn_bind_ok hfindings, Task.runOn_bind]
    rcases hput : (putOnRecord o r.initiatedBy f).runOn w' with ⟨fault | row, w''⟩ <;> rw [hput] at hrecord <;>
      exact hrecord

end Service

section Verify
variable {s : Service} {r : VerifyRequest} {w : World α} (hfresh : Fresh w)
  (hgiven : ∀ step ∈ steps, ∀ save ∈ step.savesOf o, save.2 ≠ "")
include hfresh hgiven

theorem verify_sends {token phone : String} (h : Sends s o r steps token phone) (hreadable : r.Readable)
    (hwritable : ¬s.client.Unwritable token phone) :
    ∃ request, request.authorization = "Bearer " ++ token ∧
      request.url = Provider.normalUrl (s.client.messagesUrl phone) ∧
      newRequests (s.after steps w) ((s.verify o r).runOn (s.after steps w)).2 = [request] := by
  obtain ⟨checks, evidence, hfindings⟩ := findings_after_live hfresh hgiven h
  have hmessage := s.testMessage_of_readable hreadable
  have hline := Service.line_of_verify (s := s) (o := o) (r := r) (s.after steps w)
  rw [hfindings, Service.runOn_sendTest hmessage (Provider.Client.request_of_writable hwritable _)] at hline
  refine ⟨_, ?_, ?_, newRequests_of_sent hline⟩
  · rfl
  · rfl

theorem verify_silent
    (h : ∀ token phone, Sends s o r steps token phone → r.Readable → s.client.Unwritable token phone) :
    newRequests (s.after steps w) ((s.verify o r).runOn (s.after steps w)).2 = [] := by
  refine newRequests_of_line_eq ?_
  rw [Service.line_of_verify]
  by_cases hsends : ∃ token phone, Sends s o r steps token phone
  · obtain ⟨token, phone, hsends⟩ := hsends
    obtain ⟨checks, evidence, hfindings⟩ := findings_after_live hfresh hgiven hsends
    rw [hfindings]
    by_cases hreadable : r.Readable
    · have hmessage := s.testMessage_of_readable hreadable
      obtain ⟨f, hrequest, hreach⟩ :=
        Provider.Client.request_of_unwritable (h token phone hsends hreadable) (s.messageFor r)
      rw [Service.runOn_sendTest_unsent hmessage hrequest hreach]
    · rw [Service.runOn_sendTest_unreadable hreadable]
  · obtain ⟨f, hfindings⟩ := findings_after_idle hfresh hgiven fun token phone h => hsends ⟨token, phone, h⟩
    rw [hfindings]

end Verify

end Integration

/-! ### The action -/

namespace Action.WhatsApp

open Workflow

variable {α : Type} {services : Services} {call : ActionCall} {context : RunContext} {w : World α} {t : Tables}

theorem runOn_current (ht : w.database.tables = some t) :
    (World.store (CredentialStore.current
      ⟨context.tenantId, context.clientId, provider, accessTokenType⟩)).runOn w =
        (.ok (newestOf (context.owner.credentialKey .accessToken) t.credentials), w) := by
  rw [World.runOn_store, CredentialStore.runOn_current _ ht]
  rfl

theorem runOn_accessToken (ht : w.database.tables = some t) {token : String}
    (htoken : openings services.cipher context.owner t .accessToken = some fun _ => .ok token)
    (call : ActionCall) : (accessToken services call context).runOn w = (.ok token, w) := by
  obtain ⟨row, hrow, hopen⟩ := Service.decrypt_of_opening htoken
  unfold accessToken
  rw [Task.runOn_bind_ok (runOn_current ht), hrow]
  dsimp only
  rw [World.runOn_decrypt, hopen]

theorem runOn_accessToken_missing (ht : w.database.tables = some t)
    (htoken : openings services.cipher context.owner t .accessToken = none) (call : ActionCall) :
    ∃ f, (accessToken services call context).runOn w = (.error f, w) := by
  unfold accessToken
  rw [Task.runOn_bind_ok (runOn_current ht), Option.map_eq_none_iff.mp htoken]
  exact ⟨_, rfl⟩

theorem runOn_request_eq (token phone : String) (m : Provider.Message) :
    (request services token phone m).runOn w =
      match services.client.request token phone m with
      | .error f => (.ok (.error f), w)
      | .ok made => (.ok ((w.line.send made).1.bind services.client.readAnswer), w.sent made) := by
  rw [request, Task.runOn_attempt, World.runOn_send]
  cases services.client.request token phone m <;> rfl

theorem runOn_request (token phone : String) (m : Provider.Message) :
    (∃ f, services.client.request token phone m = .error f ∧
        (request services token phone m).runOn w = (.ok (.error f), w)) ∨
      ∃ made outcome, services.client.request token phone m = .ok made ∧
        (request services token phone m).runOn w = (.ok outcome, w.sent made) := by
  rw [runOn_request_eq]
  cases services.client.request token phone m with
  | error f => exact .inl ⟨f, rfl, rfl⟩
  | ok made => exact .inr ⟨made, _, rfl, rfl⟩

theorem authorization_of_request {c : Provider.Client} {token phone : String} {m : Provider.Message}
    {made : Provider.Request} (h : c.request token phone m = .ok made) :
    made.authorization = "Bearer " ++ token := by
  by_cases hwritable : c.Unwritable token phone
  · obtain ⟨f, hrequest, -⟩ := Provider.Client.request_of_unwritable hwritable m
    rw [hrequest] at h
    cases h
  · rw [Provider.Client.request_of_writable hwritable] at h
    rw [← Except.ok.inj h]

/-- All requests that were made since `before` carry the token that is saved. -/
def CarrySaved (saved : Option String) (before after : World α) : Prop :=
  ∀ made ∈ newRequests before after, ∃ token, saved = some token ∧ made.authorization = "Bearer " ++ token

theorem carrySaved_self (saved : Option String) (w : World α) : CarrySaved saved w w := by
  intro made hmade
  rw [newRequests_of_line_eq rfl] at hmade
  cases hmade

section Saved
variable {saved : Option String} (ht : w.database.tables = some t)
  (htoken : openings services.cipher context.owner t .accessToken = saved.map fun token _ => .ok token)

theorem request_leads {token : String} (hsaved : saved = some token) (phone : String) (m : Provider.Message) :
    Task.Leads (fun w' => w' = w) (request services token phone m) (fun _ => CarrySaved saved w)
      (fun _ => CarrySaved saved w) := by
  rintro _ rfl
  rcases runOn_request token phone m with ⟨f, -, hrun⟩ | ⟨made, outcome, hrequest, hrun⟩
  · rw [hrun]
    exact carrySaved_self saved _
  · rw [hrun]
    intro request hmade
    rw [newRequests_of_sent rfl] at hmade
    obtain rfl := List.mem_singleton.mp hmade
    exact ⟨token, hsaved, authorization_of_request hrequest⟩

include ht htoken

theorem accessToken_leads (call : ActionCall) :
    Task.Leads (fun w' => w' = w) (accessToken services call context)
      (fun token w' => saved = some token ∧ w' = w) (fun _ => CarrySaved saved w) := by
  rintro _ rfl
  cases saved with
  | none =>
    obtain ⟨f, hrun⟩ := runOn_accessToken_missing ht htoken call
    rw [hrun]
    exact carrySaved_self none _
  | some token =>
    rw [runOn_accessToken ht htoken call]
    exact ⟨rfl, rfl⟩

theorem sendTemplate_leads (call : ActionCall) :
    Task.Leads (fun w' => w' = w) (sendTemplate services call context) (fun _ => CarrySaved saved w)
      (fun _ => CarrySaved saved w) := by
  have hself {w' : World α} (h : w' = w) : CarrySaved saved w w' := h ▸ carrySaved_self saved w
  have hfirst : Task.Leads (fun w' => w' = w) (get : Task (World α) (World α)) (fun _ w' => w' = w)
      (fun _ => CarrySaved saved w) := fun _ h => h
  have hsetting (text : Outcome String) : Task.Leads (fun w' => w' = w) (liftM text : Task (World α) String)
      (fun _ w' => w' = w) (fun _ => CarrySaved saved w) :=
    Task.Leads.lift (fun _ _ _ h => h) fun _ _ _ h => hself h
  unfold sendTemplate
  -- Up to the request the world is as it was, and after it nothing is sent any more.
  refine Task.Leads.bind hfirst fun now => (hsetting _).bind fun recipient => (hsetting _).bind fun template => ?_
  dsimp only
  split
  · exact Task.Leads.throw fun _ h => hself h
  · split
    · exact Task.Leads.pure fun _ h => hself h
    · refine Task.Leads.bind (accessToken_leads ht htoken call) fun token => Task.Leads.of_and fun hsaved => ?_
      refine (hsetting _).bind fun phone => ?_
      split
      · exact Task.Leads.throw fun _ h => hself h
      · refine (hsetting _).bind fun language => Task.Leads.bind (request_leads hsaved phone _) fun outcome => ?_
        rcases outcome with fault | response
        · cases fault <;> exact Task.Leads.throw fun _ h => h
        · dsimp only
          split
          · exact Task.Leads.pure fun _ h => h
          · exact Task.Leads.throw fun _ h => h

theorem carrySaved_sendTemplate (call : ActionCall) :
    CarrySaved saved w ((sendTemplate services call context).runOn w).2 := by
  have hrun := sendTemplate_leads ht htoken call w rfl
  rcases hr : (sendTemplate services call context).runOn w with ⟨f | v, w'⟩ <;> simp only [hr] at hrun <;>
    exact hrun

end Saved

/-- The sending of a message once the token is at hand. -/
def deliver (s : Services) (call : ActionCall) (now : Instant) (recipient template token : String) :
    Task (World α) Json := do
  let phoneNumberId ← settingText call "phoneNumberId"
  if phoneNumberId = "" then throw (lacking call name "missing phoneNumberId" now)
  let language ← settingText call "language"
  match ← request s token phoneNumberId ⟨recipient, template, some language⟩ with
  | .error (.transport _ message) =>
    throw (.failure (.sendFailed provider .null (some call.nodeId) (some message) {} now))
  | .error fault => throw fault
  | .ok response =>
    if response.isOk then
      return .obj [("action", .str call.action), ("delivered", .bool true),
        ("provider", .str resultProvider), ("response", .obj response.body)]
    throw (.failure (.sendFailed provider (.int response.status) (some call.nodeId) none {} now))

/-- The action checks its settings first, and a dry run ends before the token is read. -/
theorem runOn_sendTemplate {recipient template : String}
    (hrecipient : settingOrPayload call context "to" "lead.phone" = .ok recipient)
    (htemplate : settingText call "template" = .ok template) :
    (sendTemplate services call context).runOn w =
      if recipient = "" ∨ template = "" then
        (.error (lacking call name "recipient and template are required" w.now), w)
      else if services.dryRun then
        (.ok (.obj [("action", .str call.action), ("delivered", .bool true), ("dryRun", .bool true)]), w)
      else (accessToken services call context >>= deliver services call w.now recipient template).runOn w := by
  unfold sendTemplate
  rw [Task.runOn_bind_ok (Task.runOn_get w), Task.runOn_bind_ok (Task.runOn_lift_ok hrecipient w),
    Task.runOn_bind_ok (Task.runOn_lift_ok htemplate w)]
  by_cases hlacking : recipient = "" ∨ template = ""
  · simp only [hlacking, if_true]
    rfl
  · simp only [hlacking, if_false]
    cases services.dryRun <;> rfl

/-- Nothing is in the way of the sending but, perhaps, the token. -/
structure Ready (services : Services) (call : ActionCall) (context : RunContext) : Prop where
  live : services.dryRun = false
  recipient : ∃ recipient, settingOrPayload call context "to" "lead.phone" = .ok recipient ∧ recipient ≠ ""
  template : ∃ template, settingText call "template" = .ok template ∧ template ≠ ""
  phone : ∃ phone, settingText call "phoneNumberId" = .ok phone ∧ phone ≠ "" ∧
    (services.client.messagesUrl phone).length ≤ Provider.maxUrlLength
  language : ∃ language, settingText call "language" = .ok language

theorem newRequests_of_ready (ht : w.database.tables = some t) {token : String}
    (htoken : openings services.cipher context.owner t .accessToken = some fun _ => .ok token)
    (hascii : ∀ ch ∈ token.toList, ch.toNat < 128) (h : Ready services call context) :
    ∃ made, newRequests w ((sendTemplate services call context).runOn w).2 = [made] := by
  obtain ⟨hlive, ⟨recipient, hrecipient, hto⟩, ⟨template, htemplate, hnamed⟩, ⟨phone, hphone, hfrom, hshort⟩,
    ⟨language, hlanguage⟩⟩ := h
  have hwritable := Provider.Client.writable_of_ascii hshort hascii
  rw [runOn_sendTemplate hrecipient htemplate, if_neg (not_or.mpr ⟨hto, hnamed⟩), hlive, if_neg Bool.false_ne_true,
    Task.runOn_bind_ok (runOn_accessToken ht htoken call)]
  unfold deliver
  rw [Task.runOn_bind_ok (Task.runOn_lift_ok hphone w), if_neg hfrom,
    Task.runOn_bind_ok (Task.runOn_lift_ok hlanguage w)]
  rcases runOn_request token phone ⟨recipient, template, some language⟩ (w := w) with
    ⟨f, hrequest, -⟩ | ⟨made, outcome, -, hrun⟩
  · rw [Provider.Client.request_of_writable hwritable] at hrequest
    cases hrequest
  · rw [Task.runOn_bind_ok hrun]
    refine ⟨made, newRequests_of_sent ?_⟩
    rcases outcome with fault | response
    · cases fault <;> rfl
    · dsimp only
      split <;> rfl

end Action.WhatsApp

/-! ### After every history -/

namespace Integration

open Action.WhatsApp

variable {α : Type} {o : Owner} {steps : List Step}

section Admitted
variable {s : Service} {w : World α} (hfresh : Fresh w)
  (hadmitted : ∀ step ∈ steps, ∀ save ∈ step.savesOf o, save.1.Admits save.2)
include hadmitted

theorem ascii_lastSaved {token : String} (h : lastSaved o .accessToken steps = some token) :
    ∀ ch ∈ token.toList, ch.toNat < 128 := fun ch hch =>
  Nat.lt_trans ((admits_lastSaved hadmitted h).2 ch hch).2 (by decide)

include hfresh

theorem verify_delivers (r : VerifyRequest) :
    ∀ made ∈ newRequests (s.after steps w) ((s.verify o r).runOn (s.after steps w)).2,
      CarriesToken o steps made ∧ AddressesPhone o steps made := by
  intro made hmade
  have hgiven := ne_empty_of_admitted hadmitted
  by_cases hsent : ∃ token phone, Sends s o r steps token phone ∧ r.Readable ∧ ¬s.client.Unwritable token phone
  · obtain ⟨token, phone, hsends, hreadable, hwritable⟩ := hsent
    obtain ⟨request, hauthorization, hurl, hnew⟩ := verify_sends hfresh hgiven hsends hreadable hwritable
    rw [hnew] at hmade
    obtain rfl := List.mem_singleton.mp hmade
    refine ⟨⟨token, hsends.savedToken, hauthorization⟩, phone, hsends.savedPhone, ?_⟩
    rw [hurl]
    exact s.client.address_ending (admits_lastSaved hadmitted hsends.savedPhone)
  · have hsilent : newRequests (s.after steps w) ((s.verify o r).runOn (s.after steps w)).2 = [] :=
      verify_silent hfresh hgiven fun token phone hsends hreadable =>
        Classical.not_not.mp fun h => hsent ⟨token, phone, hsends, hreadable, h⟩
    rw [hsilent] at hmade
    cases hmade

end Admitted

/-- After every history in which a client saved admissible secrets, between any calls of other clients, each
request that a verification or the action makes for the client carries the token that the client saved last, and
that of a verification goes to the phone number that the client saved last. The request is made whenever the
credentials are saved and nothing else is in the way. -/
theorem secrets_delivered (s : Service) (steps : List Step) (w : World α) (o : Owner) (hfresh : Fresh w)
    (hadmitted : ∀ step ∈ steps, ∀ save ∈ step.savesOf o, save.1.Admits save.2) :
    let before := s.after steps w
    (∀ r, ∀ made ∈ newRequests before ((s.verify o r).runOn before).2,
      CarriesToken o steps made ∧ AddressesPhone o steps made) ∧
    (∀ r token phone, Sends s o r steps token phone → r.Readable →
      (s.client.messagesUrl phone).length ≤ Provider.maxUrlLength →
      ∃ made, newRequests before ((s.verify o r).runOn before).2 = [made]) ∧
    ∀ (services : Services) (call : Workflow.ActionCall) (context : Workflow.RunContext),
      services.cipher = s.cipher → context.owner = o →
      (∀ made ∈ newRequests before ((sendTemplate services call context).runOn before).2,
        CarriesToken o steps made) ∧
      ((lastSaved o .accessToken steps).isSome → Ready services call context →
        ∃ made, newRequests before ((sendTemplate services call context).runOn before).2 = [made]) := by
  intro before
  have hgiven := ne_empty_of_admitted hadmitted
  refine ⟨verify_delivers hfresh hadmitted, fun r token phone hsends hreadable hshort => ?_, ?_⟩
  · have hwritable := Provider.Client.writable_of_ascii hshort (ascii_lastSaved hadmitted hsends.savedToken)
    obtain ⟨made, -, -, hnew⟩ := verify_sends hfresh hgiven hsends hreadable hwritable
    exact ⟨made, hnew⟩
  · rintro services call context hcipher rfl
    obtain ⟨t, ht, hopened⟩ := after_fresh hfresh hgiven (s := s)
    have htoken := hopened .accessToken
    rw [← hcipher] at htoken
    refine ⟨carrySaved_sendTemplate ht htoken call, fun hsaved hready => ?_⟩
    obtain ⟨token, hsaved⟩ := Option.isSome_iff_exists.mp hsaved
    rw [hsaved] at htoken
    exact newRequests_of_ready ht htoken (ascii_lastSaved hadmitted hsaved) hready

/-- Two clients connect, and the first one changes its token. -/
def twoClients : List Step :=
  [.call firstClient (.connect "EAAG-1" "15550001" none none),
    .call secondClient (.connect "EAAG-2" "15550002" (some "77") none),
    .call firstClient (.rotate "EAAG 3" none)]

def liveServices : Services := { cipher := liveService.cipher, client := {}, dryRun := false }

def templateCall : Workflow.ActionCall where
  nodeId := "node"
  config := [("to", .str "+15550001111"), ("template", .str "welcome"), ("phoneNumberId", .str "15550003")]

def firstContext : Workflow.RunContext := { executionId := "run", tenantId := "tenant-1", clientId := "client-1" }

theorem secrets_delivered_twoClients :
    (∀ step ∈ twoClients, ∀ save ∈ step.savesOf firstClient, save.1.Admits save.2) ∧
      let before := liveService.after twoClients firstWorld
      (∃ made, newRequests before ((liveService.verify firstClient liveRequest).runOn before).2 = [made] ∧
        made.authorization = "Bearer EAAG 3" ∧ ["15550001", "messages"] <:+ Text.split '/' made.url) ∧
      ∃ made, newRequests before ((sendTemplate liveServices templateCall firstContext).runOn before).2 = [made] ∧
        made.authorization = "Bearer EAAG 3" := by
  have hadmitted : ∀ step ∈ twoClients, ∀ save ∈ step.savesOf firstClient, save.1.Admits save.2 := by
    rintro step hstep ⟨field, secret⟩ hsave
    simp only [twoClients, List.mem_cons, List.not_mem_nil, or_false] at hstep
    rcases hstep with rfl | rfl | rfl <;>
      simp [Step.savesOf, Call.saves, accountSaves, firstClient, secondClient] at hsave
    · rcases hsave with ⟨rfl, rfl⟩ | ⟨rfl, rfl⟩
      · exact ⟨by decide, by simp⟩
      · exact ⟨by decide, by simp⟩
    · obtain ⟨rfl, rfl⟩ := hsave
      exact ⟨by decide, by simp⟩
  obtain ⟨hverify, hverifies, haction⟩ :=
    secrets_delivered liveService twoClients firstWorld firstClient firstWorld_fresh hadmitted
  obtain ⟨hsend, hsends⟩ := haction liveServices templateCall firstContext rfl rfl
  have hready : Ready liveServices templateCall firstContext := by
    refine ⟨rfl, ⟨"+15550001111", rfl, by decide⟩, ⟨"welcome", rfl, by decide⟩, ⟨"15550003", rfl, by decide, ?_⟩,
      "", rfl⟩
    decide
  obtain ⟨made, hmade⟩ := hverifies liveRequest "EAAG 3" "15550001" ⟨rfl, rfl, rfl, rfl⟩ liveRequest_readable
    (by decide)
  obtain ⟨made', hmade'⟩ := hsends rfl hready
  obtain ⟨⟨token, htoken, hcarries⟩, phone, hphone, haddress⟩ :=
    hverify liveRequest made (hmade ▸ List.mem_singleton_self made)
  obtain ⟨token', htoken', hcarries'⟩ := hsend made' (hmade' ▸ List.mem_singleton_self made')
  obtain rfl : "EAAG 3" = token := Option.some.inj htoken
  obtain rfl : "EAAG 3" = token' := Option.some.inj htoken'
  obtain rfl : "15550001" = phone := Option.some.inj hphone
  exact ⟨hadmitted, ⟨made, hmade, hcarries, haddress⟩, made', hmade', hcarries'⟩

end Integration

end Cadence
