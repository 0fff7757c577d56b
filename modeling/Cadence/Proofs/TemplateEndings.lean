import Cadence.Proofs.LineUse
import Cadence.Proofs.OpenedTokens
import Cadence.Proofs.ResolvedPaths

/-!
# Endings of the template action

Outside of dry runs, the action that sends a template message is meant to succeed or to end in a failure that
names what is lacking: a setting, a credential, a token that opens, or an answer of the provider. Other ends are
different. A setting can have no text, a token can hide bytes that are no text, a request may be one that cannot be
written down, and an answer may go too deep to be read. The fault then is none of the engine's failures.
-/

namespace Cadence

open Workflow Storage Integration

namespace Provider

theorem Client.request_error {c : Client} {token phone : String} {m : Message} {f : Fault}
    (h : c.request token phone m = .error f) : ∀ failure, f ≠ .failure failure := by
  unfold request at h
  dsimp only at h
  split_ifs at h
  · rw [← Except.error.inj h]
    exact fun _ => Fault.noConfusion
  · split at h
    · rename_i f' hheader
      obtain ⟨ch, first, last, rfl⟩ := headerFault?_eq_some hheader
      rw [← Except.error.inj h]
      exact fun _ => Fault.noConfusion
    · cases h

end Provider

namespace Action.WhatsApp

variable {α : Type} {services : Services} {call : ActionCall} {context : RunContext} {w : World α} {t : Tables}

/-! ### The stages of the action -/

theorem settingText_error {name : String} {f : Fault} (h : settingText call name = .error f) : f = .integerTooLong :=
  Json.firstText_error h

/-- Of a recipient only the text can be lacking. -/
theorem settingOrPayload_error {f : Fault} (h : settingOrPayload call context "to" "lead.phone" = .error f) :
    f = .integerTooLong := by
  have hnames : ∀ segment ∈ Payload.segments "lead.phone", Payload.isIndex segment = false := by decide
  obtain ⟨v, hread⟩ := Payload.readPath_total (.obj context.triggerPayload) hnames
  unfold settingOrPayload at h
  rw [hread] at h
  exact Json.firstText_error h

theorem settingOrPayload_of_unwritten {v : Json} (hsetting : (Members.get? call.config "to").getD .null = v)
    (hv : v.isWritable = false) : settingOrPayload call context "to" "lead.phone" = .error .integerTooLong := by
  have hnames : ∀ segment ∈ Payload.segments "lead.phone", Payload.isIndex segment = false := by decide
  obtain ⟨found, hread⟩ := Payload.readPath_total (.obj context.triggerPayload) hnames
  have hshown : v.shown = .error .integerTooLong := if_neg (Bool.eq_false_iff.mp hv)
  have htext : Json.firstText [v, found.getD .null] = .error .integerTooLong := by
    rw [Json.firstText, if_pos (Json.isGiven_of_unwritten hv), hshown]
    rfl
  unfold settingOrPayload
  rw [hread, hsetting]
  exact htext

/-- A recipient and a template are given. -/
def Complete (call : ActionCall) (context : RunContext) (recipient template : String) : Prop :=
  settingOrPayload call context "to" "lead.phone" = .ok recipient ∧ settingText call "template" = .ok template ∧
    recipient ≠ "" ∧ template ≠ ""

theorem runOn_sendTemplate_complete (hlive : services.dryRun = false) {recipient template : String}
    (h : Complete call context recipient template) :
    (sendTemplate services call context).runOn w =
      (accessToken services call context >>= deliver services call w.now recipient template).runOn w := by
  obtain ⟨hrecipient, htemplate, hto, hnamed⟩ := h
  rw [runOn_sendTemplate hrecipient htemplate, if_neg (not_or.mpr ⟨hto, hnamed⟩), hlive, if_neg Bool.false_ne_true]

theorem runOn_request_made {token phone : String} {m : Provider.Message} {made : Provider.Request}
    (h : services.client.request token phone m = .ok made) :
    (request services token phone m).runOn w =
      (.ok ((w.line.send made).1.bind services.client.readAnswer), w.sent made) := by rw [runOn_request_eq, h]

theorem runOn_request_refused {token phone : String} {m : Provider.Message} {f : Fault}
    (h : services.client.request token phone m = .error f) :
    (request services token phone m).runOn w = (.ok (.error f), w) := by rw [runOn_request_eq, h]

/-- What the current token of the client opens to, if there is one. -/
def tokenOpening (services : Services) (context : RunContext) (w : World α) : Option (Outcome String) :=
  w.database.tables.bind fun t =>
    (openings services.cipher context.owner t .accessToken).map fun opening => opening w.now

theorem runOn_accessToken_opening (services : Services) (call : ActionCall) (context : RunContext)
    (ht : w.database.tables = some t) :
    (accessToken services call context).runOn w =
      ((tokenOpening services context w).getD (.error (.failure
        ((Failure.credentialMissing provider accessTokenType {} w.now).addContext
          [("node_id", .known (.str call.nodeId)), ("client_id", .known (.str context.clientId))]))), w) := by
  unfold accessToken tokenOpening
  rw [Task.runOn_bind_ok (runOn_current ht), ht, Option.bind_some, openings]
  cases newestOf (context.owner.credentialKey .accessToken) t.credentials with
  | none => rfl
  | some row => exact World.runOn_decrypt _ _ w

/-! ### How it ends -/

/-- The failure names the node of the call. -/
def NamesNode (call : ActionCall) (f : Failure) : Prop :=
  call.nodeId ≠ "" → f.context.get? "node_id" = some (.known (.str call.nodeId))

/-- The ends that a sending is meant to have. -/
inductive Concluded (call : ActionCall) (w : World α) : Outcome Json → World α → Prop where
  | payload {f : Failure} (kind : f.kind = .invalidActionPayload) (named : NamesNode call f) :
      Concluded call w (.error (.failure f)) w
  | credential {f : Failure} (kind : f.kind = .credentialMissing) (named : NamesNode call f) :
      Concluded call w (.error (.failure f)) w
  | cipher {f : Failure} (kind : Service.isCipherFailure f = true) : Concluded call w (.error (.failure f)) w
  | delivered {made : Provider.Request} {answer : Provider.Answer} {result : Members}
      (answered : (w.line.send made).1 = .ok answer) (success : answer.IsSuccess)
      (told : result.get? "delivered" = some (.bool true)) : Concluded call w (.ok (.obj result)) (w.sent made)
  | refused {made : Provider.Request} {answer : Provider.Answer} {f : Failure}
      (answered : (w.line.send made).1 = .ok answer) (bad : ¬answer.IsSuccess) (kind : f.kind = .sendFailed)
      (status : f.details.get? "status_code" = some (.known (.int answer.status))) :
      Concluded call w (.error (.failure f)) (w.sent made)
  | unreached {made : Provider.Request} {reason message : String} {f : Failure}
      (lost : (w.line.send made).1 = .error (.transport reason message)) (kind : f.kind = .sendFailed)
      (status : f.details.get? "status_code" = some (.known .null)) :
      Concluded call w (.error (.failure f)) (w.sent made)

/-- A phone number id is given. -/
def Addressed (call : ActionCall) (phone : String) : Prop :=
  settingText call "phoneNumberId" = .ok phone ∧ phone ≠ ""

/-- With the token at hand, a sending gets no further: a setting has no text, the request cannot be written down, or
the answer to it goes too deep to be read. -/
inductive Blocked (services : Services) (call : ActionCall) (recipient template token : String)
    (line : Provider.Line) : Prop where
  | phone {f : Fault} (textless : settingText call "phoneNumberId" = .error f)
  | language {phone : String} {f : Fault} (addressed : Addressed call phone)
      (textless : settingText call "language" = .error f)
  | unwritable {phone : String} (addressed : Addressed call phone)
      (unwritable : services.client.Unwritable token phone)
  | unread {phone language : String} {made : Provider.Request} {answer : Provider.Answer}
      (addressed : Addressed call phone) (spoken : settingText call "language" = .ok language)
      (request : services.client.request token phone ⟨recipient, template, some language⟩ = .ok made)
      (answered : (line.send made).1 = .ok answer) (unread : services.client.Unread answer)

/-- When it ends in none of these: the recipient or the template has no text, the current token hides none, or a
sending with that token is blocked. -/
inductive Escapes (services : Services) (call : ActionCall) (context : RunContext) (w : World α) : Prop where
  | textless {f : Fault} (textless : settingOrPayload call context "to" "lead.phone" = .error f ∨
      settingText call "template" = .error f)
  | illegible {recipient template reason : String} {byte first last : Nat}
      (complete : Complete call context recipient template)
      (opening : tokenOpening services context w = some (.error (.undecodable byte first last reason)))
  | blocked {recipient template token : String} (complete : Complete call context recipient template)
      (opening : tokenOpening services context w = some (.ok token))
      (blocked : Blocked services call recipient template token w.line)

theorem lacking_concluded (call : ActionCall) (reason : String) (now : Instant) (w : World α) :
    Concluded call w (.error (lacking call name reason now)) w := by
  refine .payload rfl fun hnode => ?_
  have hnoted : Failure.notedIf "node_id" (some call.nodeId) = [("node_id", .known (.str call.nodeId))] := if_neg hnode
  unfold Failure.invalidActionPayload Failure.workflow
  rw [hnoted]
  rfl

theorem missing_concluded (call : ActionCall) (context : RunContext) (now : Instant) (w : World α) :
    Concluded call w (.error (.failure ((Failure.credentialMissing provider accessTokenType {} now).addContext
      [("node_id", .known (.str call.nodeId)), ("client_id", .known (.str context.clientId))]))) w :=
  .credential rfl fun _ => rfl

theorem sendFailed_status (status : Json) (nodeId reason : Option String) (now : Instant) :
    (Failure.sendFailed provider status nodeId reason {} now).details.get? "status_code" = some (.known status) := by
  -- The reason comes after the status, if there is one.
  have hnoted : Failure.notedIf "reason" reason = [] ∨ ∃ v, Failure.notedIf "reason" reason = [("reason", v)] := by
    rcases reason with _ | text
    · exact .inl rfl
    · by_cases htext : text = ""
      · exact .inl (if_pos htext)
      · exact .inr ⟨_, if_neg htext⟩
  unfold Failure.sendFailed
  rcases hnoted with hnoted | ⟨v, hnoted⟩ <;> rw [hnoted] <;> rfl

section Deliver
variable {recipient template token : String} {now : Instant}

/-- With the token at hand, a sending that is not blocked is decided by the provider, or lacks a phone number id. -/
theorem deliver_concluded (hreach : w.line.Answers)
    (h : ¬Blocked services call recipient template token w.line) :
    Concluded call w ((deliver services call now recipient template token).runOn w).1
      ((deliver services call now recipient template token).runOn w).2 := by
  unfold deliver
  cases hphone : settingText call "phoneNumberId" with
  | error f => exact (h (.phone hphone)).elim
  | ok phone =>
    rw [Task.runOn_bind_ok (Task.runOn_lift_ok rfl w)]
    by_cases hgiven : phone = ""
    · rw [if_pos hgiven]
      exact lacking_concluded call _ now w
    rw [if_neg hgiven]
    have haddressed : Addressed call phone := ⟨hphone, hgiven⟩
    cases hlanguage : settingText call "language" with
    | error f => exact (h (.language haddressed hlanguage)).elim
    | ok language =>
      have hwritable : ¬services.client.Unwritable token phone := fun hunwritable =>
        h (.unwritable haddressed hunwritable)
      obtain ⟨made, hmade⟩ : ∃ made, services.client.request token phone ⟨recipient, template, some language⟩ =
          .ok made := ⟨_, Provider.Client.request_of_writable hwritable _⟩
      rw [Task.runOn_bind_ok (Task.runOn_lift_ok rfl w), Task.runOn_bind_ok (runOn_request_made hmade)]
      cases hanswer : (w.line.send made).1 with
      | error fault =>
        obtain ⟨reason, message, rfl⟩ := hreach _ _ _ hanswer
        exact .unreached hanswer rfl (sendFailed_status ..)
      | ok answer =>
        obtain ⟨response, hread⟩ := (services.client.readAnswer_cases answer).resolve_right fun hunread =>
          h (.unread haddressed hlanguage hmade hanswer hunread)
        have hbound : (Except.ok answer).bind services.client.readAnswer = .ok response := hread
        rw [hbound]
        dsimp only
        split
        · rename_i hok
          exact .delivered hanswer ((Provider.Client.isOk_iff hread).mp hok) rfl
        · rename_i hbad
          rw [Provider.Client.readAnswer_status hread]
          exact .refused hanswer (fun hsuccess => hbad ((Provider.Client.isOk_iff hread).mpr hsuccess)) rfl
            (sendFailed_status ..)

/-- A sending that is blocked ends in no failure of the engine. What it leaves is its request, if it made one. -/
theorem deliver_blocked (h : Blocked services call recipient template token w.line) :
    ∃ f w', (deliver services call now recipient template token).runOn w = (.error f, w') ∧
      (w' = w ∨ ∃ made, w' = w.sent made) ∧ ∀ failure, f ≠ .failure failure := by
  unfold deliver
  cases h with
  | phone textless =>
    rw [Task.runOn_bind_error (Task.runOn_lift_error textless w), settingText_error textless]
    exact ⟨_, _, rfl, .inl rfl, fun _ => Fault.noConfusion⟩
  | language addressed textless =>
    rw [Task.runOn_bind_ok (Task.runOn_lift_ok addressed.1 w), if_neg addressed.2,
      Task.runOn_bind_error (Task.runOn_lift_error textless w), settingText_error textless]
    exact ⟨_, _, rfl, .inl rfl, fun _ => Fault.noConfusion⟩
  | @unwritable phone addressed unwritable =>
    rw [Task.runOn_bind_ok (Task.runOn_lift_ok addressed.1 w), if_neg addressed.2]
    cases hlanguage : settingText call "language" with
    | error f =>
      rw [Task.runOn_bind_error (Task.runOn_lift_error rfl w), settingText_error hlanguage]
      exact ⟨_, _, rfl, .inl rfl, fun _ => Fault.noConfusion⟩
    | ok language =>
      obtain ⟨f, hrefused, hreach⟩ :=
        Provider.Client.request_of_unwritable unwritable ⟨recipient, template, some language⟩
      rw [Task.runOn_bind_ok (Task.runOn_lift_ok rfl w), Task.runOn_bind_ok (runOn_request_refused hrefused)]
      refine ⟨f, w, ?_, .inl rfl, Provider.Client.request_error hrefused⟩
      cases f with
      | transport reason message => exact (hreach reason message rfl).elim
      | _ => rfl
  | @unread phone language made answer addressed spoken hmade answered unread =>
    obtain ⟨kind, hunread⟩ := unread
    have hbound : (w.line.send made).1.bind services.client.readAnswer = .error (Provider.tooDeep kind) := by
      rw [answered]
      exact hunread
    rw [Task.runOn_bind_ok (Task.runOn_lift_ok addressed.1 w), if_neg addressed.2,
      Task.runOn_bind_ok (Task.runOn_lift_ok spoken w), Task.runOn_bind_ok (runOn_request_made hmade), hbound]
    exact ⟨_, _, rfl, .inr ⟨made, rfl⟩, fun _ => Fault.noConfusion⟩

end Deliver

theorem tokenOpening_cases (services : Services) (context : RunContext) (w : World α) {o : Outcome String}
    (h : tokenOpening services context w = some o) :
    (∃ token, o = .ok token) ∨ (∃ f, o = .error (.failure f) ∧ Service.isCipherFailure f = true) ∨
      ∃ byte first last reason, o = .error (.undecodable byte first last reason) := by
  obtain ⟨t, -, hopened⟩ := Option.bind_eq_some_iff.mp h
  obtain ⟨opening, hopening, rfl⟩ := Option.map_eq_some_iff.mp hopened
  obtain ⟨row, -, rfl⟩ := Option.map_eq_some_iff.mp hopening
  have hcipher {f : Failure} (kind : f.kind = .invalidCiphertextFormat ∨ f.kind = .authenticationFailed) :
      Service.isCipherFailure f = true := by
    unfold Service.isCipherFailure
    rcases kind with kind | kind <;> rw [kind] <;> rfl
  have hends := Secret.Cipher.decrypt_opening services.cipher row.encryptedSecret w.now
  generalize services.cipher.decrypt row.encryptedSecret w.now = o at hends
  cases hends with
  | malformed _ kind => exact .inr (.inl ⟨_, rfl, hcipher (.inl kind)⟩)
  | forged _ _ kind => exact .inr (.inl ⟨_, rfl, hcipher (.inr kind)⟩)
  | opened _ _ => exact .inl ⟨_, rfl⟩
  | illegible _ _ _ => exact .inr (.inr ⟨_, _, _, _, rfl⟩)

theorem sendTemplate_concluded (hlive : services.dryRun = false) (ht : w.database.tables = some t)
    (hreach : w.line.Answers) (h : ¬Escapes services call context w) :
    Concluded call w ((sendTemplate services call context).runOn w).1
      ((sendTemplate services call context).runOn w).2 := by
  cases hrecipient : settingOrPayload call context "to" "lead.phone" with
  | error f => exact (h (.textless (.inl hrecipient))).elim
  | ok recipient =>
  cases htemplate : settingText call "template" with
  | error f => exact (h (.textless (.inr htemplate))).elim
  | ok template =>
  by_cases hlacking : recipient = "" ∨ template = ""
  · rw [runOn_sendTemplate hrecipient htemplate, if_pos hlacking]
    exact lacking_concluded call _ w.now w
  · have hcomplete : Complete call context recipient template := ⟨hrecipient, htemplate, not_or.mp hlacking⟩
    have htoken := runOn_accessToken_opening services call context ht
    rw [runOn_sendTemplate_complete hlive hcomplete]
    cases hopening : tokenOpening services context w with
    | none =>
      rw [hopening] at htoken
      rw [Task.runOn_bind_error htoken]
      exact missing_concluded call context w.now w
    | some o =>
      rw [hopening] at htoken
      rcases tokenOpening_cases services context w hopening with
        ⟨token, rfl⟩ | ⟨f, rfl, hcipher⟩ | ⟨byte, first, last, reason, rfl⟩
      · rw [Task.runOn_bind_ok htoken]
        exact deliver_concluded hreach fun hblocked => h (.blocked hcomplete hopening hblocked)
      · rw [Task.runOn_bind_error htoken]
        exact .cipher hcipher
      · exact (h (.illegible hcomplete hopening)).elim

theorem sendTemplate_escaped (hlive : services.dryRun = false) (h : Escapes services call context w) :
    ∃ f w', (sendTemplate services call context).runOn w = (.error f, w') ∧
      (w' = w ∨ ∃ made, w' = w.sent made) ∧ ∀ failure, f ≠ .failure failure := by
  have htoken {o : Outcome String} (hopening : tokenOpening services context w = some o) :
      (accessToken services call context).runOn w = (o, w) := by
    obtain ⟨t, ht, -⟩ := Option.bind_eq_some_iff.mp hopening
    rw [runOn_accessToken_opening services call context ht, hopening, Option.getD_some]
  cases h with
  | @textless f textless =>
    refine ⟨.integerTooLong, w, ?_, .inl rfl, fun _ => Fault.noConfusion⟩
    unfold sendTemplate
    rw [Task.runOn_bind_ok (Task.runOn_get w)]
    cases hrecipient : settingOrPayload call context "to" "lead.phone" with
    | error g => rw [Task.runOn_bind_error (Task.runOn_lift_error rfl w), settingOrPayload_error hrecipient]
    | ok recipient =>
      have htemplate : settingText call "template" = .error f :=
        textless.resolve_left fun heq => by cases hrecipient.symm.trans heq
      rw [Task.runOn_bind_ok (Task.runOn_lift_ok rfl w), Task.runOn_bind_error (Task.runOn_lift_error htemplate w),
        settingText_error htemplate]
  | @illegible recipient template reason byte first last complete opening =>
    refine ⟨.undecodable byte first last reason, w, ?_, .inl rfl, fun _ => Fault.noConfusion⟩
    rw [runOn_sendTemplate_complete hlive complete, Task.runOn_bind_error (htoken opening)]
  | blocked complete opening blocked =>
    rw [runOn_sendTemplate_complete hlive complete, Task.runOn_bind_ok (htoken opening)]
    exact deliver_blocked blocked

end Action.WhatsApp

/-! ### After every history -/

namespace Integration

open Action.WhatsApp

variable {α : Type}

/-- The recipient or the template has no text, or a sending with the token that the client saved last is blocked. -/
inductive Unsendable (services : Services) (call : ActionCall) (context : RunContext) (steps : List Step)
    (line : Provider.Line) : Prop where
  | textless {f : Fault} (textless : Action.settingOrPayload call context "to" "lead.phone" = .error f ∨
      Action.settingText call "template" = .error f)
  | blocked {recipient template token : String} (complete : Complete call context recipient template)
      (saved : lastSaved context.owner .accessToken steps = some token)
      (blocked : Blocked services call recipient template token line)

theorem tokenOpening_after {s : Service} {steps : List Step} {w : World α} {services : Services}
    {context : RunContext} (hfresh : Fresh w)
    (hgiven : ∀ step ∈ steps, ∀ save ∈ step.savesOf context.owner, save.2 ≠ "")
    (hcipher : services.cipher = s.cipher) :
    tokenOpening services context (s.after steps w) = (lastSaved context.owner .accessToken steps).map .ok := by
  obtain ⟨t, ht, hopened⟩ := after_fresh hfresh hgiven (s := s)
  rw [tokenOpening, ht, Option.bind_some, hcipher, hopened, Option.map_map]
  rfl

theorem escapes_after_iff {s : Service} {steps : List Step} {w : World α} {services : Services} {call : ActionCall}
    {context : RunContext} (hfresh : Fresh w)
    (hgiven : ∀ step ∈ steps, ∀ save ∈ step.savesOf context.owner, save.2 ≠ "")
    (hcipher : services.cipher = s.cipher) :
    Escapes services call context (s.after steps w) ↔
      Unsendable services call context steps (s.after steps w).line := by
  have hopening := tokenOpening_after hfresh hgiven hcipher
  constructor
  · rintro (textless | ⟨complete, opening⟩ | ⟨complete, opening, blocked⟩)
    · exact .textless textless
    · obtain ⟨token, -, htoken⟩ := Option.map_eq_some_iff.mp (hopening.symm.trans opening)
      cases htoken
    · obtain ⟨token, htoken, hsame⟩ := Option.map_eq_some_iff.mp (hopening.symm.trans opening)
      obtain rfl := Except.ok.inj hsame
      exact .blocked complete htoken blocked
  · rintro (textless | ⟨complete, htoken, blocked⟩)
    · exact .textless textless
    · exact .blocked complete (by rw [hopening, htoken, Option.map_some]) blocked

/-- After every history in which the client saved no empty secret, and with any answer of the provider or fault of
the transport, the action that sends a template message concludes as it is meant to, unless it escapes. Then it
ends in a fault that is no failure of the engine, and leaves everything as it was but for the request that it may have
made. Under the key that the secrets were sealed with, it escapes if and only if a setting has no text, or the request
with the token that was saved last cannot be written down, or the answer to it goes too deep to be read. -/
theorem template_endings (s : Service) (steps : List Step) (w : World α) (services : Services) (call : ActionCall)
    (context : RunContext) (hfresh : Fresh w)
    (hgiven : ∀ step ∈ steps, ∀ save ∈ step.savesOf context.owner, save.2 ≠ "")
    (hreach : (s.after steps w).line.Answers) (hlive : services.dryRun = false) :
    let before := s.after steps w
    let final := (sendTemplate services call context).runOn before
    (¬Escapes services call context before → Concluded call before final.1 final.2) ∧
      (Escapes services call context before → ∃ f, final.1 = .error f ∧ (∀ failure, f ≠ .failure failure) ∧
        (final.2 = before ∨ ∃ made, final.2 = before.sent made)) ∧
      (services.cipher = s.cipher →
        (Escapes services call context before ↔ Unsendable services call context steps before.line)) := by
  dsimp only
  obtain ⟨t, ht, -⟩ := after_fresh hfresh hgiven (s := s)
  refine ⟨sendTemplate_concluded hlive ht hreach, fun hescapes => ?_, escapes_after_iff hfresh hgiven⟩
  obtain ⟨f, w', hfinal, hleft, hother⟩ := sendTemplate_escaped hlive hescapes
  rw [hfinal]
  exact ⟨f, rfl, hother, hleft⟩

theorem templateCall_complete : Complete templateCall firstContext "+15550001111" "welcome" :=
  ⟨rfl, rfl, by decide, by decide⟩

theorem template_endings_twoClients :
    (∀ step ∈ twoClients, ∀ save ∈ step.savesOf firstContext.owner, save.2 ≠ "") ∧
      (∀ answer, .provider answer ∉ twoClients) ∧
      let before := liveService.after twoClients firstWorld
      let final := (sendTemplate liveServices templateCall firstContext).runOn before
      ¬Escapes liveServices templateCall firstContext before ∧ Concluded templateCall before final.1 final.2 := by
  have hgiven : ∀ step ∈ twoClients, ∀ save ∈ step.savesOf firstContext.owner, save.2 ≠ "" := by decide
  have hsteady : ∀ answer, .provider answer ∉ twoClients := fun answer h => by simp [twoClients] at h
  obtain ⟨hconcluded, -, hescapes⟩ := template_endings liveService twoClients firstWorld liveServices templateCall
    firstContext firstWorld_fresh hgiven
    (after_answers firstWorld_answers fun answer h => absurd h (hsteady answer)) rfl
  have hsendable : ¬Unsendable liveServices templateCall firstContext twoClients
      (liveService.after twoClients firstWorld).line := by
    rintro (htextless | ⟨-, htoken, hblocked⟩)
    · rcases htextless with hrecipient | htemplate
      · cases hrecipient
      · cases htemplate
    · obtain rfl : "EAAG 3" = _ := Option.some.inj htoken
      rcases hblocked with hphone | ⟨-, hlanguage⟩ | ⟨⟨hphone, -⟩, hunwritable⟩ | ⟨-, -, -, hanswered, hunread⟩
      · cases hphone
      · cases hlanguage
      · obtain rfl : "15550003" = _ := Except.ok.inj hphone
        exact Provider.Client.writable_of_ascii (by decide) (by simp) hunwritable
      · exact firstWorld_read _ _ hanswered hunread
  have hconcludes := fun h => hsendable ((hescapes rfl).mp h)
  exact ⟨hgiven, hsteady, hconcludes, hconcluded hconcludes⟩

/-- A call whose recipient is a number of too many digits. -/
def numberCall : ActionCall := { templateCall with config := ("to", Json.leastUnwritten) :: templateCall.config }

/-- The action ends in no failure of the engine, and leaves the database as it was. -/
def EndsOtherwise (call : ActionCall) (w : World Unit) : Prop :=
  let final := (sendTemplate liveServices call firstContext).runOn w
  (∃ f, final.1 = .error f ∧ ∀ failure, f ≠ .failure failure) ∧ final.2.database = w.database

theorem endsOtherwise_of_escapes {call : ActionCall} {w : World Unit} (h : Escapes liveServices call firstContext w) :
    EndsOtherwise call w := by
  obtain ⟨f, w', hfinal, hleft, hother⟩ := sendTemplate_escaped rfl h
  unfold EndsOtherwise
  dsimp only
  rw [hfinal]
  refine ⟨⟨f, rfl, hother⟩, ?_⟩
  rcases hleft with rfl | ⟨made, rfl⟩ <;> rfl

theorem unsendable_deep {lists : Nat} (hdeep : 950 < lists) :
    Unsendable liveServices templateCall firstContext (connected "token") (deepWorld lists).line := by
  have hwritable : ¬liveServices.client.Unwritable "token" "15550003" :=
    Provider.Client.writable_of_ascii (by decide) (by simp)
  have haddressed : Addressed templateCall "15550003" := ⟨rfl, by decide⟩
  have hspoken : Action.settingText templateCall "language" = .ok "" := rfl
  have hunread := liveServices.client.readAnswer_of_open_lists 200 hdeep []
  exact .blocked templateCall_complete rfl (.unread haddressed hspoken
    (Provider.Client.request_of_writable hwritable _) rfl ⟨"array", hunread⟩)

/-- A token that is not ASCII was saved, the recipient is a number of too many digits, or the body of the answer to a
message that was accepted goes too deep. -/
theorem template_escapes :
    EndsOtherwise templateCall (liveService.after (connected "tøken") firstWorld) ∧
    EndsOtherwise numberCall (liveService.after (connected "token") firstWorld) ∧
    EndsOtherwise templateCall (liveService.after (connected "token") (deepWorld 2000)) := by
  refine ⟨endsOtherwise_of_escapes ?_, endsOtherwise_of_escapes ?_, endsOtherwise_of_escapes ?_⟩
  · have hunwritable : liveServices.client.Unwritable "tøken" "15550003" := .inr ⟨'ø', by simp, by decide⟩
    exact (escapes_after_iff firstWorld_fresh (by decide) rfl).mpr
      (.blocked templateCall_complete rfl (.unwritable ⟨rfl, by decide⟩ hunwritable))
  · exact .textless (.inl (settingOrPayload_of_unwritten rfl Json.leastUnwritten_unwritten))
  · exact (escapes_after_iff (deepWorld_fresh 2000) (by decide) rfl).mpr (unsendable_deep (by decide))

end Integration

end Cadence
