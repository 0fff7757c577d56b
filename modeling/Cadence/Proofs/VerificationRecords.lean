import Cadence.Proofs.ClientHistory
import Mathlib.Data.List.TakeWhile

/-!
# Records of verifications

A verification finds something out and puts it on record. What it finds out depends on the credentials by the
texts they open to only. A live one has to write down a request with these texts, and where that is not
possible it ends in a fault that no record tells of.
-/

namespace Cadence

open Storage Integration

namespace Provider

/-! ### Requests that can be written down -/

theorem headerFault?_eq_none_iff {value : String} :
    headerFault? value = none ↔ ∀ c ∈ value.toList, c.toNat < 128 := by
  have hfront := List.takeWhile_prefix (l := value.toList) fun c : Char => decide (c.toNat < 128)
  have hall : value.toList.takeWhile (fun c : Char => decide (c.toNat < 128)) = value.toList ↔
      ∀ c ∈ value.toList, c.toNat < 128 := by
    simp only [List.takeWhile_eq_self_iff, decide_eq_true_eq]
  rw [← hall]
  unfold headerFault?
  dsimp only
  split
  · rename_i hdrop
    exact iff_of_true rfl (hfront.eq_of_length_le (List.drop_eq_nil_iff.mp hdrop))
  · rename_i c rest hdrop
    refine iff_of_false (by simp) fun heq => ?_
    rw [heq, List.drop_length] at hdrop
    cases hdrop

theorem headerFault?_eq_some {value : String} {f : Fault} (h : headerFault? value = some f) :
    ∃ c first last, f = .unencodable c first last := by
  unfold headerFault? at h
  dsimp only at h
  split at h
  · cases h
  · exact ⟨_, _, _, (Option.some.inj h).symm⟩

theorem bearer_ascii_iff {token : String} :
    (∀ c ∈ ("Bearer " ++ token).toList, c.toNat < 128) ↔ ∀ c ∈ token.toList, c.toNat < 128 := by
  rw [String.toList_append]
  refine ⟨fun h c hc => h c (List.mem_append_right _ hc), fun h c hc => ?_⟩
  rcases List.mem_append.mp hc with hc | hc
  · have hmark : ∀ ch ∈ "Bearer ".toList, ch.toNat < 128 := by simp
    exact hmark c hc
  · exact h c hc

/-- A request cannot be written down: its address is too long, or the token is not ASCII. -/
def Client.Unwritable (c : Client) (token phone : String) : Prop :=
  maxUrlLength < (c.messagesUrl phone).length ∨ ∃ ch ∈ token.toList, 128 ≤ ch.toNat

variable {c : Client} {token phone : String}

theorem Client.writable_of_ascii (hshort : (c.messagesUrl phone).length ≤ maxUrlLength)
    (hascii : ∀ ch ∈ token.toList, ch.toNat < 128) : ¬c.Unwritable token phone :=
  not_or.mpr ⟨Nat.not_lt.mpr hshort, fun ⟨ch, hch, hbeyond⟩ => Nat.not_lt.mpr hbeyond (hascii ch hch)⟩

theorem Client.request_of_headerFault {f : Fault} (hshort : ¬maxUrlLength < (c.messagesUrl phone).length)
    (hheader : headerFault? ("Bearer " ++ token) = some f) (m : Message) :
    c.request token phone m = .error f := by
  unfold request
  dsimp only
  rw [if_neg hshort, hheader]

/-- The fault is none of the transport, which is what a verification reports. -/
theorem Client.request_of_unwritable (h : c.Unwritable token phone) (m : Message) :
    ∃ f, c.request token phone m = .error f ∧ ∀ name message, f ≠ .transport name message := by
  by_cases hlong : maxUrlLength < (c.messagesUrl phone).length
  · exact ⟨_, if_pos hlong, fun _ _ => Fault.noConfusion⟩
  · cases hheader : headerFault? ("Bearer " ++ token) with
    | none =>
      obtain ⟨ch, hch, hbeyond⟩ := h.resolve_left hlong
      have hascii := bearer_ascii_iff.mp (headerFault?_eq_none_iff.mp hheader) ch hch
      exact absurd hascii (Nat.not_lt.mpr hbeyond)
    | some f =>
      obtain ⟨ch, first, last, rfl⟩ := headerFault?_eq_some hheader
      exact ⟨_, request_of_headerFault hlong hheader m, fun _ _ => Fault.noConfusion⟩

theorem Client.request_of_writable (h : ¬c.Unwritable token phone) (m : Message) :
    c.request token phone m = .ok ⟨normalUrl (c.messagesUrl phone), "Bearer " ++ token,
      templateBody m.recipient m.template (c.languageOf m)⟩ := by
  obtain ⟨hshort, hascii⟩ := not_or.mp h
  have hheader : headerFault? ("Bearer " ++ token) = none := by
    refine headerFault?_eq_none_iff.mpr (bearer_ascii_iff.mpr fun ch hch => ?_)
    exact Nat.lt_of_not_le fun hbeyond => hascii ⟨ch, hch, hbeyond⟩
  unfold request
  dsimp only
  rw [if_neg hshort, hheader]

end Provider

namespace Integration

variable {α : Type}

/-- The texts of the message have a written form. -/
def VerifyRequest.Readable (r : VerifyRequest) : Prop :=
  r.recipient.isWritable = true ∧ r.template.isWritable = true ∧ r.language.isWritable = true

namespace Service

variable {w : World α} {t : Tables} {o : Owner} {s : Service} {r : VerifyRequest} {token phone : String}

/-! ### The stages of a verification -/

/-- The trimmed text of a value that has a written form, or else another text. -/
def trimmedOr (v : Json) (fallback : String) : String :=
  let text := Text.strip v.displayGiven
  if text = "" then fallback else text

/-- The test message for a request whose texts have a written form. -/
def messageFor (s : Service) (r : VerifyRequest) : Provider.Message :=
  ⟨Text.strip r.recipient.displayGiven, trimmedOr r.template defaultTemplate,
    some (trimmedOr r.language s.defaultLanguage)⟩

theorem textOr_of_writable {v : Json} (h : v.isWritable = true) (fallback : String) :
    textOr v fallback = .ok (trimmedOr v fallback) := by
  rw [textOr, Json.shownGiven_of_writable h]
  rfl

theorem textOr_of_unwritten {v : Json} (h : v.isWritable = false) (fallback : String) :
    textOr v fallback = .error .integerTooLong := by
  rw [textOr, Json.shownGiven_of_unwritten h]
  rfl

theorem testMessage_of_readable (s : Service) {r : VerifyRequest} (h : r.Readable) :
    s.testMessage r = .ok (s.messageFor r) := by
  unfold testMessage
  rw [Json.shownGiven_of_writable h.1, textOr_of_writable h.2.1, textOr_of_writable h.2.2]
  rfl

theorem testMessage_of_not_readable (s : Service) {r : VerifyRequest} (h : ¬r.Readable) :
    s.testMessage r = .error .integerTooLong := by
  unfold testMessage
  by_cases hrecipient : r.recipient.isWritable = true
  · rw [Json.shownGiven_of_writable hrecipient]
    by_cases htemplate : r.template.isWritable = true
    · have hlanguage : r.language.isWritable = false :=
        Bool.eq_false_iff.mpr fun hlanguage => h ⟨hrecipient, htemplate, hlanguage⟩
      rw [textOr_of_writable htemplate, textOr_of_unwritten hlanguage]
      rfl
    · rw [textOr_of_unwritten (Bool.eq_false_iff.mpr htemplate)]
      rfl
  · rw [Json.shownGiven_of_unwritten (Bool.eq_false_iff.mpr hrecipient)]
    rfl

/-- Without a message there is no request. -/
theorem runOn_sendTest_unreadable (h : ¬r.Readable) (checks : List Check) (evidence : Members) (w : World α) :
    (s.sendTest token phone r checks evidence).runOn w = (.error .integerTooLong, w) := by
  have hmessage := Task.runOn_lift_error (s.testMessage_of_not_readable h) w
  unfold sendTest
  dsimp only
  rw [Task.runOn_attempt_bind (Task.runOn_bind_error hmessage)]
  rfl

/-- What comes of a test message, by what came of its request. -/
def tested (checks : List Check) (evidence : Members) : Outcome Provider.Response → Outcome Findings
  | .ok response =>
    let detail := if response.isOk then "Live test-send succeeded."
      else "Live test-send failed (" ++ toString response.status ++ ")."
    .ok ⟨if response.isOk then .passed else .failed, checks ++ [⟨checkType, response.isOk, detail⟩],
      (evidence.set "httpStatus" (.int response.status)).set "response" (.obj response.body)⟩
  | .error (.transport _ message) =>
    .ok ⟨.failed, checks ++ [⟨checkType, false, "Live test-send failed (" ++ message ++ ")."⟩],
      evidence.set "error" (.str message)⟩
  | .error fault => .error fault

/-- A test message with its texts at hand is sent as any message is. -/
theorem runOn_sendTest_message {m : Provider.Message} (hmessage : s.testMessage r = .ok m)
    {outcome : Outcome Provider.Response} {w' : World α}
    (hsend : (World.overLine (s.client.send token phone m)).runOn w = (outcome, w')) (checks : List Check)
    (evidence : Members) :
    (s.sendTest token phone r checks evidence).runOn w = (tested checks evidence outcome, w') := by
  have hsent : (do World.overLine (s.client.send token phone (← s.testMessage r)) :
      Task (World α) Provider.Response).runOn w = (outcome, w') :=
    (Task.runOn_bind_ok (Task.runOn_lift_ok hmessage w)).trans hsend
  unfold sendTest
  dsimp only
  rw [Task.runOn_attempt_bind hsent]
  rcases outcome with fault | response
  · cases fault <;> rfl
  · dsimp only [tested]
    cases response.isOk <;> rfl

/-- A fault before the request is sent goes through, since it is none of the transport. -/
theorem runOn_sendTest_unsent {m : Provider.Message} {f : Fault} (hmessage : s.testMessage r = .ok m)
    (h : s.client.request token phone m = .error f) (hreach : ∀ name message, f ≠ .transport name message)
    (checks : List Check) (evidence : Members) (w : World α) :
    (s.sendTest token phone r checks evidence).runOn w = (.error f, w) := by
  have hsend : (World.overLine (s.client.send token phone m)).runOn w = (.error f, w) := by rw [World.runOn_send, h]
  rw [runOn_sendTest_message hmessage hsend]
  refine Prod.ext_iff.mpr ⟨?_, rfl⟩
  cases f with
  | transport name message => exact absurd rfl (hreach name message)
  | _ => rfl

theorem runOn_sendTest {m : Provider.Message} {request : Provider.Request} (hmessage : s.testMessage r = .ok m)
    (h : s.client.request token phone m = .ok request) (checks : List Check) (evidence : Members) (w : World α) :
    (s.sendTest token phone r checks evidence).runOn w =
      (tested checks evidence ((w.line.send request).1.bind s.client.readAnswer), w.sent request) :=
  runOn_sendTest_message hmessage (by rw [World.runOn_send, h]) checks evidence

theorem world_of_sendTest (checks : List Check) (evidence : Members) (w : World α) :
    ((s.sendTest token phone r checks evidence).runOn w).2 = w ∨
      ∃ request, ((s.sendTest token phone r checks evidence).runOn w).2 = w.sent request := by
  by_cases hreadable : r.Readable
  · have hmessage := s.testMessage_of_readable hreadable
    by_cases hunwritable : s.client.Unwritable token phone
    · obtain ⟨f, hrequest, hother⟩ := Provider.Client.request_of_unwritable hunwritable (s.messageFor r)
      rw [runOn_sendTest_unsent hmessage hrequest hother]
      exact .inl rfl
    · rw [runOn_sendTest hmessage (Provider.Client.request_of_writable hunwritable _)]
      exact .inr ⟨_, rfl⟩
  · rw [runOn_sendTest_unreadable hreadable]
    exact .inl rfl

theorem runOn_verifyLive {a b : Credential} (ha : s.cipher.decrypt a.encryptedSecret w.now = .ok token)
    (hb : s.cipher.decrypt b.encryptedSecret w.now = .ok phone) (checks : List Check) (evidence : Members) :
    (s.verifyLive o r a b checks evidence).runOn w = (s.sendTest token phone r checks evidence).runOn w := by
  have hsecrets : (do
      let token ← World.decrypt s.cipher a.encryptedSecret
      return (token, ← World.decrypt s.cipher b.encryptedSecret) : Task (World α) (String × String)).runOn w =
        (.ok (token, phone), w) := by
    rw [Task.runOn_bind_ok ((World.runOn_decrypt _ _ w).trans (by rw [ha])),
      Task.runOn_bind_ok ((World.runOn_decrypt _ _ w).trans (by rw [hb]))]
    rfl
  unfold verifyLive
  exact Task.runOn_attempt_bind hsecrets

theorem decrypt_of_opening {cipher : Secret.Cipher} {field : CredentialField} {secret : String}
    (h : openings cipher o t field = some fun _ => .ok secret) :
    ∃ c, newestOf (o.credentialKey field) t.credentials = some c ∧
      ∀ now, cipher.decrypt c.encryptedSecret now = .ok secret := by
  obtain ⟨c, hc, hopen⟩ := Option.map_eq_some_iff.mp h
  exact ⟨c, hc, congrFun hopen⟩

/-- With both secrets at hand, a live verification that is allowed is the sending of the test message. -/
theorem runOn_findings_live (ht : w.database.tables = some t)
    (htoken : openings s.cipher o t .accessToken = some fun _ => .ok token)
    (hphone : openings s.cipher o t .phoneNumberId = some fun _ => .ok phone)
    (hlive : r.mode = .live) (hallowed : s.allowLive = true) :
    ∃ checks evidence, (s.findings o r).runOn w = (s.sendTest token phone r checks evidence).runOn w := by
  obtain ⟨a, ha, hopena⟩ := decrypt_of_opening htoken
  obtain ⟨b, hb, hopenb⟩ := decrypt_of_opening hphone
  unfold findings
  rw [Task.runOn_bind_ok (runOn_current ht _), ha, Task.runOn_bind_ok (runOn_current ht _), hb, hlive]
  simp only [hallowed, if_true]
  exact ⟨_, _, runOn_verifyLive (hopena _) (hopenb _) _ _⟩

theorem runOn_findings_idle (ht : w.database.tables = some t)
    (h : r.mode = .live → s.allowLive = true →
      openings s.cipher o t .accessToken = none ∨ openings s.cipher o t .phoneNumberId = none) :
    ∃ f, (s.findings o r).runOn w = (.ok f, w) := by
  unfold findings
  rw [Task.runOn_bind_ok (runOn_current ht _), Task.runOn_bind_ok (runOn_current ht _)]
  dsimp only
  split
  · rename_i a b ha hb hlive
    split
    · -- Both credentials are there, and `h` says that one is not.
      rename_i hallowed
      rcases h hlive hallowed with hnone | hnone
      · rw [openings, ha] at hnone
        cases hnone
      · rw [openings, hb] at hnone
        cases hnone
    · exact ⟨_, rfl⟩
  · exact ⟨_, rfl⟩
  · exact ⟨_, rfl⟩

theorem runOn_verify_found {f : Findings} {w' : World α} (hfound : (s.findings o r).runOn w = (.ok f, w'))
    (ht : w'.database.tables = some t) :
    (s.verify o r).runOn w =
      let row := t.verificationRow (recordOf o r.initiatedBy f) w'.now
      (.ok (decide (f.status = .passed), row), w'.withTables (t.addVerification row)) := by
  rw [verify, Task.runOn_bind_ok hfound, Task.runOn_bind_ok (runOn_putOnRecord ht _ _)]
  rfl

theorem runOn_verify_lost {f : Fault} {w' : World α} (hlost : (s.findings o r).runOn w = (.error f, w')) :
    (s.verify o r).runOn w = (.error f, w') :=
  Task.runOn_bind_error hlost

end Service

/-! ### Verifications after a history -/

/-- A verification comes as far as to the sending of a message, with the secrets that were saved last. -/
structure Sends (s : Service) (o : Owner) (r : VerifyRequest) (steps : List Step) (token phone : String) :
    Prop where
  live : r.mode = .live
  allowed : s.allowLive = true
  savedToken : lastSaved o .accessToken steps = some token
  savedPhone : lastSaved o .phoneNumberId steps = some phone

/-- What a verification that sends does not get over: a text of the message has no written form, the request cannot be
written down, or the answer to it goes too deep to be read. -/
inductive Stuck (s : Service) (o : Owner) (r : VerifyRequest) (steps : List Step) (line : Provider.Line) : Prop where
  | textless {token phone : String} (sends : Sends s o r steps token phone) (unreadable : ¬r.Readable)
  | unwritable {token phone : String} (sends : Sends s o r steps token phone)
      (unwritable : s.client.Unwritable token phone)
  | unread {token phone : String} {request : Provider.Request} {answer : Provider.Answer}
      (sends : Sends s o r steps token phone) (readable : r.Readable)
      (made : s.client.request token phone (s.messageFor r) = .ok request)
      (answered : (line.send request).1 = .ok answer) (unread : s.client.Unread answer)

section After
variable {s : Service} {steps : List Step} {w : World α} {o : Owner} {r : VerifyRequest} (hfresh : Fresh w)
  (hgiven : ∀ step ∈ steps, ∀ save ∈ step.savesOf o, save.2 ≠ "")
include hfresh hgiven

theorem findings_after_live {token phone : String} (h : Sends s o r steps token phone) :
    ∃ checks evidence, (s.findings o r).runOn (s.after steps w) =
      (s.sendTest token phone r checks evidence).runOn (s.after steps w) := by
  obtain ⟨t, ht, hopened⟩ := after_fresh hfresh hgiven (s := s)
  refine Service.runOn_findings_live ht ?_ ?_ h.live h.allowed
  · rw [hopened, h.savedToken]
    rfl
  · rw [hopened, h.savedPhone]
    rfl

theorem findings_after_idle (h : ∀ token phone, ¬Sends s o r steps token phone) :
    ∃ f, (s.findings o r).runOn (s.after steps w) = (.ok f, s.after steps w) := by
  obtain ⟨t, ht, hopened⟩ := after_fresh hfresh hgiven (s := s)
  refine Service.runOn_findings_idle ht fun hlive hallowed => ?_
  simp only [hopened, Option.map_eq_none_iff]
  cases htoken : lastSaved o .accessToken steps with
  | none => exact .inl rfl
  | some token =>
    cases hphone : lastSaved o .phoneNumberId steps with
    | none => exact .inr rfl
    | some phone => exact absurd ⟨hlive, hallowed, htoken, hphone⟩ (h token phone)

/-- A verification that is stuck finds nothing out. What it leaves behind is the request, if it made one. -/
theorem findings_after_stuck (h : Stuck s o r steps (s.after steps w).line) :
    ∃ f w', (s.findings o r).runOn (s.after steps w) = (.error f, w') ∧
      (w' = s.after steps w ∨ ∃ request, w' = (s.after steps w).sent request) := by
  cases h with
  | textless sends unreadable =>
    obtain ⟨checks, evidence, hfindings⟩ := findings_after_live hfresh hgiven sends
    rw [Service.runOn_sendTest_unreadable unreadable] at hfindings
    exact ⟨_, _, hfindings, .inl rfl⟩
  | unwritable sends hunwritable =>
    obtain ⟨checks, evidence, hfindings⟩ := findings_after_live hfresh hgiven sends
    by_cases hreadable : r.Readable
    · have hmessage := s.testMessage_of_readable hreadable
      obtain ⟨f, hrequest, hother⟩ := Provider.Client.request_of_unwritable hunwritable (s.messageFor r)
      rw [Service.runOn_sendTest_unsent hmessage hrequest hother] at hfindings
      exact ⟨_, _, hfindings, .inl rfl⟩
    · rw [Service.runOn_sendTest_unreadable hreadable] at hfindings
      exact ⟨_, _, hfindings, .inl rfl⟩
  | @unread token phone request answer sends readable made answered unread =>
    obtain ⟨checks, evidence, hfindings⟩ := findings_after_live hfresh hgiven sends
    obtain ⟨kind, hunread⟩ := unread
    have hbound : ((s.after steps w).line.send request).1.bind s.client.readAnswer =
        .error (Provider.tooDeep kind) := by
      rw [answered]
      exact hunread
    rw [Service.runOn_sendTest (s.testMessage_of_readable readable) made, hbound] at hfindings
    exact ⟨_, _, hfindings, .inr ⟨request, rfl⟩⟩

/-- A fault of the transport and an answer of any status are findings, and so is all that keeps a verification
from sending. -/
theorem findings_after_not_stuck (h : ¬Stuck s o r steps (s.after steps w).line)
    (hreach : (s.after steps w).line.Answers) :
    ∃ f w', (s.findings o r).runOn (s.after steps w) = (.ok f, w') ∧
      w'.database = (s.after steps w).database := by
  by_cases hsends : ∃ token phone, Sends s o r steps token phone
  · obtain ⟨token, phone, hsends⟩ := hsends
    have hreadable : r.Readable := by
      by_contra hunreadable
      exact h (.textless hsends hunreadable)
    have hwritable : ¬s.client.Unwritable token phone := fun hunwritable => h (.unwritable hsends hunwritable)
    have hmessage := s.testMessage_of_readable hreadable
    obtain ⟨checks, evidence, hfindings⟩ := findings_after_live hfresh hgiven hsends
    have hrequest := Provider.Client.request_of_writable hwritable (s.messageFor r)
    rw [Service.runOn_sendTest hmessage hrequest] at hfindings
    cases hanswer : ((s.after steps w).line.send _).1 with
    | error fault =>
      obtain ⟨name, message, rfl⟩ := hreach _ _ _ hanswer
      rw [hanswer] at hfindings
      exact ⟨_, _, hfindings, rfl⟩
    | ok answer =>
      obtain ⟨response, hread⟩ := (s.client.readAnswer_cases answer).resolve_right fun hunread =>
        h (.unread hsends hreadable hrequest hanswer hunread)
      have hbound : (Except.ok answer).bind s.client.readAnswer = .ok response := hread
      rw [hanswer, hbound] at hfindings
      exact ⟨_, _, hfindings, rfl⟩
  · obtain ⟨f, hfindings⟩ := findings_after_idle hfresh hgiven fun token phone h => hsends ⟨token, phone, h⟩
    exact ⟨f, _, hfindings, rfl⟩

end After

/-- One verification of a client was put on record, and the tables are as before otherwise. -/
def RecordsOne (o : Owner) (w w' : World α) : Prop :=
  ∃ t record, w.database.tables = some t ∧ VerificationKey.of record = o.verificationKey ∧
    w'.database.tables = some (t.addVerification record)

theorem not_recordsOne_of_database {o : Owner} {w w' : World α} (h : w'.database = w.database) :
    ¬RecordsOne o w w' := by
  rintro ⟨t, record, ht, -, ht'⟩
  have hlength := congrArg (fun t => t.verifications.length) (Option.some.inj (ht.symm.trans (h ▸ ht')))
  rw [Tables.addVerification, List.length_append] at hlength
  exact absurd hlength (Nat.ne_of_lt (Nat.lt_succ_self _))

theorem verify_of_found {s : Service} {o : Owner} {r : VerifyRequest} {w w' : World α} {f : Findings}
    (hfound : (s.findings o r).runOn w = (.ok f, w')) {t : Tables} (ht : w.database.tables = some t)
    (hsame : w'.database = w.database) :
    (∃ reply, ((s.verify o r).runOn w).1 = .ok reply) ∧ RecordsOne o w ((s.verify o r).runOn w).2 := by
  rw [Service.runOn_verify_found hfound (hsame ▸ ht)]
  exact ⟨⟨_, rfl⟩, t, _, ht, rfl, rfl⟩

/-- After every history in which the client saved no empty secret, and with any answer of the provider or
fault of the transport, a verification returns and puts exactly one record of the client in the tables, unless it
is stuck. Then it ends in a fault and leaves everything as it was, but for the request that it may have made. -/
theorem verification_recorded (s : Service) (steps : List Step) (w : World α) (o : Owner) (r : VerifyRequest)
    (hfresh : Fresh w) (hgiven : ∀ step ∈ steps, ∀ save ∈ step.savesOf o, save.2 ≠ "")
    (hreach : (s.after steps w).line.Answers) :
    let before := s.after steps w
    let final := (s.verify o r).runOn before
    (RecordsOne o before final.2 ↔ ¬Stuck s o r steps before.line) ∧
    (¬Stuck s o r steps before.line → ∃ reply, final.1 = .ok reply) ∧
    (Stuck s o r steps before.line → (∃ f, final.1 = .error f) ∧
      (final.2 = before ∨ ∃ request, final.2 = before.sent request)) := by
  intro before final
  obtain ⟨t, ht, -⟩ := after_fresh hfresh hgiven (s := s)
  by_cases hstuck : Stuck s o r steps before.line
  · obtain ⟨f, w', hfindings, hleft⟩ := findings_after_stuck hfresh hgiven hstuck
    have hfinal : final = (.error f, w') := Service.runOn_verify_lost hfindings
    have hnone : ¬RecordsOne o before w' := by
      refine not_recordsOne_of_database ?_
      rcases hleft with rfl | ⟨request, rfl⟩ <;> rfl
    rw [hfinal]
    exact ⟨iff_of_false hnone (not_not_intro hstuck), fun h => absurd hstuck h, fun _ => ⟨⟨f, rfl⟩, hleft⟩⟩
  · obtain ⟨f, w', hfindings, hsame⟩ := findings_after_not_stuck hfresh hgiven hstuck hreach
    obtain ⟨hreply, hrecord⟩ := verify_of_found hfindings ht hsame
    exact ⟨iff_of_true hrecord hstuck, fun _ => hreply, fun h => absurd h hstuck⟩

theorem liveRequest_readable : liveRequest.Readable := ⟨rfl, rfl, rfl⟩

theorem liveService_writable : ¬liveService.client.Unwritable "token" "PNID" :=
  Provider.Client.writable_of_ascii (by decide) (by simp)

theorem firstWorld_read (request : Provider.Request) (answer : Provider.Answer)
    (h : (firstWorld.line.send request).1 = .ok answer) : ¬liveService.client.Unread answer := by
  obtain rfl := Except.ok.inj h
  exact Provider.Client.not_unread rfl

def replacedToken : List Step :=
  [.call firstClient (.connect "tøken" "PNID" none none), .call secondClient (.connect "other" "ID" none none),
    .call firstClient (.rotate "token" none)]

theorem verification_recorded_replaced :
    (∀ step ∈ replacedToken, ∀ save ∈ step.savesOf firstClient, save.2 ≠ "") ∧
      let before := liveService.after replacedToken firstWorld
      let final := (liveService.verify firstClient liveRequest).runOn before
      ¬Stuck liveService firstClient liveRequest replacedToken before.line ∧
      RecordsOne firstClient before final.2 ∧ ∃ reply, final.1 = .ok reply := by
  have hgiven : ∀ step ∈ replacedToken, ∀ save ∈ step.savesOf firstClient, save.2 ≠ "" := by decide
  have hsteady : ∀ answer, .provider answer ∈ replacedToken →
      ({ transport := fun _ => answer } : Provider.Line).Answers := fun _ h => by simp [replacedToken] at h
  have hstuck : ¬Stuck liveService firstClient liveRequest replacedToken
      (liveService.after replacedToken firstWorld).line := by
    rintro (⟨-, hunreadable⟩ | ⟨hsends, hunwritable⟩ | ⟨-, -, -, hanswered, hunread⟩)
    · exact hunreadable liveRequest_readable
    · obtain rfl : "token" = _ := Option.some.inj hsends.savedToken
      obtain rfl : "PNID" = _ := Option.some.inj hsends.savedPhone
      exact liveService_writable hunwritable
    · exact firstWorld_read _ _ hanswered hunread
  obtain ⟨hrecorded, hreply, -⟩ := verification_recorded liveService replacedToken firstWorld firstClient
    liveRequest firstWorld_fresh hgiven (after_answers firstWorld_answers hsteady)
  exact ⟨hgiven, hstuck, hrecorded.mpr hstuck, hreply hstuck⟩

/-- A provider that opens as many lists in the body of its answer as it likes. -/
def deepWorld (lists : Nat) : World Unit :=
  { firstWorld with
    line := { transport := fun _ _ => .ok ⟨200, String.ofList (List.replicate lists '[' ++ [])⟩ } }

def connected (token : String) : List Step := [.call firstClient (.connect token "PNID" none none)]

theorem sends_connected (token : String) : Sends liveService firstClient liveRequest (connected token) token "PNID" :=
  ⟨rfl, rfl, rfl, rfl⟩

theorem deepWorld_fresh (lists : Nat) : Fresh (deepWorld lists) := ⟨fun _ => rfl, {}, rfl, rfl⟩

theorem testMessage_liveRequest : liveService.testMessage liveRequest = .ok (liveService.messageFor liveRequest) :=
  liveService.testMessage_of_readable liveRequest_readable

/-- A message was accepted, and the body of the answer goes deeper than 950 lists. -/
theorem verification_unread {lists : Nat} (hdeep : 950 < lists) :
    let before := liveService.after (connected "token") (deepWorld lists)
    let final := (liveService.verify firstClient liveRequest).runOn before
    final.1 = .error (Provider.tooDeep "array") ∧ ¬RecordsOne firstClient before final.2 := by
  intro before final
  have hrequest := Provider.Client.request_of_writable liveService_writable (liveService.messageFor liveRequest)
  obtain ⟨checks, evidence, hfindings⟩ :=
    findings_after_live (deepWorld_fresh lists) (by decide) (sends_connected "token")
  have hanswer (request : Provider.Request) :
      (before.line.send request).1.bind liveService.client.readAnswer = .error (Provider.tooDeep "array") :=
    liveService.client.readAnswer_of_open_lists 200 hdeep []
  rw [Service.runOn_sendTest testMessage_liveRequest hrequest, hanswer] at hfindings
  have hfinal : final = _ := Service.runOn_verify_lost hfindings
  rw [hfinal]
  exact ⟨rfl, not_recordsOne_of_database rfl⟩

/-- With a token that is not ASCII, a live verification ends in a fault and no record tells of it. The same is so for
an answer whose body goes too deep, also of a message that was accepted. -/
theorem verification_unrecorded :
    (let before := liveService.after (connected "tøken") firstWorld
      let final := (liveService.verify firstClient liveRequest).runOn before
      final.1 = .error (.unencodable 'ø' 8 8) ∧ ¬RecordsOne firstClient before final.2) ∧
    (let before := liveService.after (connected "token") (deepWorld 2000)
      let final := (liveService.verify firstClient liveRequest).runOn before
      final.1 = .error (Provider.tooDeep "array") ∧ ¬RecordsOne firstClient before final.2) := by
  refine ⟨?_, verification_unread (by decide)⟩
  intro before final
  have hrequest (m : Provider.Message) : liveService.client.request "tøken" "PNID" m =
      .error (.unencodable 'ø' 8 8) := Provider.Client.request_of_headerFault (by decide) rfl m
  obtain ⟨checks, evidence, hfindings⟩ := findings_after_live firstWorld_fresh (by decide) (sends_connected "tøken")
  have hfinal : final = (.error (.unencodable 'ø' 8 8), before) := Service.runOn_verify_lost
    (hfindings.trans (Service.runOn_sendTest_unsent testMessage_liveRequest (hrequest _)
      (fun _ _ => Fault.noConfusion) _ _ _))
  rw [hfinal]
  exact ⟨rfl, not_recordsOne_of_database rfl⟩

end Integration

end Cadence
