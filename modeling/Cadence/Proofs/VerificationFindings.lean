import Cadence.Proofs.LineUse

/-!
# What a verification finds

A verification that returns has come to one of five conclusions. Each of them fixes the status, the checks, the
evidence and the requests that were made, so these agree on every way through a verification.
-/

namespace Cadence

open Storage

namespace Integration

variable {α : Type}

/-- Whether evidence tells of a request: by the status of the answer, or by the error of the transport. -/
def tellsOfRequest (evidence : Members) : Bool :=
  (evidence.get? "httpStatus").isSome || (evidence.get? "error").isSome

namespace Service

/-- A credential of the field is there. -/
def Present (o : Owner) (w : World α) (field : CredentialField) : Prop :=
  ∃ row, ((current o field).runOn w).1 = .ok (some row)

/-- The current credential of the field opens to a secret. -/
def Opens (s : Service) (o : Owner) (w : World α) (field : CredentialField) (secret : String) : Prop :=
  ∃ row, ((current o field).runOn w).1 = .ok (some row) ∧ s.cipher.decrypt row.encryptedSecret w.now = .ok secret

/-- The language of a test message: the trimmed one that is asked for, or else the configured one, trimmed as
well. A configured language of blanks only gives way to the client's own. -/
def testLanguage (s : Service) (r : VerifyRequest) : String :=
  trimmedOr r.language (trimmedOr (.str s.defaultLanguage) s.client.defaultLanguage)

/-- The request is the test message, under the token and to the phone number that the credentials open to. -/
def IsTest (s : Service) (o : Owner) (r : VerifyRequest) (w : World α) (request : Provider.Request) : Prop :=
  r.Readable ∧ ∃ token phone, s.Opens o w .accessToken token ∧ s.Opens o w .phoneNumberId phone ∧
    request = ⟨Provider.normalUrl (s.client.messagesUrl phone), "Bearer " ++ token,
      Provider.templateBody (Text.strip r.recipient.displayGiven) (trimmedOr r.template "hello_world")
        (s.testLanguage r)⟩

/-- Both credentials are there, and no message is to be sent. -/
structure Rehearsed (o : Owner) (r : VerifyRequest) (w : World α) : Prop where
  token : Present o w .accessToken
  phone : Present o w .phoneNumberId
  dry : r.mode = .dryRun

/-- A live verification is allowed and has both secrets at hand. -/
structure Armed (s : Service) (o : Owner) (r : VerifyRequest) (w : World α) : Prop where
  live : r.mode = .live
  allowed : s.allowLive = true
  token : ∃ token, s.Opens o w .accessToken token
  phone : ∃ phone, s.Opens o w .phoneNumberId phone

/-- The provider took the one request that was made up to the later world. -/
def Accepted (w w' : World α) : Prop :=
  ∃ request answer, newRequests w w' = [request] ∧ (w.line.send request).1 = .ok answer ∧ answer.IsSuccess

/-! ### The test message -/

theorem strip_trimmedOr {v : Json} {fallback : String} (h : Text.strip v.displayGiven ≠ "") :
    Text.strip (trimmedOr v fallback) = trimmedOr v fallback := by
  rw [trimmedOr, if_neg h, Text.strip_strip]

theorem trimmedOr_str (text fallback : String) :
    trimmedOr (.str text) fallback = if Text.strip text = "" then fallback else Text.strip text := by
  have hgiven : (Json.str text).displayGiven = text := by
    unfold Json.displayGiven Json.isGiven
    by_cases htext : text = ""
    · rw [htext]
      rfl
    · rw [if_pos (decide_eq_true htext), Json.display]
  rw [trimmedOr, hgiven]

theorem languageOf_messageFor (s : Service) (r : VerifyRequest) :
    s.client.languageOf (s.messageFor r) = s.testLanguage r := by
  unfold Provider.Client.languageOf messageFor testLanguage
  rw [Option.getD_some, trimmedOr_str]
  by_cases hgiven : Text.strip r.language.displayGiven = ""
  · rw [trimmedOr, trimmedOr, if_pos hgiven, if_pos hgiven]
  · rw [strip_trimmedOr hgiven, trimmedOr, trimmedOr, if_neg hgiven, if_neg hgiven, if_neg hgiven]

theorem isTest_of_request {s : Service} {o : Owner} {r : VerifyRequest} {w : World α} {token phone : String}
    {request : Provider.Request} (hreadable : r.Readable) (htoken : s.Opens o w .accessToken token)
    (hphone : s.Opens o w .phoneNumberId phone)
    (h : s.client.request token phone (s.messageFor r) = .ok request) : s.IsTest o r w request := by
  by_cases hwritable : s.client.Unwritable token phone
  · obtain ⟨f, hrefused, -⟩ := Provider.Client.request_of_unwritable hwritable (s.messageFor r)
    cases hrefused.symm.trans h
  · rw [Provider.Client.request_of_writable hwritable, languageOf_messageFor] at h
    simp only [messageFor, defaultTemplate] at h
    exact ⟨hreadable, token, phone, htoken, hphone, (Except.ok.inj h).symm⟩

/-! ### The conclusions of a verification -/

/-- The checks for the presence of the credentials. -/
def presences (token phone : Bool) : List Check := [
  presence "connected" "Access token present." "Missing WhatsApp access token." token,
  presence "verified" "Phone number id present." "Missing WhatsApp phone number id." phone]

/-- What a verification can find, and the world after it. -/
inductive Concludes (s : Service) (o : Owner) (r : VerifyRequest) (w : World α) : Findings → World α → Prop where
  | lacking {token phone : Option Credential} (token_eq : ((current o .accessToken).runOn w).1 = .ok token)
      (phone_eq : ((current o .phoneNumberId).runOn w).1 = .ok phone) (none_there : token = none ∨ phone = none) :
      Concludes s o r w ⟨.failed, presences token.isSome phone.isSome, [("mode", .str r.mode.label)]⟩ w
  | rehearsed (detail : String) (rehearsed : Rehearsed o r w) :
      Concludes s o r w
        ⟨.incomplete, presences true true ++ [⟨checkType, false, detail⟩], [("mode", .str r.mode.label)]⟩ w
  | forbidden (detail : String) (live : r.mode = .live) (disallowed : s.allowLive = false) :
      Concludes s o r w
        ⟨.failed, presences true true ++ [⟨checkType, false, detail⟩], [("mode", .str r.mode.label)]⟩ w
  | unreached (detail message : String) {name : String} {request : Provider.Request} (armed : s.Armed o r w)
      (isTest : s.IsTest o r w request) (fault : (w.line.send request).1 = .error (.transport name message)) :
      Concludes s o r w
        ⟨.failed, presences true true ++ [⟨checkType, false, detail⟩],
          [("mode", .str r.mode.label), ("error", .str message)]⟩ (w.sent request)
  | answered (detail : String) (body : Members) {success : Bool} {request : Provider.Request}
      {answer : Provider.Answer} (armed : s.Armed o r w) (isTest : s.IsTest o r w request)
      (answered : (w.line.send request).1 = .ok answer) (success_iff : success = true ↔ answer.IsSuccess) :
      Concludes s o r w
        ⟨if success then .passed else .failed, presences true true ++ [⟨checkType, success, detail⟩],
          [("mode", .str r.mode.label), ("httpStatus", .int answer.status), ("response", .obj body)]⟩
        (w.sent request)

variable {s : Service} {o : Owner} {r : VerifyRequest} {w w' : World α}

theorem Concludes.leads {f : Findings} (h : Concludes s o r w f w) :
    Task.Leads (· = w) (pure f : Task (World α) Findings) (Concludes s o r w) (fun _ _ => True) :=
  Task.Leads.pure fun _ hw => by rwa [hw]

theorem current_leads (o : Owner) (field : CredentialField) (w : World α) :
    Task.Leads (· = w) (current o field) (fun row w' => ((current o field).runOn w).1 = .ok row ∧ w' = w)
      (fun _ _ => True) := by
  rintro w rfl
  rw [current, World.runOn_store, CredentialStore.current, Task.runOn_bind, runOn_tablesOr]
  cases w.database.tables with
  | none => trivial
  | some t => exact ⟨rfl, rfl⟩

theorem decrypt_leads (cipher : Secret.Cipher) (token : String) (w : World α) :
    Task.Leads (· = w) (World.decrypt cipher token : Task (World α) String)
      (fun secret w' => cipher.decrypt token w.now = .ok secret ∧ w' = w) (fun _ _ => True) := by
  rintro w rfl
  rw [World.runOn_decrypt]
  rcases cipher.decrypt token w.now with f | secret
  · trivial
  · exact ⟨rfl, rfl⟩

/-- A message that leads to findings was sent, and answered by a status or lost by the transport. -/
theorem sendTest_concludes {token phone : String} (harmed : s.Armed o r w)
    (htoken : s.Opens o w .accessToken token) (hphone : s.Opens o w .phoneNumberId phone) :
    Task.Leads (· = w) (s.sendTest token phone r (presences true true) [("mode", .str r.mode.label)])
      (Concludes s o r w) (fun _ _ => True) := by
  rintro w rfl
  by_cases hreadable : r.Readable
  · have hmessage := s.testMessage_of_readable hreadable
    by_cases hwritable : s.client.Unwritable token phone
    · obtain ⟨f, hrefused, hreach⟩ := Provider.Client.request_of_unwritable hwritable (s.messageFor r)
      rw [runOn_sendTest_unsent hmessage hrefused hreach]
      trivial
    · have hrequest := Provider.Client.request_of_writable hwritable (s.messageFor r)
      have htest := isTest_of_request hreadable htoken hphone hrequest
      rw [runOn_sendTest hmessage hrequest]
      cases hanswer : (w.line.send _).1 with
      | error fault =>
        cases fault with
        | transport name message => exact .unreached _ message harmed htest hanswer
        | _ => trivial
      | ok answer =>
        rcases s.client.readAnswer_cases answer with ⟨response, hread⟩ | ⟨kind, hunread⟩
        · have hbound : (Except.ok answer).bind s.client.readAnswer = .ok response := hread
          rw [hbound]
          dsimp only [tested]
          rw [Provider.Client.readAnswer_status hread]
          exact .answered _ _ harmed htest hanswer (Provider.Client.isOk_iff hread)
        · have hbound : (Except.ok answer).bind s.client.readAnswer = .error (Provider.tooDeep kind) := hunread
          rw [hbound]
          trivial
  · rw [runOn_sendTest_unreadable hreadable]
    trivial

theorem verifyLive_concludes {a b : Credential} (hlive : r.mode = .live) (hallowed : s.allowLive = true)
    (ha : ((current o .accessToken).runOn w).1 = .ok (some a))
    (hb : ((current o .phoneNumberId).runOn w).1 = .ok (some b)) :
    Task.Leads (· = w) (s.verifyLive o r a b (presences true true) [("mode", .str r.mode.label)])
      (Concludes s o r w) (fun _ _ => True) := by
  have hopen : Task.Leads (· = w)
      (do
        let token ← World.decrypt s.cipher a.encryptedSecret
        return (token, ← World.decrypt s.cipher b.encryptedSecret) : Task (World α) (String × String))
      (fun secrets w' => (s.Opens o w .accessToken secrets.1 ∧ s.Opens o w .phoneNumberId secrets.2) ∧ w' = w)
      (fun _ _ => True) := by
    refine (decrypt_leads _ _ w).bind fun token => Task.Leads.of_and fun htoken => ?_
    refine (decrypt_leads _ _ w).bind fun phone => Task.Leads.of_and fun hphone => ?_
    exact Task.Leads.pure fun _ hw => ⟨⟨⟨a, ha, htoken⟩, b, hb, hphone⟩, hw⟩
  have hany (t : Task (World α) Verification) : Task.Leads (fun _ => True) t (fun _ _ => True) (fun _ _ => True) :=
    Task.Keeps.leads fun _ _ => trivial
  unfold verifyLive
  refine Task.Leads.bind (Task.Leads.attempt hopen) fun outcome => ?_
  rcases outcome with fault | ⟨token, phone⟩
  · -- Secrets that do not open are put on record at most, and no findings are returned.
    dsimp only
    split
    · split
      · exact (hany _).bind fun _ => Task.Leads.throw fun _ _ => trivial
      · exact Task.Leads.throw fun _ _ => trivial
    · exact Task.Leads.throw fun _ _ => trivial
  · refine Task.Leads.of_and fun ⟨htoken, hphone⟩ => ?_
    exact sendTest_concludes ⟨hlive, hallowed, ⟨token, htoken⟩, phone, hphone⟩ htoken hphone

theorem findings_concludes (s : Service) (o : Owner) (r : VerifyRequest) (w : World α) :
    Task.Leads (· = w) (s.findings o r) (Concludes s o r w) (fun _ _ => True) := by
  unfold findings
  refine (current_leads o .accessToken w).bind fun token => Task.Leads.of_and fun htoken => ?_
  refine (current_leads o .phoneNumberId w).bind fun phone => Task.Leads.of_and fun hphone => ?_
  dsimp only
  split
  · rename_i a b hlive
    split
    · rename_i hallowed
      exact verifyLive_concludes hlive hallowed htoken hphone
    · rename_i hdisallowed
      exact Concludes.leads (.forbidden _ hlive (Bool.eq_false_iff.mpr hdisallowed))
  · rename_i a b hdry
    exact Concludes.leads (.rehearsed _ ⟨⟨a, htoken⟩, ⟨b, hphone⟩, hdry⟩)
  · rename_i hlive hdry
    refine Concludes.leads (.lacking htoken hphone ?_)
    by_contra hthere
    obtain ⟨htoken', hphone'⟩ := not_or.mp hthere
    obtain ⟨a, ha⟩ := Option.ne_none_iff_exists'.mp htoken'
    obtain ⟨b, hb⟩ := Option.ne_none_iff_exists'.mp hphone'
    cases hmode : r.mode with
    | live => exact hlive a b ha hb hmode
    | dryRun => exact hdry a b ha hb hmode

/-! ### What a conclusion says -/

theorem not_all_ok (detail : String) :
    ¬∀ check ∈ presences true true ++ [⟨checkType, false, detail⟩], check.ok = true := fun h => by
  cases h ⟨checkType, false, detail⟩ (List.mem_append_right _ List.mem_cons_self)

section Concluded
variable {f : Findings} {after : World α} (h : Concludes s o r w f w') (hline : after.line = w'.line)
include h

theorem Concludes.incomplete_iff : f.status = .incomplete ↔ Rehearsed o r w := by
  cases h with
  | lacking token_eq phone_eq none_there =>
    refine iff_of_false VerificationStatus.noConfusion fun hrehearsed => ?_
    obtain ⟨a, ha⟩ := hrehearsed.token
    obtain ⟨b, hb⟩ := hrehearsed.phone
    rcases none_there with rfl | rfl
    · cases token_eq.symm.trans ha
    · cases phone_eq.symm.trans hb
  | rehearsed _ rehearsed => exact iff_of_true rfl rehearsed
  | forbidden _ live _ =>
    exact iff_of_false VerificationStatus.noConfusion fun hrehearsed => by cases live.symm.trans hrehearsed.dry
  | unreached _ _ armed _ _ =>
    exact iff_of_false VerificationStatus.noConfusion fun hrehearsed => by cases armed.live.symm.trans hrehearsed.dry
  | @answered _ _ success _ _ armed _ _ _ =>
    refine iff_of_false (fun hstatus => ?_) fun hrehearsed => by cases armed.live.symm.trans hrehearsed.dry
    cases success <;> cases hstatus

theorem Concludes.passed_iff_checks :
    f.status = .passed ↔ f.checks.length = 3 ∧ ∀ check ∈ f.checks, check.ok = true := by
  cases h with
  | lacking _ _ _ => exact iff_of_false VerificationStatus.noConfusion fun hchecks => by cases hchecks.1
  | rehearsed detail _ =>
    exact iff_of_false VerificationStatus.noConfusion fun hchecks => not_all_ok detail hchecks.2
  | forbidden detail _ _ =>
    exact iff_of_false VerificationStatus.noConfusion fun hchecks => not_all_ok detail hchecks.2
  | unreached detail _ _ _ _ =>
    exact iff_of_false VerificationStatus.noConfusion fun hchecks => not_all_ok detail hchecks.2
  | @answered _ _ success _ _ _ _ _ _ => cases success <;> simp [presences, presence]

include hline

theorem Concludes.newRequests_length :
    (newRequests w after).length = if tellsOfRequest f.evidence then 1 else 0 := by
  cases h with
  | lacking _ _ _ => rw [newRequests_of_line_eq hline]; rfl
  | rehearsed _ _ => rw [newRequests_of_line_eq hline]; rfl
  | forbidden _ _ _ => rw [newRequests_of_line_eq hline]; rfl
  | unreached _ _ _ _ _ => rw [newRequests_of_sent hline]; rfl
  | answered _ _ _ _ _ _ => rw [newRequests_of_sent hline]; rfl

theorem Concludes.isTest : ∀ request ∈ newRequests w after, s.IsTest o r w request := by
  intro request hrequest
  cases h with
  | unreached _ _ _ isTest _ =>
    rw [newRequests_of_sent hline] at hrequest
    rwa [List.mem_singleton.mp hrequest]
  | answered _ _ _ isTest _ _ =>
    rw [newRequests_of_sent hline] at hrequest
    rwa [List.mem_singleton.mp hrequest]
  | _ =>
    rw [newRequests_of_line_eq hline] at hrequest
    cases hrequest

theorem Concludes.passed_iff : f.status = .passed ↔ s.Armed o r w ∧ Accepted w after := by
  have hunsent (hsame : after.line = w.line) : ¬Accepted w after := by
    rintro ⟨request, answer, hone, -⟩
    rw [newRequests_of_line_eq hsame] at hone
    cases hone
  cases h with
  | unreached _ _ _ _ fault =>
    refine iff_of_false VerificationStatus.noConfusion ?_
    rintro ⟨-, request, answer, hone, hanswer, -⟩
    obtain rfl := List.singleton_inj.mp ((newRequests_of_sent hline).symm.trans hone)
    cases fault.symm.trans hanswer
  | @answered _ _ success request answer armed _ answered success_iff =>
    have haccepted : Accepted w after ↔ answer.IsSuccess := by
      refine ⟨?_, fun hsuccess => ⟨request, answer, newRequests_of_sent hline, answered, hsuccess⟩⟩
      rintro ⟨other, answer', hone, hanswer, hsuccess⟩
      obtain rfl := List.singleton_inj.mp ((newRequests_of_sent hline).symm.trans hone)
      rwa [Except.ok.inj (answered.symm.trans hanswer)]
    rw [haccepted, ← success_iff]
    cases success <;> simp [armed]
  | _ => exact iff_of_false VerificationStatus.noConfusion fun haccepted => hunsent hline haccepted.2

end Concluded

/-- What a verification returns is a conclusion that was put on record. -/
theorem verify_concludes {ok : Bool} {record : Verification}
    (h : (s.verify o r).runOn w = (.ok (ok, record), w')) :
    ∃ f found, Concludes s o r w f found ∧ w'.line = found.line ∧ ok = decide (f.status = .passed) ∧
      record.status = f.status ∧ record.checks = f.checks ∧ record.evidence = f.evidence := by
  have hconcludes := findings_concludes s o r w w rfl
  rcases hfound : (s.findings o r).runOn w with ⟨fault | f, found⟩
  · cases (runOn_verify_lost hfound).symm.trans h
  · rw [hfound] at hconcludes
    cases ht : found.database.tables with
    | none =>
      have hput : ∃ fault, (putOnRecord o r.initiatedBy f).runOn found = (.error fault, found) := by
        rw [putOnRecord, World.runOn_store, VerificationLog.runOn_append_none ht]
        exact ⟨_, rfl⟩
      obtain ⟨fault, hput⟩ := hput
      rw [verify, Task.runOn_bind_ok hfound, Task.runOn_bind_error hput] at h
      cases h
    | some t =>
      obtain ⟨hreply, rfl⟩ := Prod.mk.inj ((runOn_verify_found hfound ht).symm.trans h)
      obtain ⟨rfl, rfl⟩ := Prod.mk.inj (Except.ok.inj hreply)
      exact ⟨f, found, hconcludes, rfl, rfl, rfl, rfl, rfl⟩

end Service

open Service

section After
variable {s : Service} {steps : List Step} {w : World α} {o : Owner} {r : VerifyRequest} {token phone : String}
  (hfresh : Fresh w) (hgiven : ∀ step ∈ steps, ∀ save ∈ step.savesOf o, save.2 ≠ "")
include hfresh hgiven

theorem opens_after {field : CredentialField} {secret : String} (h : lastSaved o field steps = some secret) :
    s.Opens o (s.after steps w) field secret := by
  obtain ⟨t, ht, hopened⟩ := after_fresh hfresh hgiven (s := s)
  have hopening : openings s.cipher o t field = some fun _ => .ok secret := by rw [hopened, h, Option.map_some]
  obtain ⟨row, hrow, hopens⟩ := decrypt_of_opening hopening
  exact ⟨row, by rw [runOn_current ht, hrow], hopens _⟩

theorem armed_after (h : Sends s o r steps token phone) : s.Armed o r (s.after steps w) :=
  ⟨h.live, h.allowed, ⟨token, opens_after hfresh hgiven h.savedToken⟩, phone,
    opens_after hfresh hgiven h.savedPhone⟩

theorem verify_after_sends (h : Sends s o r steps token phone) (hreadable : r.Readable)
    (hwritable : ¬s.client.Unwritable token phone) (hreach : (s.after steps w).line.Answers)
    (hread : ∀ request answer, ((s.after steps w).line.send request).1 = .ok answer → ¬s.client.Unread answer) :
    ∃ ok record w' request, (s.verify o r).runOn (s.after steps w) = (.ok (ok, record), w') ∧
      newRequests (s.after steps w) w' = [request] := by
  have hfree : ¬Stuck s o r steps (s.after steps w).line := by
    rintro (⟨-, hunreadable⟩ | ⟨hsends, hunwritable⟩ | ⟨-, -, -, hanswered, hunread⟩)
    · exact hunreadable hreadable
    · obtain rfl := Option.some.inj (h.savedToken.symm.trans hsends.savedToken)
      obtain rfl := Option.some.inj (h.savedPhone.symm.trans hsends.savedPhone)
      exact hwritable hunwritable
    · exact hread _ _ hanswered hunread
  obtain ⟨t, ht, -⟩ := after_fresh hfresh hgiven (s := s)
  obtain ⟨f, found, hfound, hsame⟩ := findings_after_not_stuck hfresh hgiven hfree hreach
  obtain ⟨⟨⟨ok, record⟩, hreply⟩, -⟩ := verify_of_found hfound ht hsame
  obtain ⟨request, -, -, hone⟩ := verify_sends hfresh hgiven h hreadable hwritable
  exact ⟨ok, record, _, request, Prod.ext hreply rfl, hone⟩

end After

/-- Whenever a verification returns, its record has passed if and only if the verification was live and allowed,
both secrets were at hand and the provider took the message; it is incomplete if and only if both credentials
were there and no message was to be sent; and it has failed otherwise. The reply, the checks, the evidence and
the requests that were made agree with that, and a request is the test message. -/
theorem verification_findings (s : Service) (o : Owner) (r : VerifyRequest) {w w' : World α} {ok : Bool}
    {record : Verification} (h : (s.verify o r).runOn w = (.ok (ok, record), w')) :
    (record.status = .passed ↔ s.Armed o r w ∧ Accepted w w') ∧
      (record.status = .incomplete ↔ Rehearsed o r w) ∧
      (record.status = .failed ↔ ¬(s.Armed o r w ∧ Accepted w w') ∧ ¬Rehearsed o r w) ∧
      (ok = true ↔ record.status = .passed) ∧
      (record.status = .passed ↔ record.checks.length = 3 ∧ ∀ check ∈ record.checks, check.ok = true) ∧
      (newRequests w w').length = (if tellsOfRequest record.evidence then 1 else 0) ∧
      ∀ request ∈ newRequests w w', s.IsTest o r w request := by
  obtain ⟨f, found, hconcludes, hline, rfl, hstatus, hchecks, hevidence⟩ := verify_concludes h
  rw [hstatus, hchecks, hevidence, ← hconcludes.passed_iff hline, ← hconcludes.incomplete_iff]
  refine ⟨Iff.rfl, Iff.rfl, ?_, decide_eq_true_iff, hconcludes.passed_iff_checks,
    hconcludes.newRequests_length hline, hconcludes.isTest hline⟩
  cases f.status <;> simp

def onceConnected : List Step := [.call firstClient (.connect "token" "PNID" none none)]

theorem line_onceConnected (s : Service) : (s.after onceConnected firstWorld).line = firstWorld.line :=
  line_of_connect ..

theorem verification_findings_passed :
    let before := liveService.after onceConnected firstWorld
    ∃ record after, (liveService.verify firstClient liveRequest).runOn before = (.ok (true, record), after) ∧
      record.status = .passed ∧ ∃ request, newRequests before after = [request] ∧
        request.body = Provider.templateBody "+15550001111" "hello_world" "en_US" := by
  intro before
  have hanswers : before.line.Answers := line_onceConnected liveService ▸ firstWorld_answers
  have hsends : Sends liveService firstClient liveRequest onceConnected "token" "PNID" := ⟨rfl, rfl, rfl, rfl⟩
  obtain ⟨ok, record, after, request, hverify, hone⟩ :=
    verify_after_sends firstWorld_fresh (by decide) hsends liveRequest_readable liveService_writable hanswers
      (line_onceConnected liveService ▸ firstWorld_read)
  obtain ⟨hpassed, -, -, hok, -, -, htest⟩ := verification_findings liveService firstClient liveRequest hverify
  have haccepted : Accepted before after := by
    refine ⟨request, ⟨200, "\x7b\x7d"⟩, hone, ?_, by decide, by decide⟩
    rw [line_onceConnected]
    rfl
  have hstatus := hpassed.mpr ⟨armed_after firstWorld_fresh (by decide) hsends, haccepted⟩
  obtain rfl : ok = true := hok.mpr hstatus
  obtain ⟨-, token, phone, -, -, rfl⟩ := htest request (hone ▸ List.mem_singleton_self request)
  exact ⟨record, after, hverify, hstatus, _, hone, rfl⟩

/-- The configured language of this service is set off by blanks. -/
def paddedService : Service :=
  { liveService with defaultLanguage := " en_US ", client := { defaultLanguage := " en_US " } }

/-- A message without a language of its own does not name the configured language, but what is left of it
without the blanks. -/
theorem configured_language_trimmed :
    let before := paddedService.after onceConnected firstWorld
    ∃ ok record after, (paddedService.verify firstClient liveRequest).runOn before = (.ok (ok, record), after) ∧
      ∃ request, newRequests before after = [request] ∧
        request.body = Provider.templateBody "+15550001111" "hello_world" "en_US" ∧
        "en_US" ≠ paddedService.defaultLanguage := by
  intro before
  have hanswers : before.line.Answers := line_onceConnected paddedService ▸ firstWorld_answers
  obtain ⟨ok, record, after, request, hverify, hone⟩ := verify_after_sends (s := paddedService) (r := liveRequest)
    firstWorld_fresh (o := firstClient) (by decide) ⟨rfl, rfl, rfl, rfl⟩ liveRequest_readable liveService_writable
    hanswers (line_onceConnected paddedService ▸ firstWorld_read)
  obtain ⟨f, found, hconcludes, hline, -⟩ := verify_concludes hverify
  obtain ⟨-, token, phone, -, -, rfl⟩ := hconcludes.isTest hline request (hone ▸ List.mem_singleton_self request)
  exact ⟨ok, record, after, hverify, _, hone, rfl, by decide⟩

end Integration
end Cadence
