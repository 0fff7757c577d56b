import Cadence.Proofs.RelatedExecutions
import Cadence.Proofs.SilentApplication
import Cadence.Proofs.VeiledWorlds
import Mathlib.Data.Bool.AllAny

/-!
# Access tokens are not seen

Two histories of an application are compared in which clients submit different access tokens. Step by step the
worlds differ in these tokens only, and all that anyone is told is the same.
-/

namespace Cadence

open Storage Integration Workflow

/-! ### Calls of the integration -/

namespace Integration

variable {α : Type} {s : Service} {o : Owner}

theorem save_veiled (field : CredentialField) {secret secret' : String} (h : Interchangeable secret secret')
    (hother : field ≠ .accessToken → secret = secret') (userId : Option String) :
    Task.Couples (World.Veiled s.cipher) (Credential.Veiled s.cipher)
      (s.save o field secret userId : Task (World α) Credential) (s.save o field secret' userId) := by
  refine (World.encrypt_couples h).bind fun token token' htoken => World.store_couples fun now => ?_
  refine saveOf_couples _ htoken.1 (fun htype => htoken.2 (hother ?_)) userId now
  rintro rfl
  exact htype rfl

theorem save_same (field : CredentialField) (secret : String) (userId : Option String) :
    Task.Couples (World.Veiled s.cipher) (Credential.Veiled s.cipher)
      (s.save o field secret userId : Task (World α) Credential) (s.save o field secret userId) :=
  save_veiled field (.inl rfl) (fun _ => rfl) userId

section Submitted
variable {token token' : String} (h : Interchangeable token token')
include h

theorem connect_veiled (phone : String) (account user : Option String) :
    Task.Agrees (World.Veiled s.cipher) (s.connect o token phone account user : Task (World α) Json)
      (s.connect o token' phone account user) := by
  unfold Service.connect
  refine (save_veiled .accessToken h (absurd rfl) user).bind_agrees fun credential credential' hcredential => ?_
  refine (save_same .phoneNumberId phone user).bind_agrees fun _ _ _ => ?_
  rw [hcredential.summary]
  cases account with
  | none => exact Task.Agrees.pure _
  | some id =>
    dsimp only
    split
    · exact (save_same .accountId id user).bind_agrees fun _ _ _ => Task.Agrees.pure _
    · exact Task.Agrees.pure _

theorem rotate_veiled (user : Option String) :
    Task.Agrees (World.Veiled s.cipher) (s.rotate o token user : Task (World α) Json)
      (s.rotate o token' user) := by
  refine (save_veiled .accessToken h (absurd rfl) user).bind_agrees fun credential credential' hcredential => ?_
  rw [hcredential.summary]
  exact Task.Agrees.pure _

theorem sendTest_veiled (phone : String) (r : VerifyRequest) (checks : List Check) (evidence : Members) :
    Task.Agrees (World.Veiled s.cipher) (s.sendTest token phone r checks evidence : Task (World α) Findings)
      (s.sendTest token' phone r checks evidence) := by
  unfold Service.sendTest
  refine ((Task.Agrees.lift (s.testMessage r)).bind fun message =>
    World.send_agrees s.client h phone message).attempt.bind fun outcome => ?_
  dsimp only
  split
  · exact Task.Agrees.pure _
  · exact Task.Agrees.throw _
  · split
    · exact Task.Agrees.pure _
    · exact Task.Agrees.pure _

end Submitted

theorem current_veiled (field : CredentialField) :
    Task.Couples (World.Veiled s.cipher)
      (Option.Rel fun c c' => c.Veiled s.cipher c' ∧ keyOf c = o.credentialKey field)
      (Service.current o field : Task (World α) _) (Service.current o field) :=
  World.store_couples fun now => currentOf_couples _ now

theorem latest_veiled :
    Task.Agrees (World.Veiled s.cipher) (Service.latest o : Task (World α) _) (Service.latest o) :=
  World.store_agrees fun now => latestOf_agrees _ now

theorem putOnRecord_veiled (initiatedBy : Option String) (f : Findings) :
    Task.Agrees (World.Veiled s.cipher) (Service.putOnRecord o initiatedBy f : Task (World α) _)
      (Service.putOnRecord o initiatedBy f) :=
  World.store_agrees fun now => appendOf_agrees _ now

/-- The credential of a phone number is the same in both worlds, as it is no access token. -/
theorem phone_eq {c c' : Credential} (h : c.Veiled s.cipher c' ∧ keyOf c = o.credentialKey .phoneNumberId) :
    c = c' := by
  refine h.1.eq ?_
  have htype : c.credentialType = CredentialField.phoneNumberId.label := congrArg (·.credentialType) h.2
  unfold Credential.isAccessToken
  rw [htype]
  rfl

theorem verifyLive_veiled (r : VerifyRequest) {a a' : Credential} (ha : a.Veiled s.cipher a') (phone : Credential)
    (checks : List Check) (evidence : Members) :
    Task.Agrees (World.Veiled s.cipher) (s.verifyLive o r a phone checks evidence : Task (World α) Findings)
      (s.verifyLive o r a' phone checks evidence) := by
  unfold Service.verifyLive
  have hsecrets : Task.Couples (World.Veiled s.cipher)
      (fun x y : String × String => Interchangeable x.1 y.1 ∧ x.2 = y.2)
      (do let token ← World.decrypt s.cipher a.encryptedSecret
          return (token, ← World.decrypt s.cipher phone.encryptedSecret) : Task (World α) (String × String))
      (do let token ← World.decrypt s.cipher a'.encryptedSecret
          return (token, ← World.decrypt s.cipher phone.encryptedSecret)) := by
    refine (World.decrypt_couples ha.opens).bind fun token token' htoken => ?_
    have hnumber : Task.Agrees (World.Veiled s.cipher)
        (World.decrypt s.cipher phone.encryptedSecret : Task (World α) String) _ := World.decrypt_agrees _
    exact (Task.agrees_iff_couples.mp hnumber).bind fun _ _ hsame => Task.Couples.pure ⟨htoken, hsame⟩
  -- A fault in opening them is the same in both worlds, and so is what is put on record of it.
  refine hsecrets.attempt.bind_agrees fun outcome outcome' h => ?_
  cases h with
  | ok hpair =>
    obtain ⟨htoken, hphone⟩ := hpair
    dsimp only
    rw [hphone]
    exact sendTest_veiled htoken _ r checks evidence
  | error fault =>
    dsimp only
    split
    · split
      · exact (putOnRecord_veiled _ _).bind fun _ => Task.Agrees.throw _
      · exact Task.Agrees.throw _
    · exact Task.Agrees.throw _

theorem findings_veiled (r : VerifyRequest) :
    Task.Agrees (World.Veiled s.cipher) (s.findings o r : Task (World α) Findings) (s.findings o r) := by
  unfold Service.findings
  refine (current_veiled .accessToken).bind_agrees fun token? token?' htoken => ?_
  refine (current_veiled .phoneNumberId).bind_agrees fun phone? phone?' hphone => ?_
  cases htoken with
  | none => cases hphone <;> exact Task.Agrees.pure _
  | some htoken =>
    cases hphone with
    | none => exact Task.Agrees.pure _
    | some hphone =>
      obtain rfl := phone_eq hphone
      cases r.mode with
      | dryRun => exact Task.Agrees.pure _
      | live =>
        dsimp only
        split
        · exact verifyLive_veiled r htoken.1 _ _ _
        · exact Task.Agrees.pure _

theorem verify_veiled (r : VerifyRequest) :
    Task.Agrees (World.Veiled s.cipher) (s.verify o r : Task (World α) (Bool × Verification)) (s.verify o r) :=
  (findings_veiled r).bind fun f => (putOnRecord_veiled r.initiatedBy f).bind fun _ => Task.Agrees.pure _

theorem isSome_eq {β : Type} {Q : β → β → Prop} {a b : Option β} (h : Option.Rel Q a b) : a.isSome = b.isSome := by
  cases h <;> rfl

theorem evaluate_veiled (newest : Option Verification) :
    Task.Agrees (World.Veiled s.cipher) (s.evaluate o newest : Task (World α) Contract) (s.evaluate o newest) := by
  unfold Service.evaluate
  refine (current_veiled .accessToken).bind_agrees fun token? token?' htoken => ?_
  refine (current_veiled .phoneNumberId).bind_agrees fun phone? phone?' hphone => ?_
  rw [isSome_eq htoken, isSome_eq hphone]
  refine World.veiled_oneTime.now_bind fun w w' _ hnow => ?_
  rw [hnow]
  exact Task.Agrees.lift _

theorem status_veiled :
    Task.Agrees (World.Veiled s.cipher) (s.status o : Task (World α) Json) (s.status o) :=
  latest_veiled.bind fun newest => (evaluate_veiled newest).bind fun _ => Task.Agrees.pure _

/-- The calls are the same but for the access token, which is printable in both. -/
inductive Call.SameButToken : Call → Call → Prop where
  | connect {token token' : String} (printable : Text.Printable token) (printable' : Text.Printable token')
      (phone : String) (account user : Option String) :
      SameButToken (.connect token phone account user) (.connect token' phone account user)
  | rotate {token token' : String} (printable : Text.Printable token) (printable' : Text.Printable token')
      (user : Option String) : SameButToken (.rotate token user) (.rotate token' user)
  | verify (r : VerifyRequest) : SameButToken (.verify r) (.verify r)
  | status : SameButToken .status .status

theorem perform_veiled {c c' : Call} (h : c.SameButToken c') :
    Task.Agrees (World.Veiled s.cipher) (s.perform o c : Task (World α) Reply) (s.perform o c') := by
  cases h with
  | connect printable printable' phone account user =>
    exact (connect_veiled (.inr ⟨printable, printable'⟩) phone account user).bind fun _ => Task.Agrees.pure _
  | rotate printable printable' user =>
    exact (rotate_veiled (.inr ⟨printable, printable'⟩) user).bind fun _ => Task.Agrees.pure _
  | verify r => exact (verify_veiled r).bind fun _ => Task.Agrees.pure _
  | status => exact status_veiled.bind fun _ => Task.Agrees.pure _

/-- The answers of a provider do not depend on the header that carries the access token. -/
def HeaderBlind (answer : Provider.Request → Outcome Provider.Answer) : Prop :=
  ∀ r r', r.unsigned = r'.unsigned → answer r = answer r'

inductive Step.SameButToken : Step → Step → Prop where
  | call (o : Owner) {c c' : Call} (h : c.SameButToken c') : SameButToken (.call o c) (.call o c')
  | clock (now : Instant) : SameButToken (.clock now) (.clock now)
  | provider {answer : Provider.Request → Outcome Provider.Answer} (h : HeaderBlind answer) :
      SameButToken (.provider answer) (.provider answer)

theorem step_veiled {step step' : Step} (h : step.SameButToken step') {w w' : World α}
    (hw : w.Veiled s.cipher w') : (step.run s w).Veiled s.cipher (step'.run s w') := by
  cases h with
  | call o h => exact (perform_veiled h w w' hw).2
  | clock now => exact { hw with now := rfl }
  | provider h => exact { hw with transport := rfl, steady := fun _ => h }

end Integration

/-! ### Executions -/

namespace Action

theorem veiled_sameSends {α : Type} (services : WhatsApp.Services) :
    SameSends (World.Veiled services.cipher : World α → World α → Prop) (Credential.Veiled services.cipher)
      Interchangeable services where
  oneTime := World.veiled_oneTime
  current key := (World.store_couples fun now => currentOf_couples key now).imp fun row? row?' hrow => by
    cases hrow with
    | none => exact .none
    | some hrow => exact .some hrow.1
  opens _ _ now hrow := hrow.opens now
  request _ _ phone m htoken := (World.send_agrees services.client htoken phone m).attempt

end Action

namespace Application

variable {α : Type} {app : Application α} {cipher : Secret.Cipher} {sleep : Binary64 → Task (World α) Unit}

theorem drawIdentifier_veiled :
    Task.Agrees (World.Veiled cipher) (World.drawIdentifier : Task (World α) String) World.drawIdentifier := by
  intro w w' hw
  have hsame : w.sources.identifier w.identifiersDrawn = w'.sources.identifier w'.identifiersDrawn := by
    rw [hw.sources, hw.identifiersDrawn]
  exact ⟨congrArg Except.ok hsame, { hw with identifiersDrawn := congrArg (· + 1) hw.identifiersDrawn }⟩

theorem engine_respects {services : Action.WhatsApp.Services} (hregistry : app.registry = Action.defaults services)
    (hsleep : ∀ seconds, Task.Agrees (World.Veiled services.cipher) (sleep seconds) (sleep seconds))
    {hook : Event → Task (World α) Unit}
    (hhook : ∀ event, Task.Agrees (World.Veiled services.cipher) (hook event) (hook event)) :
    (app.engine sleep).Respects (World.Veiled services.cipher) hook where
  clock _ _ hw := hw.now
  dispatch := by
    have hactions := Action.defaults_agree (Action.veiled_sameSends (α := α) services)
    rw [← hregistry] at hactions
    exact Action.onNode_agrees (Action.dispatch_agrees World.veiled_oneTime hactions)
  sleep := hsleep
  start s := World.store_agrees fun now => RunLog.start_agrees s now
  record id level type payload := World.store_agrees fun now => RunLog.record_agrees id level type payload now
  finish id e := World.store_agrees fun now => RunLog.finish_agrees id e now
  freshId := drawIdentifier_veiled
  putLogContext _ _ _ hw := { hw with logContext := rfl }
  addLogContext fields _ _ hw := { hw with logContext := congrArg (Members.setAll · fields) hw.logContext }
  hook := hhook

theorem services_of_build {s : Settings} {now : Instant} (h : build s now = .ok app) :
    ∃ services, app.registry = Action.defaults services ∧ services.cipher = app.integration.cipher := by
  unfold build at h
  cases hcipher : Secret.Cipher.ofKeyMaterial (some s.encryptionKey) now with
  | error f =>
    rw [hcipher] at h
    cases h
  | ok cipher =>
    rw [hcipher] at h
    cases h
    exact ⟨_, rfl, rfl⟩

/-! ### Histories -/

/-- What is told about an operation: how an execution ended, or the reply to a call. -/
inductive Answer where
  | ran (outcome : Outcome RunResult)
  | replied (outcome : Outcome Reply)

def Operation.answer? (app : Application α) (sleep : Binary64 → Task (World α) Unit) (w : World α) :
    Operation α → Option Answer
  | .execute s hook => some (.ran (((app.engine sleep).submit s hook).runOn w).1)
  | .integrate (.call o c) => some (.replied ((app.integration.perform o c).runOn w).1)
  | .integrate (.clock _) | .integrate (.provider _) => none

/-- All that is told in the course of a history. -/
def answers (app : Application α) (sleep : Binary64 → Task (World α) Unit) :
    List (Operation α) → World α → List Answer
  | [], _ => []
  | operation :: rest, w =>
    (operation.answer? app sleep w).toList ++ answers app sleep rest (operation.run app sleep w)

/-- The operations are the same but for the access tokens that clients submit. The code that is told the events of
an execution sees no access tokens. -/
inductive Operation.SameButToken (cipher : Secret.Cipher) : Operation α → Operation α → Prop where
  | execute (s : Submission) {hook : Event → Task (World α) Unit}
      (blind : ∀ event, Task.Agrees (World.Veiled cipher) (hook event) (hook event)) :
      SameButToken cipher (.execute s hook) (.execute s hook)
  | integrate {step step' : Step} (h : step.SameButToken step') :
      SameButToken cipher (.integrate step) (.integrate step')

section Histories
variable {services : Action.WhatsApp.Services} (hregistry : app.registry = Action.defaults services)
  (hcipher : services.cipher = app.integration.cipher)
  (hsleep : ∀ seconds, Task.Agrees (World.Veiled app.integration.cipher) (sleep seconds) (sleep seconds))
include hregistry hcipher hsleep

theorem operation_veiled {operation operation' : Operation α}
    (h : operation.SameButToken app.integration.cipher operation') {w w' : World α}
    (hw : w.Veiled app.integration.cipher w') :
    operation.answer? app sleep w = operation'.answer? app sleep w' ∧
      (operation.run app sleep w).Veiled app.integration.cipher (operation'.run app sleep w') := by
  cases h with
  | execute s blind =>
    rw [← hcipher] at hsleep blind hw ⊢
    obtain ⟨houtcome, hleft⟩ := (engine_respects hregistry hsleep blind).submit s w w' hw
    exact ⟨congrArg (fun outcome => some (Answer.ran outcome)) houtcome, hleft⟩
  | integrate h =>
    refine ⟨?_, step_veiled h hw⟩
    cases h with
    | call o h => exact congrArg (fun outcome => some (Answer.replied outcome)) (perform_veiled h w w' hw).1
    | clock _ | provider _ => rfl

theorem history_veiled {operations operations' : List (Operation α)}
    (h : List.Forall₂ (Operation.SameButToken app.integration.cipher) operations operations') {w w' : World α}
    (hw : w.Veiled app.integration.cipher w') :
    app.answers sleep operations w = app.answers sleep operations' w' ∧
      (app.after sleep operations w).Veiled app.integration.cipher (app.after sleep operations' w') := by
  -- Each operation is answered alike, and leaves worlds that are veiled again.
  induction h generalizing w w' with
  | nil => exact ⟨rfl, hw⟩
  | cons hfirst _ ih =>
    obtain ⟨hanswer, hnext⟩ := operation_veiled hregistry hcipher hsleep hfirst hw
    obtain ⟨hanswers, hlast⟩ := ih hnext
    refine ⟨?_, hlast⟩
    rw [answers, answers, hanswer, hanswers]

end Histories

/-- What is reported of a run is the same in worlds that differ in access tokens only. -/
theorem loadRun_veiled (id : String) :
    Task.Agrees (World.Veiled cipher) (loadRun id : Task (World α) RunRecord) (loadRun id) := by
  refine World.store_agrees fun now => (tablesOr_couples _).bind_agrees fun t t' ht => ?_
  rw [ht.runs, ht.events]
  cases t'.runs.find? (·.id = id) with
  | none => exact Task.Agrees.throw _
  | some row => exact Task.Agrees.pure _

/-- Access tokens have no influence but on how they are sealed and on the header of requests. Two histories of an
application are the same but for the printable access tokens in them, and the provider does not look at the header.
Then all that is told is the same in both, and so is afterwards all that is stored, all that the provider received,
and all else, apart from the sealed tokens and the headers. -/
theorem answers_sameButToken (settings : Settings) (now : Instant) (app : Application α)
    (hbuild : build settings now = .ok app) (sleep : Binary64 → Task (World α) Unit)
    (hsleep : ∀ seconds, Task.Agrees (World.Veiled app.integration.cipher) (sleep seconds) (sleep seconds))
    (operations operations' : List (Operation α))
    (hsame : List.Forall₂ (Operation.SameButToken app.integration.cipher) operations operations') (w : World α)
    (hnonces : ∀ i, (w.sources.nonce i).length = Secret.Gcm.nonceSize)
    (hprovider : ∀ n, HeaderBlind (w.line.transport n)) :
    let v := app.after sleep operations w
    let v' := app.after sleep operations' w
    app.answers sleep operations w = app.answers sleep operations' w ∧
      (∀ id, ((loadRun id).runOn v).1 = ((loadRun id).runOn v').1) ∧
      v.database.tables.map Tables.shown = v'.database.tables.map Tables.shown ∧
      v.line.received.map (·.unsigned) = v'.line.received.map (·.unsigned) ∧
      v.Veiled app.integration.cipher v' := by
  intro v v'
  obtain ⟨services, hregistry, hcipher⟩ := services_of_build hbuild
  obtain ⟨hanswers, hveiled⟩ := history_veiled hregistry hcipher hsleep hsame
    (World.veiled_refl app.integration.cipher hnonces hprovider)
  exact ⟨hanswers, fun id => (loadRun_veiled id v v' hveiled).1, hveiled.database.shown, hveiled.received, hveiled⟩

def liveSettings : Settings := { safeSettings with executionDryRun := false, verifyAllowLive := true }

/-- A client connects with an access token, verifies the connection, and has a template message sent. -/
def sentWith (token : String) : List (Operation Unit) := [
  .integrate (.call firstClient (.connect token "15550003" none none)),
  .integrate (.call firstClient (.verify liveRequest)),
  .execute welcome noHook]

theorem answers_sameButToken_sent :
    ∃ app : Application Unit, build liveSettings ⟨0⟩ = .ok app ∧
      (∀ seconds, Task.Agrees (World.Veiled app.integration.cipher) (noWait seconds) (noWait seconds)) ∧
      List.Forall₂ (Operation.SameButToken app.integration.cipher) (sentWith "EAAG") (sentWith "other") ∧
      (∀ i, (firstWorld.sources.nonce i).length = Secret.Gcm.nonceSize) ∧
      (∀ n, HeaderBlind (firstWorld.line.transport n)) ∧
      app.answers noWait (sentWith "EAAG") firstWorld = app.answers noWait (sentWith "other") firstWorld := by
  have hprintable : Text.Printable "EAAG" ∧ Text.Printable "other" :=
    ⟨⟨by decide, List.all_iff_forall_prop.mp (by decide)⟩, by decide, List.all_iff_forall_prop.mp (by decide)⟩
  have hsame (cipher : Secret.Cipher) :
      List.Forall₂ (Operation.SameButToken cipher) (sentWith "EAAG") (sentWith "other") :=
    .cons (.integrate (.call _ (.connect hprintable.1 hprintable.2 _ _ _)))
      (.cons (.integrate (.call _ (.verify _))) (.cons (.execute _ fun _ => Task.Agrees.pure _) .nil))
  have hsleep (cipher : Secret.Cipher) (seconds : Binary64) :
      Task.Agrees (World.Veiled cipher) (noWait seconds) (noWait seconds) := Task.Agrees.pure _
  refine ⟨_, rfl, hsleep _, hsame _, fun _ => rfl, fun _ _ _ _ => rfl, ?_⟩
  exact (answers_sameButToken liveSettings ⟨0⟩ _ rfl noWait (hsleep _) _ _ (hsame _) firstWorld
    (fun _ => rfl) fun _ _ _ _ => rfl).1

end Application

end Cadence
