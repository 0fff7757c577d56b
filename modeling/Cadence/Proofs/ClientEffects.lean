import Cadence.Proofs.AnswerBodies
import Cadence.Integration.Service
import Cadence.Proofs.RecordedRuns
import Cadence.Proofs.SealedSecrets

/-!
# Effects of the integration

On behalf of a client, the integration changes the world in four ways only: a nonce is drawn, a credential of
the client is saved, a request is sent, and a verification of the client is put on record. Connecting and
rotating do the first two, verifying does the last two, and asking for the status does none. A property of
worlds that the effects of a call keep holds after the call, however it ends.
-/

namespace Cadence

open Storage Integration

/-! ### The stores over tables that are there -/

namespace Storage

variable {db : Database} {t : Tables} {now : Instant}

theorem newestOf_append (key : CredentialKey) (rows : List Credential) (row : Credential) :
    newestOf key (rows ++ [row]) = if keyOf row = key then some row else newestOf key rows := by
  rw [newestOf, List.reverse_append, List.reverse_singleton, List.singleton_append, List.find?_cons]
  by_cases h : keyOf row = key
  · simp only [h, decide_true, if_true]
  · simp only [h, decide_false, if_false]
    rfl

/-- The row of a credential that is saved in the tables. -/
def Tables.credentialRow (t : Tables) (key : CredentialKey) (token : String) (userId : Option String)
    (now : Instant) : Credential where
  id := t.credentials.length + 1
  tenantId := key.tenantId
  clientId := key.clientId
  provider := key.provider
  credentialType := key.credentialType
  encryptedSecret := token
  userId := userId
  createdAt := now.toNaive

/-- The row of a verification that is put on record in the tables. -/
def Tables.verificationRow (t : Tables) (record : Verification) (now : Instant) : Verification :=
  { record with id := some (t.verifications.length + 1 : Nat), createdAt := some now.toNaive }

def Tables.addCredential (t : Tables) (row : Credential) : Tables :=
  { t with credentials := t.credentials ++ [row] }

def Tables.addVerification (t : Tables) (row : Verification) : Tables :=
  { t with verifications := t.verifications ++ [row] }

theorem CredentialStore.runOn_current (key : CredentialKey) (ht : db.tables = some t) :
    (CredentialStore.current key now).runOn db = (.ok (newestOf key t.credentials), db) :=
  Task.runOn_bind_ok (runOn_tablesOr_some ht)

theorem VerificationLog.runOn_latest (key : VerificationKey) (ht : db.tables = some t) :
    (VerificationLog.latest key now).runOn db = (.ok (historyOf key t.verifications).head?, db) :=
  Task.runOn_bind_ok (runOn_tablesOr_some ht)

theorem CredentialStore.runOn_insert (key : CredentialKey) (token : String) (userId : Option String)
    (ht : db.tables = some t) :
    (CredentialStore.insert key token userId now).runOn db =
      (.ok t.credentials.length,
        { db with tables := some (t.addCredential (t.credentialRow key token userId now)) }) :=
  Task.runOn_bind_ok (runOn_tablesOr_some ht)

theorem CredentialStore.runOn_reload {position : Nat} {row : Credential} (ht : db.tables = some t)
    (hrow : t.credentials[position]? = some row) :
    (CredentialStore.reload position now).runOn db = (.ok row, db) := by
  rw [reload, Task.runOn_bind_ok (runOn_tablesOr_some ht), hrow]
  rfl

theorem CredentialStore.runOn_save (key : CredentialKey) (token : String) (userId : Option String)
    (ht : db.tables = some t) :
    (CredentialStore.save key token userId now).runOn db =
      let row := t.credentialRow key token userId now
      (.ok row, { db with tables := some (t.addCredential row) }) := by
  rw [save, Task.runOn_bind_ok (runOn_insert key token userId ht)]
  exact runOn_reload rfl List.getElem?_concat_length

theorem VerificationLog.runOn_insert (record : Verification) (ht : db.tables = some t) :
    (VerificationLog.insert record now).runOn db =
      (.ok t.verifications.length,
        { db with tables := some (t.addVerification (t.verificationRow record now)) }) :=
  Task.runOn_bind_ok (runOn_tablesOr_some ht)

theorem VerificationLog.runOn_reload {position : Nat} {row : Verification} (ht : db.tables = some t)
    (hrow : t.verifications[position]? = some row) :
    (VerificationLog.reload position now).runOn db = (.ok row, db) := by
  rw [reload, Task.runOn_bind_ok (runOn_tablesOr_some ht), hrow]
  rfl

theorem VerificationLog.runOn_append (record : Verification) (ht : db.tables = some t) :
    (VerificationLog.append record now).runOn db =
      let row := t.verificationRow record now
      (.ok row, { db with tables := some (t.addVerification row) }) := by
  rw [append, Task.runOn_bind_ok (runOn_insert record ht)]
  exact runOn_reload rfl List.getElem?_concat_length

/-! Without tables nothing is read and nothing is appended. -/

section Dropped
variable (ht : db.tables = none)
include ht

theorem CredentialStore.runOn_current_none (key : CredentialKey) :
    (CredentialStore.current key now).runOn db =
      (.error (refused "Failed to load credential" "get" "credentials" now), db) := by
  rw [current, Task.runOn_bind, runOn_tablesOr, ht]

theorem VerificationLog.runOn_latest_none (key : VerificationKey) :
    (VerificationLog.latest key now).runOn db =
      (.error (refused "Failed to load verification" "get_latest" "integration_verifications" now), db) := by
  rw [latest, Task.runOn_bind, runOn_tablesOr, ht]

theorem CredentialStore.runOn_insert_none (key : CredentialKey) (token : String) (userId : Option String) :
    (CredentialStore.insert key token userId now).runOn db = (.error (saveRefused now), db) := by
  rw [insert, Task.runOn_bind, runOn_tablesOr, ht]

theorem CredentialStore.runOn_reload_none {position : Nat} :
    (CredentialStore.reload position now).runOn db = (.error (saveRefused now), db) := by
  rw [reload, Task.runOn_bind, runOn_tablesOr, ht]

theorem CredentialStore.runOn_save_none (key : CredentialKey) (token : String) (userId : Option String) :
    (CredentialStore.save key token userId now).runOn db = (.error (saveRefused now), db) :=
  Task.runOn_bind_error (runOn_insert_none ht key token userId)

theorem VerificationLog.runOn_insert_none (record : Verification) :
    (VerificationLog.insert record now).runOn db = (.error (appendRefused now), db) := by
  rw [insert, Task.runOn_bind, runOn_tablesOr, ht]

theorem VerificationLog.runOn_reload_none {position : Nat} :
    (VerificationLog.reload position now).runOn db = (.error (appendRefused now), db) := by
  rw [reload, Task.runOn_bind, runOn_tablesOr, ht]

theorem VerificationLog.runOn_append_none (record : Verification) :
    (VerificationLog.append record now).runOn db = (.error (appendRefused now), db) :=
  Task.runOn_bind_error (runOn_insert_none ht record)

end Dropped

end Storage

namespace Provider

/-- Sending goes as far as the request can be written down. -/
theorem Client.runOn_send (c : Client) (token phone : String) (m : Message) (line : Line) :
    (c.send token phone m).runOn line =
      match c.request token phone m with
      | .error f => (.error f, line)
      | .ok request => ((line.send request).1.bind c.readAnswer, (line.send request).2) := by
  unfold send
  rw [Task.runOn_bind, Task.runOn_lift]
  cases c.request token phone m with
  | error f => rfl
  | ok request =>
    dsimp only
    have hsend : (Task.ofPair fun line : Line => line.send request).runOn line = line.send request := rfl
    rw [Task.runOn_bind, hsend]
    rcases line.send request with ⟨f | answer, line'⟩ <;> rfl

end Provider

/-! ### The four effects -/

namespace World

variable {α : Type}

def withTables (w : World α) (t : Tables) : World α :=
  { w with database := { w.database with tables := some t } }

def drawn (w : World α) : World α := { w with noncesDrawn := w.noncesDrawn + 1 }

def sent (w : World α) (r : Provider.Request) : World α := { w with line := (w.line.send r).2 }

/-- The nonce that the next secret is sealed under. -/
def nextNonce (w : World α) : List UInt8 := w.sources.nonce w.noncesDrawn

/-- Over the line of a world, sending goes as far as the request can be written down. -/
theorem runOn_send (c : Provider.Client) (token phone : String) (m : Provider.Message) (w : World α) :
    (overLine (c.send token phone m)).runOn w =
      match c.request token phone m with
      | .error f => (.error f, w)
      | .ok request => ((w.line.send request).1.bind c.readAnswer, w.sent request) := by
  rw [overLine, Task.runOn_focus, Provider.Client.runOn_send]
  cases c.request token phone m <;> rfl

theorem runOn_encrypt_empty (cipher : Secret.Cipher) (w : World α) :
    (encrypt cipher "").runOn w = (.error (.failure (.emptySecret w.now)), w) := rfl

theorem runOn_encrypt (cipher : Secret.Cipher) (w : World α) {secret : String} (h : secret ≠ "") :
    (encrypt cipher secret).runOn w = (.ok (cipher.tokenOf w.nextNonce secret), w.drawn) := by
  unfold encrypt
  rw [Task.runOn_bind_ok (Task.runOn_get w), Secret.Cipher.encrypt_eq_ok h]
  rfl

theorem runOn_decrypt (cipher : Secret.Cipher) (token : String) (w : World α) :
    (decrypt cipher token).runOn w = (cipher.decrypt token w.now, w) := by
  rw [decrypt, Task.runOn_bind_ok (Task.runOn_get w)]
  rfl

end World

namespace Integration

variable {α : Type} {I : World α → Prop} {o : Owner}

/-- A property of worlds that the saving of a credential of a client keeps. -/
structure KeptBySaving (o : Owner) (I : World α → Prop) : Prop where
  drawn : ∀ w, I w → I w.drawn
  saved : ∀ w t field token userId, w.database.tables = some t → I w →
    I (w.withTables (t.addCredential (t.credentialRow (o.credentialKey field) token userId w.now)))

/-- A property of worlds that a verification of a client keeps: the sending of a request, and the record. -/
structure KeptByVerifying (o : Owner) (I : World α → Prop) : Prop where
  sent : ∀ w r, I w → I (w.sent r)
  recorded : ∀ w t record, w.database.tables = some t → VerificationKey.of record = o.verificationKey →
    I w → I (w.withTables (t.addVerification (t.verificationRow record w.now)))

namespace Service

/-- The record of what a verification found. -/
def recordOf (o : Owner) (initiatedBy : Option String) (f : Findings) : Verification where
  tenantId := o.tenantId
  clientId := o.clientId
  provider := provider
  checkType := checkType
  status := f.status
  checks := f.checks
  evidence := f.evidence
  initiatedBy := initiatedBy

/-! ### Steps over tables that are there -/

section Tables
variable {w : World α} {t : Tables} (ht : w.database.tables = some t)
include ht

theorem runOn_current (field : CredentialField) :
    (current o field).runOn w = (.ok (newestOf (o.credentialKey field) t.credentials), w) := by
  rw [current, World.runOn_store, CredentialStore.runOn_current _ ht]

theorem runOn_save (s : Service) (field : CredentialField) {secret : String} (hsecret : secret ≠ "")
    (userId : Option String) :
    (s.save o field secret userId).runOn w =
      let row := t.credentialRow (o.credentialKey field) (s.cipher.tokenOf w.nextNonce secret) userId w.now
      (.ok row, w.drawn.withTables (t.addCredential row)) := by
  have hdrawn : w.drawn.database.tables = some t := ht
  rw [save, Task.runOn_bind_ok (World.runOn_encrypt s.cipher w hsecret), World.runOn_store,
    CredentialStore.runOn_save _ _ _ hdrawn]
  rfl

theorem runOn_putOnRecord (initiatedBy : Option String) (f : Findings) :
    (putOnRecord o initiatedBy f).runOn w =
      let row := t.verificationRow (recordOf o initiatedBy f) w.now
      (.ok row, w.withTables (t.addVerification row)) := by
  rw [putOnRecord, World.runOn_store, VerificationLog.runOn_append _ ht]
  rfl

end Tables

/-! ### What the effects keep -/

theorem current_keeps (field : CredentialField) : Task.Keeps I (current o field) := by
  intro w hw
  rw [current, World.runOn_store, CredentialStore.current, Task.runOn_bind, runOn_tablesOr]
  rcases w.database.tables with _ | t <;> exact hw

theorem latest_keeps : Task.Keeps I (latest o) := by
  intro w hw
  rw [latest, World.runOn_store, VerificationLog.latest, Task.runOn_bind, runOn_tablesOr]
  rcases w.database.tables with _ | t <;> exact hw

theorem decrypt_keeps (cipher : Secret.Cipher) (token : String) :
    Task.Keeps I (World.decrypt cipher token : Task (World α) String) :=
  Task.Keeps.bind Task.Keeps.get fun _ => Task.Keeps.lift _

/-! ### Saving -/

theorem save_keeps (h : KeptBySaving o I) (s : Service) (field : CredentialField) (secret : String)
    (userId : Option String) : Task.Keeps I (s.save o field secret userId) := by
  refine Task.Keeps.bind (fun w hw => ?_) fun token w hw => ?_
  · by_cases hsecret : secret = ""
    · rw [hsecret, World.runOn_encrypt_empty]
      exact hw
    · rw [World.runOn_encrypt _ _ hsecret]
      exact h.drawn w hw
  · rw [World.runOn_store]
    cases ht : w.database.tables with
    | none =>
      rw [CredentialStore.runOn_save_none ht]
      exact hw
    | some t =>
      rw [CredentialStore.runOn_save _ _ _ ht]
      exact h.saved w t field token userId ht hw

theorem connect_keeps (h : KeptBySaving o I) (s : Service) (accessToken phoneNumberId : String)
    (accountId userId : Option String) :
    Task.Keeps I (s.connect o accessToken phoneNumberId accountId userId) := by
  unfold connect
  refine Task.Keeps.bind (save_keeps h s _ _ _) fun credential => ?_
  refine Task.Keeps.bind (save_keeps h s _ _ _) fun _ => ?_
  cases accountId with
  | none => exact Task.Keeps.pure _
  | some id =>
    dsimp only
    split
    · exact Task.Keeps.bind (save_keeps h s _ _ _) fun _ => Task.Keeps.pure _
    · exact Task.Keeps.pure _

theorem rotate_keeps (h : KeptBySaving o I) (s : Service) (accessToken : String) (userId : Option String) :
    Task.Keeps I (s.rotate o accessToken userId) :=
  Task.Keeps.bind (save_keeps h s _ _ _) fun _ => Task.Keeps.pure _

/-! ### Asking for the status -/

theorem evaluate_keeps (s : Service) (newest : Option Verification) : Task.Keeps I (s.evaluate o newest) :=
  Task.Keeps.bind (current_keeps _) fun _ => Task.Keeps.bind (current_keeps _) fun _ =>
    Task.Keeps.bind Task.Keeps.get fun _ => Task.Keeps.lift _

theorem status_keeps (s : Service) : Task.Keeps I (s.status o) :=
  Task.Keeps.bind latest_keeps fun _ => Task.Keeps.bind (evaluate_keeps s _) fun _ => Task.Keeps.pure _

/-! ### Verifying -/

theorem putOnRecord_keeps (h : KeptByVerifying o I) (initiatedBy : Option String) (f : Findings) :
    Task.Keeps I (putOnRecord o initiatedBy f) := by
  intro w hw
  rw [putOnRecord, World.runOn_store]
  cases ht : w.database.tables with
  | none =>
    rw [VerificationLog.runOn_append_none ht]
    exact hw
  | some t =>
    rw [VerificationLog.runOn_append _ ht]
    exact h.recorded w t _ ht rfl hw

theorem send_keeps (h : KeptByVerifying o I) (client : Provider.Client) (token phone : String)
    (m : Provider.Message) : Task.Keeps I (World.overLine (client.send token phone m)) := by
  intro w hw
  rw [World.runOn_send]
  cases client.request token phone m with
  | error f => exact hw
  | ok request => exact h.sent w request hw

theorem sendTest_keeps (h : KeptByVerifying o I) (s : Service) (token phone : String) (r : VerifyRequest)
    (checks : List Check) (evidence : Members) :
    Task.Keeps I (s.sendTest token phone r checks evidence) := by
  unfold sendTest
  have hsent : Task.Keeps I (do World.overLine (s.client.send token phone (← s.testMessage r))) :=
    Task.Keeps.bind (Task.Keeps.lift _) fun m => send_keeps h _ _ _ m
  refine Task.Keeps.bind (Task.Keeps.attempt hsent) fun outcome => ?_
  dsimp only
  split
  · exact Task.Keeps.pure _
  · exact Task.Keeps.throw _
  · exact Task.Keeps.ite (Task.Keeps.pure _) (Task.Keeps.pure _)

theorem verifyLive_keeps (h : KeptByVerifying o I) (s : Service) (r : VerifyRequest)
    (token phone : Credential) (checks : List Check) (evidence : Members) :
    Task.Keeps I (s.verifyLive o r token phone checks evidence) := by
  unfold verifyLive
  refine Task.Keeps.bind (Task.Keeps.attempt (Task.Keeps.bind (decrypt_keeps _ _) fun _ =>
    Task.Keeps.bind (decrypt_keeps _ _) fun _ => Task.Keeps.pure _)) fun outcome => ?_
  dsimp only
  split
  · exact sendTest_keeps h s _ _ r _ _
  · split
    · split
      · exact Task.Keeps.bind (putOnRecord_keeps h _ _) fun _ => Task.Keeps.throw _
      · exact Task.Keeps.throw _
    · exact Task.Keeps.throw _

theorem findings_keeps (h : KeptByVerifying o I) (s : Service) (r : VerifyRequest) :
    Task.Keeps I (s.findings o r) := by
  unfold findings
  refine Task.Keeps.bind (current_keeps _) fun token => Task.Keeps.bind (current_keeps _) fun phone => ?_
  dsimp only
  split
  · split
    · exact verifyLive_keeps h s r _ _ _ _
    · exact Task.Keeps.pure _
  · exact Task.Keeps.pure _
  · exact Task.Keeps.pure _

theorem verify_keeps (h : KeptByVerifying o I) (s : Service) (r : VerifyRequest) :
    Task.Keeps I (s.verify o r) :=
  Task.Keeps.bind (findings_keeps h s r) fun f => Task.Keeps.bind (putOnRecord_keeps h _ f) fun _ =>
    Task.Keeps.pure _

end Service

end Integration

end Cadence
