import Cadence.Proofs.RelatedActions
import Cadence.Proofs.VerificationRecords
import Mathlib.Data.List.Forall2

/-!
# Worlds that differ in access tokens

An access token is kept in two places: sealed, in the row of a credential, and in the headers of the requests that
the provider received. Two worlds are compared that are the same but for these places. What is sealed in a row of
the one opens like that in the row of the other, up to the token itself.
-/

namespace Cadence

open Storage Integration Workflow

/-- A text of printable ASCII characters, so it can be encoded for a header. The transport may refuse the header still,
as one that ends in a space. -/
structure Text.Printable (s : String) : Prop where
  given : s ≠ ""
  visible : ∀ c ∈ s.toList, 0x20 ≤ c.toNat ∧ c.toNat ≤ 0x7e

/-- The secrets are the same, or two printable ones. -/
def Interchangeable (a b : String) : Prop := a = b ∨ Text.Printable a ∧ Text.Printable b

theorem Interchangeable.given_iff {a b : String} (h : Interchangeable a b) : a = "" ↔ b = "" := by
  rcases h with rfl | ⟨ha, hb⟩
  · exact Iff.rfl
  · exact ⟨fun h => absurd h ha.given, fun h => absurd h hb.given⟩

/-- The two tokens open alike, up to interchangeable secrets. -/
def OpenAlike (cipher : Secret.Cipher) (token token' : String) : Prop :=
  ∀ now, Task.Alike Interchangeable (cipher.decrypt token now) (cipher.decrypt token' now)

theorem openAlike_refl (cipher : Secret.Cipher) (token : String) : OpenAlike cipher token token := by
  intro now
  cases cipher.decrypt token now with
  | ok secret => exact .ok (.inl rfl)
  | error f => exact .error f

/-! ### Rows -/

namespace Integration

def Credential.isAccessToken (c : Credential) : Bool := c.credentialType = CredentialField.accessToken.label

/-- The row without the sealed secret, if that is an access token. -/
def Credential.shown (c : Credential) : Credential :=
  if c.isAccessToken then { c with encryptedSecret := "" } else c

/-- The rows differ in the sealed access token at most, and open alike. -/
structure Credential.Veiled (cipher : Secret.Cipher) (c c' : Credential) : Prop where
  shown : c.shown = c'.shown
  opens : OpenAlike cipher c.encryptedSecret c'.encryptedSecret

section Credential
variable {cipher : Secret.Cipher} {c c' : Credential}

theorem Credential.keyOf_shown (c : Credential) : keyOf c.shown = keyOf c := by
  unfold shown
  split <;> rfl

theorem Credential.summary_shown (c : Credential) : c.shown.summary = c.summary := by
  unfold shown
  split <;> rfl

theorem Credential.Veiled.key (h : c.Veiled cipher c') : keyOf c = keyOf c' := by
  rw [← c.keyOf_shown, h.shown, c'.keyOf_shown]

theorem Credential.Veiled.summary (h : c.Veiled cipher c') : c.summary = c'.summary := by
  rw [← c.summary_shown, h.shown, c'.summary_shown]

theorem Credential.veiled_refl (cipher : Secret.Cipher) (c : Credential) : c.Veiled cipher c :=
  ⟨rfl, openAlike_refl cipher _⟩

theorem Credential.Veiled.eq (h : c.Veiled cipher c') (hother : c.isAccessToken = false) : c = c' := by
  have htype : c.credentialType = c'.credentialType := congrArg (·.credentialType) h.key
  have hother' : c'.isAccessToken = false := by
    unfold isAccessToken at hother ⊢
    rw [← htype]
    exact hother
  have hshown {c : Credential} (hc : c.isAccessToken = false) : c.shown = c := by
    unfold Credential.shown
    rw [hc, if_neg Bool.false_ne_true]
  rw [← hshown hother, h.shown, hshown hother']

end Credential

end Integration

namespace Storage

/-- The tables differ in sealed access tokens at most. -/
structure Tables.Veiled (cipher : Secret.Cipher) (t t' : Tables) : Prop where
  credentials : List.Forall₂ (Credential.Veiled cipher) t.credentials t'.credentials
  verifications : t.verifications = t'.verifications
  runs : t.runs = t'.runs
  events : t.events = t'.events

structure Database.Veiled (cipher : Secret.Cipher) (db db' : Database) : Prop where
  tables : Option.Rel (Tables.Veiled cipher) db.tables db'.tables
  sequences : db.sequences = db'.sequences

variable {cipher : Secret.Cipher} {t t' : Tables}

theorem Tables.veiled_refl (cipher : Secret.Cipher) (t : Tables) : t.Veiled cipher t where
  credentials := List.forall₂_same.mpr fun c _ => c.veiled_refl cipher
  verifications := rfl
  runs := rfl
  events := rfl

theorem Database.veiled_refl (cipher : Secret.Cipher) (db : Database) : db.Veiled cipher db := by
  refine ⟨?_, rfl⟩
  cases db.tables with
  | none => exact .none
  | some t => exact .some (t.veiled_refl cipher)

theorem Tables.Veiled.withRuns (h : t.Veiled cipher t') (rows : List RunRow) :
    ({ t with runs := rows } : Tables).Veiled cipher { t' with runs := rows } :=
  { h with runs := rfl }

theorem Tables.Veiled.withEvents (h : t.Veiled cipher t') (rows : List EventRow) :
    ({ t with events := rows } : Tables).Veiled cipher { t' with events := rows } :=
  { h with events := rfl }

theorem Tables.Veiled.addCredential (h : t.Veiled cipher t') {row row' : Credential}
    (hrow : row.Veiled cipher row') : (t.addCredential row).Veiled cipher (t'.addCredential row') :=
  { h with credentials := List.rel_append h.credentials (.cons hrow .nil) }

theorem find?_veiled (key : CredentialKey) {rows rows' : List Credential}
    (h : List.Forall₂ (Credential.Veiled cipher) rows rows') :
    Option.Rel (fun c c' => c.Veiled cipher c' ∧ keyOf c = key) (rows.find? fun c => keyOf c = key)
      (rows'.find? fun c => keyOf c = key) := by
  induction h with
  | nil => exact .none
  | @cons c c' _ _ hrow _ ih =>
    by_cases hkey : keyOf c = key
    · have hkey' : keyOf c' = key := hrow.key.symm.trans hkey
      simp only [List.find?_cons, hkey, hkey', decide_true]
      exact .some ⟨hrow, hkey⟩
    · have hkey' : ¬keyOf c' = key := fun heq => hkey (hrow.key.trans heq)
      simp only [List.find?_cons, hkey, hkey', decide_false]
      exact ih

/-- The current credentials of a key differ in the sealed access token at most. -/
theorem Tables.Veiled.newest (h : t.Veiled cipher t') (key : CredentialKey) :
    Option.Rel (fun c c' => c.Veiled cipher c' ∧ keyOf c = key) (newestOf key t.credentials)
      (newestOf key t'.credentials) :=
  find?_veiled key (List.rel_reverse h.credentials)

def Tables.shown (t : Tables) : Tables := { t with credentials := t.credentials.map Credential.shown }

theorem Tables.Veiled.shown (h : t.Veiled cipher t') : t.shown = t'.shown := by
  have hcredentials : t.credentials.map Credential.shown = t'.credentials.map Credential.shown := by
    rw [← List.forall₂_eq_eq_eq, List.forall₂_map_left_iff, List.forall₂_map_right_iff]
    exact h.credentials.imp fun _ _ hrow => hrow.shown
  unfold Tables.shown
  rw [hcredentials, h.verifications, h.runs, h.events]

theorem Database.Veiled.shown {db db' : Database} (h : db.Veiled cipher db') :
    db.tables.map Tables.shown = db'.tables.map Tables.shown := by
  have htables := h.tables
  generalize db.tables = tables, db'.tables = tables' at htables ⊢
  cases htables with
  | none => rfl
  | some hveiled => exact congrArg some hveiled.shown

theorem Database.Veiled.cases {db db' : Database} (h : db.Veiled cipher db') :
    db.tables = none ∧ db'.tables = none ∨
      ∃ t t', db.tables = some t ∧ db'.tables = some t' ∧ t.Veiled cipher t' := by
  have htables := h.tables
  generalize db.tables = tables, db'.tables = tables' at htables ⊢
  cases htables with
  | none => exact .inl ⟨rfl, rfl⟩
  | some hveiled => exact .inr ⟨_, _, rfl, rfl, hveiled⟩

section Tasks

theorem tablesOr_couples (fault : Fault) :
    Task.Couples (Database.Veiled cipher) (Tables.Veiled cipher) (tablesOr fault) (tablesOr fault) := by
  intro db db' hdb
  rw [runOn_tablesOr, runOn_tablesOr]
  rcases hdb.cases with ⟨ht, ht'⟩ | ⟨t, t', ht, ht', hveiled⟩
  · rw [ht, ht']
    exact ⟨.error _, hdb⟩
  · rw [ht, ht']
    exact ⟨.ok hveiled, hdb⟩

theorem putTables_agrees (h : t.Veiled cipher t') :
    Task.Agrees (Database.Veiled cipher) (putTables t) (putTables t') :=
  fun _ _ hdb => ⟨rfl, .some h, hdb.sequences⟩

theorem sequences_agree (f : List (String × Nat) → List (String × Nat)) :
    Task.Agrees (Database.Veiled cipher)
      (modify fun db => { db with sequences := f db.sequences } : Task Database PUnit)
      (modify fun db => { db with sequences := f db.sequences }) :=
  fun _ _ hdb => ⟨rfl, hdb.tables, congrArg f hdb.sequences⟩

theorem currentOf_couples (key : CredentialKey) (now : Instant) :
    Task.Couples (Database.Veiled cipher) (Option.Rel fun c c' => c.Veiled cipher c' ∧ keyOf c = key)
      (CredentialStore.current key now) (CredentialStore.current key now) :=
  (tablesOr_couples _).bind fun _ _ ht => Task.Couples.pure (ht.newest key)

/-- Two tokens that open alike are saved in rows that differ in the sealed access token at most. -/
theorem saveOf_couples (key : CredentialKey) {token token' : String} (hopen : OpenAlike cipher token token')
    (hother : key.credentialType ≠ CredentialField.accessToken.label → token = token') (userId : Option String)
    (now : Instant) :
    Task.Couples (Database.Veiled cipher) (Credential.Veiled cipher) (CredentialStore.save key token userId now)
      (CredentialStore.save key token' userId now) := by
  intro db db' hdb
  rcases hdb.cases with ⟨ht, ht'⟩ | ⟨t, t', ht, ht', hveiled⟩
  · rw [CredentialStore.runOn_save_none ht, CredentialStore.runOn_save_none ht']
    exact ⟨.error _, hdb⟩
  have hrow : (t.credentialRow key token userId now).Veiled cipher (t'.credentialRow key token' userId now) := by
    refine ⟨?_, hopen⟩
    unfold Tables.credentialRow Credential.shown Credential.isAccessToken
    rw [hveiled.credentials.length_eq]
    by_cases htype : key.credentialType = CredentialField.accessToken.label
    · simp only [htype, decide_true, if_true]
    · rw [hother htype]
  rw [CredentialStore.runOn_save _ _ _ ht, CredentialStore.runOn_save _ _ _ ht']
  exact ⟨.ok hrow, .some (hveiled.addCredential hrow), hdb.sequences⟩

theorem appendOf_agrees (record : Verification) (now : Instant) :
    Task.Agrees (Database.Veiled cipher) (VerificationLog.append record now)
      (VerificationLog.append record now) := by
  intro db db' hdb
  rcases hdb.cases with ⟨ht, ht'⟩ | ⟨t, t', ht, ht', hveiled⟩
  · rw [VerificationLog.runOn_append_none ht, VerificationLog.runOn_append_none ht']
    exact ⟨rfl, hdb⟩
  · have hrow : t.verificationRow record now = t'.verificationRow record now := by
      unfold Tables.verificationRow
      rw [hveiled.verifications]
    rw [VerificationLog.runOn_append _ ht, VerificationLog.runOn_append _ ht', hrow]
    refine ⟨rfl, .some { hveiled with verifications := ?_ }, hdb.sequences⟩
    exact congrArg (· ++ [t'.verificationRow record now]) hveiled.verifications

theorem latestOf_agrees (key : VerificationKey) (now : Instant) :
    Task.Agrees (Database.Veiled cipher) (VerificationLog.latest key now) (VerificationLog.latest key now) := by
  refine (tablesOr_couples _).bind_agrees fun t t' ht => ?_
  rw [ht.verifications]
  exact Task.Agrees.pure _

namespace RunLog

theorem start_agrees (s : RunStart) (now : Instant) :
    Task.Agrees (Database.Veiled cipher) (start s now) (start s now) := by
  refine (tablesOr_couples _).bind_agrees fun t t' ht => ?_
  rw [ht.runs]
  have hopen := (putTables_agrees (ht.withRuns (t'.runs ++ [s.row now]))).bind fun _ =>
    sequences_agree fun sequences => (s.executionId, 0) :: sequences.filter fun c => c.1 ≠ s.executionId
  cases t'.runs.any (·.id = s.executionId) with
  | true => exact Task.Agrees.throw _
  | false => exact hopen

theorem record_agrees (id : String) (level : EventLevel) (type : String) (payload : Members) (now : Instant) :
    Task.Agrees (Database.Veiled cipher) (record id level type payload now)
      (record id level type payload now) := by
  refine Task.Agrees.get_bind fun db db' hdb => ?_
  rw [hdb.sequences]
  refine (sequences_agree fun _ => (nextSequence id db'.sequences).2).bind fun _ => ?_
  refine (tablesOr_couples _).bind_agrees fun t t' ht => ?_
  rw [ht.events]
  have hput (row : EventRow) := (putTables_agrees (ht.withEvents (t'.events ++ [row]))).bind fun _ =>
    Task.Agrees.pure (nextSequence id db'.sequences).1
  cases Cell.ofJson ((Members.get? payload "nodeId").getD .null) with
  | text s => exact (Task.Agrees.pure _).bind fun _ => hput _
  | empty => exact (Task.Agrees.pure _).bind fun _ => hput _
  | _ => exact (Task.Agrees.throw _).bind fun _ => hput _

theorem finish_agrees (id : String) (e : RunEnd) (now : Instant) :
    Task.Agrees (Database.Veiled cipher) (finish id e now) (finish id e now) := by
  refine (sequences_agree fun sequences => sequences.filter fun c => c.1 ≠ id).bind fun _ => ?_
  refine (tablesOr_couples _).bind_agrees fun t t' ht => ?_
  rw [ht.runs]
  have hput := putTables_agrees
    (ht.withRuns (t'.runs.map fun row => if row.id = id then ended e now row else row))
  cases t'.runs.any (·.id = id) with
  | true => exact hput
  | false => exact Task.Agrees.throw _

end RunLog

end Tasks

end Storage

/-! ### Requests and worlds -/

namespace Provider

/-- The request without the header that carries the access token. -/
def Request.unsigned (r : Request) : Request := { r with authorization := "" }

/-- Requests that carry interchangeable tokens are the same but for the header. -/
theorem Client.request_alike (c : Client) {token token' : String} (h : Interchangeable token token')
    (phone : String) (m : Message) :
    Task.Alike (fun r r' => r.unsigned = r'.unsigned) (c.request token phone m) (c.request token' phone m) := by
  rcases h with rfl | ⟨htoken, htoken'⟩
  · cases c.request token phone m with
    | ok r => exact .ok rfl
    | error f => exact .error f
  · -- The address does not depend on the token, and all printable characters can be encoded for a header.
    by_cases hlong : maxUrlLength < (c.messagesUrl phone).length
    · have hlength (token : String) : c.request token phone m = .error (.other "InvalidURL" "URL too long") :=
        if_pos hlong
      rw [hlength, hlength]
      exact .error _
    · have hwritable {token : String} (hprintable : Text.Printable token) : ¬c.Unwritable token phone := by
        refine Client.writable_of_ascii (Nat.not_lt.mp hlong) fun ch hch => ?_
        have hvisible := (hprintable.visible ch hch).2
        omega
      rw [request_of_writable (hwritable htoken), request_of_writable (hwritable htoken')]
      exact .ok rfl

end Provider

namespace World

variable {α β : Type} {cipher : Secret.Cipher}

/-- The worlds differ in access tokens at most: in how those are sealed, and in the headers of the requests that
the provider received. The provider does not look at the header. -/
structure Veiled (cipher : Secret.Cipher) (w w' : World α) : Prop where
  now : w.now = w'.now
  sources : w.sources = w'.sources
  custom : w.custom = w'.custom
  noncesDrawn : w.noncesDrawn = w'.noncesDrawn
  identifiersDrawn : w.identifiersDrawn = w'.identifiersDrawn
  logContext : w.logContext = w'.logContext
  database : w.database.Veiled cipher w'.database
  received : w.line.received.map (·.unsigned) = w'.line.received.map (·.unsigned)
  transport : w.line.transport = w'.line.transport
  steady : ∀ n r r', r.unsigned = r'.unsigned → w.line.transport n r = w.line.transport n r'
  nonces : ∀ i, (w.sources.nonce i).length = Secret.Gcm.nonceSize

theorem veiled_refl {w : World α} (cipher : Secret.Cipher)
    (hnonces : ∀ i, (w.sources.nonce i).length = Secret.Gcm.nonceSize)
    (hsteady : ∀ n r r', r.unsigned = r'.unsigned → w.line.transport n r = w.line.transport n r') :
    w.Veiled cipher w :=
  ⟨rfl, rfl, rfl, rfl, rfl, rfl, w.database.veiled_refl cipher, rfl, rfl, hsteady, hnonces⟩

theorem veiled_oneTime : OneTime (Veiled cipher : World α → World α → Prop) := fun _ _ h => h.now

theorem store_couples {γ : Type} {Q : β → γ → Prop} {t : Instant → Task Database β} {u : Instant → Task Database γ}
    (h : ∀ now, Task.Couples (Database.Veiled cipher) Q (t now) (u now)) :
    Task.Couples (Veiled cipher) Q (store t : Task (World α) β) (store u : Task (World α) γ) := by
  intro w w' hw
  have halike := h w.now _ _ hw.database
  have hlate : u w.now = u w'.now := by rw [hw.now]
  rw [hlate] at halike
  rw [runOn_store, runOn_store]
  exact ⟨halike.1, { hw with database := halike.2 }⟩

theorem store_agrees {t u : Instant → Task Database β}
    (h : ∀ now, Task.Agrees (Database.Veiled cipher) (t now) (u now)) :
    Task.Agrees (Veiled cipher) (store t : Task (World α) β) (store u) :=
  Task.agrees_iff_couples.mpr (store_couples fun now => Task.agrees_iff_couples.mp (h now))

/-- Interchangeable secrets are sealed under one nonce. The tokens open alike, and are the same if the secrets
are. -/
theorem encrypt_couples {secret secret' : String} (h : Interchangeable secret secret') :
    Task.Couples (Veiled cipher) (fun a b => OpenAlike cipher a b ∧ (secret = secret' → a = b))
      (encrypt cipher secret : Task (World α) String) (encrypt cipher secret') := by
  intro w w' hw
  have hnonce : w.nextNonce = w'.nextNonce := by
    unfold nextNonce
    rw [hw.sources, hw.noncesDrawn]
  have hsize : w'.nextNonce.length = Secret.Gcm.nonceSize := hnonce ▸ hw.nonces _
  by_cases hempty : secret = ""
  · have hempty' : secret' = "" := h.given_iff.mp hempty
    rw [hempty, hempty', runOn_encrypt_empty, runOn_encrypt_empty, hw.now]
    exact ⟨.error _, hw⟩
  · -- What is sealed under a nonce of the right size opens again, whatever else is in the world.
    have hempty' : secret' ≠ "" := fun heq => hempty (h.given_iff.mpr heq)
    rw [runOn_encrypt cipher w hempty, runOn_encrypt cipher w' hempty', hnonce]
    refine ⟨.ok ⟨fun now => ?_, fun heq => by rw [heq]⟩, { hw with noncesDrawn := ?_ }⟩
    · rw [cipher.decrypt_tokenOf hsize hempty, cipher.decrypt_tokenOf hsize hempty']
      exact .ok h
    · exact congrArg (· + 1) hw.noncesDrawn

theorem decrypt_couples {token token' : String} (h : OpenAlike cipher token token') :
    Task.Couples (Veiled cipher) Interchangeable (decrypt cipher token : Task (World α) String)
      (decrypt cipher token') := by
  intro w w' hw
  rw [runOn_decrypt, runOn_decrypt, hw.now]
  exact ⟨h w'.now, hw⟩

theorem decrypt_agrees (token : String) :
    Task.Agrees (Veiled cipher) (decrypt cipher token : Task (World α) String) (decrypt cipher token) := by
  intro w w' hw
  rw [runOn_decrypt, runOn_decrypt, hw.now]
  exact ⟨rfl, hw⟩

theorem send_agrees (c : Provider.Client) {token token' : String} (h : Interchangeable token token')
    (phone : String) (m : Provider.Message) :
    Task.Agrees (Veiled cipher) (overLine (c.send token phone m) : Task (World α) Provider.Response)
      (overLine (c.send token' phone m)) := by
  intro w w' hw
  have hrequest := c.request_alike h phone m
  rw [runOn_send, runOn_send]
  generalize c.request token phone m = made, c.request token' phone m = made' at hrequest ⊢
  cases hrequest with
  | error f => exact ⟨rfl, hw⟩
  | @ok r r' hsame =>
    have hlength : w.line.received.length = w'.line.received.length := by
      simpa only [List.length_map] using congrArg List.length hw.received
    have hanswer : w.line.transport w.line.received.length r = w'.line.transport w'.line.received.length r' := by
      rw [← hlength, ← hw.transport]
      exact hw.steady _ r r' hsame
    refine ⟨congrArg (·.bind c.readAnswer) hanswer, { hw with received := ?_ }⟩
    show r.unsigned :: w.line.received.map (·.unsigned) = r'.unsigned :: w'.line.received.map (·.unsigned)
    rw [hsame, hw.received]

end World

end Cadence
