import Cadence.Proofs.ClientHistory

/-!
# Isolation of clients

What a client is told, and the requests that are made for it, do not depend on the calls of other clients. A
client sees of the tables how its current credentials open, and its own records of verifications but for their
ids. Two worlds that look alike to a client stay so when the client makes the same call in both, which
has the same answer then, and when another client makes a call in one of them.
-/

namespace Cadence

open Storage Integration

namespace Integration

/-! ### Answers without the ids of rows -/

def Verification.withoutId (r : Verification) : Verification := { r with id := none }

def withoutRowId : Json → Json
  | .obj members => .obj (members.filter (·.1 ≠ "id"))
  | v => v

/-- An answer, in which the ids of rows are left out of the objects that tell of a row. -/
def Reply.withoutIds : Reply → Reply
  | .told (.obj members) => .told (.obj (members.map fun m => (m.1, withoutRowId m.2)))
  | .told v => .told v
  | .verified ok record => .verified ok record.withoutId

/-- What a client gets for a call, and the requests that the call made. -/
structure Exchange where
  reply : Outcome Reply
  requests : List Provider.Request

def Exchange.withoutIds (e : Exchange) : Exchange := { e with reply := e.reply.map Reply.withoutIds }

variable {α : Type}

def Service.exchange (s : Service) (o : Owner) (c : Call) (w : World α) : Exchange where
  reply := ((s.perform o c).runOn w).1
  requests := newRequests w ((s.perform o c).runOn w).2

/-- The exchange of a client in a step, if the step is a call of that client. -/
def Step.exchange? (s : Service) (o : Owner) (w : World α) : Step → Option Exchange
  | .call p c => if p = o then some (s.exchange o c w) else none
  | .clock _ | .provider _ => none

/-- The exchanges of a client in the course of a history. -/
def Service.exchanges (s : Service) (o : Owner) : List Step → World α → List Exchange
  | [], _ => []
  | step :: rest, w => (step.exchange? s o w).toList ++ s.exchanges o rest (step.run s w)

/-- A step that is not a call of another client. -/
def Step.concerns (o : Owner) : Step → Bool
  | .call p _ => p = o
  | .clock _ | .provider _ => true

/-! ### What a client sees of the tables -/

/-- How the current credentials of a client open, and its records but for their ids. -/
@[ext]
structure View where
  opened : Openings
  records : List Verification

def recordsOf (o : Owner) (rows : List Verification) : List Verification :=
  (rows.filter fun r => VerificationKey.of r = o.verificationKey).map Verification.withoutId

def viewOf (cipher : Secret.Cipher) (o : Owner) (t : Tables) : View where
  opened := openings cipher o t
  records := recordsOf o t.verifications

variable {cipher : Secret.Cipher} {o p : Owner} {t t' : Tables}

theorem Owner.verificationKey_inj (h : o.verificationKey = p.verificationKey) : o = p := by
  obtain ⟨htenant, hclient, -, -⟩ := VerificationKey.mk.inj h
  cases o
  cases p
  exact congr (congrArg _ htenant) hclient

theorem recordsOf_append (o : Owner) (rows : List Verification) (row : Verification) :
    recordsOf o (rows ++ [row]) =
      if VerificationKey.of row = o.verificationKey then recordsOf o rows ++ [row.withoutId]
      else recordsOf o rows := by
  rw [recordsOf, List.filter_append, List.map_append, List.filter_cons, List.filter_nil]
  by_cases hkey : VerificationKey.of row = o.verificationKey
  · simp only [hkey, decide_true, if_true, List.map_singleton]
    rfl
  · simp only [hkey, decide_false, Bool.false_eq_true, if_false, List.map_nil, List.append_nil]
    rfl

theorem historyOf_withoutId (o : Owner) (rows : List Verification) :
    (historyOf o.verificationKey rows).map Verification.withoutId =
      (recordsOf o rows).reverse.mergeSort fun a b => createdWall b ≤ createdWall a := by
  rw [historyOf, List.map_mergeSort, List.filter_reverse, List.map_reverse]
  · rfl
  · -- The order goes by the time of a record, which its id has no part in.
    exact fun _ _ _ _ => rfl

theorem viewOf_addCredential (h : viewOf cipher o t = viewOf cipher o t') (field : CredentialField)
    {token token' : String} (htoken : cipher.decrypt token = cipher.decrypt token') (userId : Option String)
    (now : Instant) :
    viewOf cipher o (t.addCredential (t.credentialRow (o.credentialKey field) token userId now)) =
      viewOf cipher o (t'.addCredential (t'.credentialRow (o.credentialKey field) token' userId now)) := by
  obtain ⟨hopened, hrecords⟩ := View.ext_iff.mp h
  refine View.ext ?_ hrecords
  have hold : openings cipher o t = openings cipher o t' := hopened
  rw [viewOf, viewOf, openings_addCredential, openings_addCredential, htoken, hold]

theorem viewOf_addCredential_other (h : p ≠ o) (field : CredentialField) (token : String)
    (userId : Option String) (now : Instant) :
    viewOf cipher o (t.addCredential (t.credentialRow (p.credentialKey field) token userId now)) =
      viewOf cipher o t :=
  View.ext (openings_addCredential_other h field token userId now) rfl

theorem viewOf_addVerification (h : viewOf cipher o t = viewOf cipher o t') {record : Verification}
    (hrecord : VerificationKey.of record = o.verificationKey) (now : Instant) :
    viewOf cipher o (t.addVerification (t.verificationRow record now)) =
      viewOf cipher o (t'.addVerification (t'.verificationRow record now)) := by
  obtain ⟨hopened, hrecords⟩ := View.ext_iff.mp h
  refine View.ext hopened ?_
  have hown (t : Tables) : VerificationKey.of (t.verificationRow record now) = o.verificationKey := hrecord
  have hold : recordsOf o t.verifications = recordsOf o t'.verifications := hrecords
  rw [viewOf, viewOf, Tables.addVerification, Tables.addVerification, recordsOf_append, recordsOf_append,
    if_pos (hown t), if_pos (hown t'), hold]
  rfl

theorem viewOf_addVerification_other (h : p ≠ o) {record : Verification}
    (hrecord : VerificationKey.of record = p.verificationKey) (now : Instant) :
    viewOf cipher o (t.addVerification (t.verificationRow record now)) = viewOf cipher o t := by
  have hother : VerificationKey.of (t.verificationRow record now) ≠ o.verificationKey :=
    fun heq => h (Owner.verificationKey_inj (hrecord.symm.trans heq))
  refine View.ext rfl ?_
  rw [viewOf, viewOf, Tables.addVerification, recordsOf_append, if_neg hother]

/-! ### Worlds that look alike to a client -/

/-- Two worlds look alike to a client. The provider of both has the same answer to a request, however many
requests reached it before. -/
structure Twin (cipher : Secret.Cipher) (o : Owner) (w w' : World α) : Prop where
  now : w.now = w'.now
  nonces : ∀ i, (w.sources.nonce i).length = Secret.Gcm.nonceSize
  nonces' : ∀ i, (w'.sources.nonce i).length = Secret.Gcm.nonceSize
  transport : w.line.transport = w'.line.transport
  steady : ∀ m n r, w.line.transport m r = w.line.transport n r
  view : w.database.tables.map (viewOf cipher o) = w'.database.tables.map (viewOf cipher o)

/-- Since `before` and `before'` the same requests were made in both worlds, which look alike to the client. -/
structure Paired (cipher : Secret.Cipher) (o : Owner) (before before' w w' : World α) : Prop where
  twin : Twin cipher o w w'
  requests : ∃ made, w.line.received = made ++ before.line.received ∧
    w'.line.received = made ++ before'.line.received

theorem twin_keptBySaving (h : p ≠ o) (w' : World α) : KeptBySaving p fun w => Twin cipher o w w' where
  drawn _ hw := ⟨hw.now, hw.nonces, hw.nonces', hw.transport, hw.steady, hw.view⟩
  saved w t field token userId ht hw := by
    refine ⟨hw.now, hw.nonces, hw.nonces', hw.transport, hw.steady, ?_⟩
    rw [← hw.view, ht]
    exact congrArg some (viewOf_addCredential_other h field token userId w.now)

theorem twin_keptByVerifying (h : p ≠ o) (w' : World α) : KeptByVerifying p fun w => Twin cipher o w w' where
  sent _ _ hw := ⟨hw.now, hw.nonces, hw.nonces', hw.transport, hw.steady, hw.view⟩
  recorded w t record ht hrecord hw := by
    refine ⟨hw.now, hw.nonces, hw.nonces', hw.transport, hw.steady, ?_⟩
    rw [← hw.view, ht]
    exact congrArg some (viewOf_addVerification_other h hrecord w.now)

namespace Paired

variable {before before' w w' : World α} (h : Paired cipher o before before' w w')
include h

theorem drawn : Paired cipher o before before' w.drawn w'.drawn :=
  ⟨⟨h.twin.now, h.twin.nonces, h.twin.nonces', h.twin.transport, h.twin.steady, h.twin.view⟩, h.requests⟩

theorem withTables (hview : viewOf cipher o t = viewOf cipher o t') :
    Paired cipher o before before' (w.withTables t) (w'.withTables t') :=
  ⟨⟨h.twin.now, h.twin.nonces, h.twin.nonces', h.twin.transport, h.twin.steady, congrArg some hview⟩,
    h.requests⟩

theorem sent (r : Provider.Request) : Paired cipher o before before' (w.sent r) (w'.sent r) := by
  obtain ⟨made, hmade, hmade'⟩ := h.requests
  refine ⟨⟨h.twin.now, h.twin.nonces, h.twin.nonces', h.twin.transport, h.twin.steady, h.twin.view⟩,
    r :: made, ?_, ?_⟩
  · exact congrArg (r :: ·) hmade
  · exact congrArg (r :: ·) hmade'

theorem answer (r : Provider.Request) : (w.line.send r).1 = (w'.line.send r).1 := by
  show w.line.transport _ r = w'.line.transport _ r
  rw [← h.twin.transport, h.twin.steady]

end Paired

/-! ### Calls of the client -/

section Own
variable {before before' : World α}

/-- Tasks of a store that are refused without tables, and otherwise put tables that look alike in their place. -/
theorem store_couples {β γ : Type} {Q : β → γ → Prop} {f : Instant → Task Database β}
    {g : Instant → Task Database γ} {refusal : Instant → Fault}
    (hf : ∀ now db, db.tables = none → (f now).runOn db = (.error (refusal now), db))
    (hg : ∀ now db, db.tables = none → (g now).runOn db = (.error (refusal now), db))
    (hsome : ∀ w w' t t', Paired cipher o before before' w w' → w.database.tables = some t →
      w'.database.tables = some t' → viewOf cipher o t = viewOf cipher o t' →
      ∃ a b u u', (f w.now).runOn w.database = (.ok a, { w.database with tables := some u }) ∧
        (g w'.now).runOn w'.database = (.ok b, { w'.database with tables := some u' }) ∧ Q a b ∧
        viewOf cipher o u = viewOf cipher o u') :
    Task.Couples (Paired cipher o before before') Q (World.store f) (World.store g) := by
  intro w w' hw
  have hview := hw.twin.view
  rw [World.runOn_store, World.runOn_store]
  -- The tables are there in both worlds or in neither, and without them both refuse at the same time.
  cases ht : w.database.tables with
  | none =>
    cases ht' : w'.database.tables with
    | none =>
      rw [hf _ _ ht, hg _ _ ht']
      exact ⟨hw.twin.now ▸ .error _, hw⟩
    | some t' =>
      rw [ht, ht'] at hview
      cases hview
  | some t =>
    cases ht' : w'.database.tables with
    | none =>
      rw [ht, ht'] at hview
      cases hview
    | some t' =>
      rw [ht, ht'] at hview
      obtain ⟨a, b, u, u', hrun, hrun', halike, hviews⟩ := hsome w w' t t' hw ht ht' (Option.some.inj hview)
      rw [hrun, hrun']
      exact ⟨.ok halike, hw.withTables hviews⟩

/-- A task that only reads puts back the tables that are there. -/
theorem runOn_self {β : Type} {task : Task Database β} {db : Database} {ending : Outcome β}
    (h : task.runOn db = (ending, db)) (ht : db.tables = some t) :
    task.runOn db = (ending, { db with tables := some t }) := by
  rw [h, ← ht]

variable (s : Service)

theorem encrypt_couples (secret : String) :
    Task.Couples (Paired cipher o before before') (fun a b => cipher.decrypt a = cipher.decrypt b)
      (World.encrypt cipher secret) (World.encrypt cipher secret) := by
  intro w w' hw
  by_cases hsecret : secret = ""
  · rw [hsecret, World.runOn_encrypt_empty, World.runOn_encrypt_empty, hw.twin.now]
    exact ⟨.error _, hw⟩
  · rw [World.runOn_encrypt _ _ hsecret, World.runOn_encrypt _ _ hsecret]
    refine ⟨.ok (funext fun now => ?_), hw.drawn⟩
    exact (cipher.decrypt_tokenOf (hw.twin.nonces _) hsecret now).trans
      (cipher.decrypt_tokenOf (hw.twin.nonces' _) hsecret now).symm

theorem save_couples (field : CredentialField) (secret : String) (userId : Option String) :
    Task.Couples (Paired s.cipher o before before')
      (fun a b => withoutRowId a.summary = withoutRowId b.summary) (s.save o field secret userId)
      (s.save o field secret userId) := by
  -- The two tokens are sealed under different nonces. No answer shows them, and they open to the same secret.
  refine Task.Couples.bind (encrypt_couples secret) fun token token' htoken => ?_
  refine store_couples (fun _ _ h => CredentialStore.runOn_save_none h _ token _)
    (fun _ _ h => CredentialStore.runOn_save_none h _ token' _) fun w w' t t' hw ht ht' hview => ?_
  rw [← hw.twin.now]
  exact ⟨_, _, _, _, CredentialStore.runOn_save _ _ _ ht, CredentialStore.runOn_save _ _ _ ht', rfl,
    viewOf_addCredential hview field htoken userId w.now⟩

theorem current_couples (cipher : Secret.Cipher) (field : CredentialField) :
    Task.Couples (Paired cipher o before before')
      (fun a b => a.map (fun c => cipher.decrypt c.encryptedSecret) =
        b.map fun c => cipher.decrypt c.encryptedSecret)
      (Service.current o field) (Service.current o field) := by
  refine store_couples (fun _ _ h => CredentialStore.runOn_current_none h _)
    (fun _ _ h => CredentialStore.runOn_current_none h _) fun w w' t t' hw ht ht' hview => ?_
  exact ⟨_, _, t, t', runOn_self (CredentialStore.runOn_current _ ht) ht,
    runOn_self (CredentialStore.runOn_current _ ht') ht', congrFun (View.ext_iff.mp hview).1 field, hview⟩

theorem latest_couples :
    Task.Couples (Paired cipher o before before')
      (fun a b => a.map Verification.withoutId = b.map Verification.withoutId) (Service.latest o)
      (Service.latest o) := by
  refine store_couples (fun _ _ h => VerificationLog.runOn_latest_none h _)
    (fun _ _ h => VerificationLog.runOn_latest_none h _) fun w w' t t' hw ht ht' hview => ?_
  have hrecords : recordsOf o t.verifications = recordsOf o t'.verifications := (View.ext_iff.mp hview).2
  refine ⟨_, _, t, t', runOn_self (VerificationLog.runOn_latest _ ht) ht,
    runOn_self (VerificationLog.runOn_latest _ ht') ht', ?_, hview⟩
  rw [← List.head?_map, ← List.head?_map, historyOf_withoutId, historyOf_withoutId, hrecords]

theorem putOnRecord_couples (initiatedBy : Option String) (f : Findings) :
    Task.Couples (Paired cipher o before before') (fun a b => a.withoutId = b.withoutId)
      (Service.putOnRecord o initiatedBy f) (Service.putOnRecord o initiatedBy f) := by
  refine store_couples (fun _ _ h => VerificationLog.runOn_append_none h _)
    (fun _ _ h => VerificationLog.runOn_append_none h _) fun w w' t t' hw ht ht' hview => ?_
  rw [← hw.twin.now]
  have hrecord : VerificationKey.of (Service.recordOf o initiatedBy f) = o.verificationKey := rfl
  exact ⟨_, _, _, _, VerificationLog.runOn_append _ ht, VerificationLog.runOn_append _ ht', rfl,
    viewOf_addVerification hview hrecord w.now⟩

theorem decrypt_couples {token token' : String} (h : cipher.decrypt token = cipher.decrypt token') :
    Task.Couples (Paired cipher o before before') Eq (World.decrypt cipher token)
      (World.decrypt cipher token') := by
  intro w w' hw
  rw [World.runOn_decrypt, World.runOn_decrypt, ← hw.twin.now, h]
  exact ⟨Task.alike_eq_iff.mpr rfl, hw⟩

theorem send_couples (client : Provider.Client) (token phone : String) (m : Provider.Message) :
    Task.Couples (Paired cipher o before before') Eq (World.overLine (client.send token phone m))
      (World.overLine (client.send token phone m)) := by
  intro w w' hw
  rw [World.runOn_send, World.runOn_send]
  cases client.request token phone m with
  | error f => exact ⟨.error f, hw⟩
  | ok request =>
    refine ⟨Task.alike_eq_iff.mpr ?_, hw.sent request⟩
    exact congrArg (·.bind client.readAnswer) (hw.answer request)

theorem sendTest_couples (token phone : String) (r : VerifyRequest) (checks : List Check) (evidence : Members) :
    Task.Couples (Paired cipher o before before') Eq (s.sendTest token phone r checks evidence)
      (s.sendTest token phone r checks evidence) := by
  unfold Service.sendTest
  have hsent : Task.Couples (Paired cipher o before before') Eq
      (do World.overLine (s.client.send token phone (← s.testMessage r)))
      (do World.overLine (s.client.send token phone (← s.testMessage r))) := by
    refine Task.Couples.bind (Task.agrees_iff_couples.mp (Task.Agrees.lift _)) ?_
    rintro m _ rfl
    exact send_couples s.client token phone m
  refine Task.Couples.bind hsent.attempt fun outcome outcome' h => ?_
  obtain rfl := Task.alike_eq_iff.mp h
  dsimp only
  split
  · exact Task.Couples.pure rfl
  · exact Task.Couples.throw _
  · split
    · exact Task.Couples.pure rfl
    · exact Task.Couples.pure rfl

theorem verifyLive_couples (r : VerifyRequest) {a a' b b' : Credential}
    (ha : s.cipher.decrypt a.encryptedSecret = s.cipher.decrypt a'.encryptedSecret)
    (hb : s.cipher.decrypt b.encryptedSecret = s.cipher.decrypt b'.encryptedSecret)
    (checks : List Check) (evidence : Members) :
    Task.Couples (Paired s.cipher o before before') Eq (s.verifyLive o r a b checks evidence)
      (s.verifyLive o r a' b' checks evidence) := by
  unfold Service.verifyLive
  have hsecrets : Task.Couples (Paired s.cipher o before before') Eq
      (do let token ← World.decrypt s.cipher a.encryptedSecret
          return (token, ← World.decrypt s.cipher b.encryptedSecret))
      (do let token ← World.decrypt s.cipher a'.encryptedSecret
          return (token, ← World.decrypt s.cipher b'.encryptedSecret)) := by
    refine Task.Couples.bind (decrypt_couples ha) fun token token' htoken => ?_
    refine Task.Couples.bind (decrypt_couples hb) fun phone phone' hphone => ?_
    exact Task.Couples.pure (congr (congrArg Prod.mk htoken) hphone)
  refine Task.Couples.bind hsecrets.attempt fun outcome outcome' h => ?_
  obtain rfl := Task.alike_eq_iff.mp h
  dsimp only
  split
  · exact sendTest_couples s _ _ r checks evidence
  · split
    · split
      · exact Task.Couples.bind (putOnRecord_couples _ _) fun _ _ _ => Task.Couples.throw _
      · exact Task.Couples.throw _
    · exact Task.Couples.throw _

theorem cases_of_map_eq {β γ : Type} {f : β → γ} {a b : Option β} (h : a.map f = b.map f) :
    (a = none ∧ b = none) ∨ ∃ x y, a = some x ∧ b = some y ∧ f x = f y := by
  cases a with
  | none => exact .inl ⟨rfl, Option.map_eq_none_iff.mp h.symm⟩
  | some x =>
    obtain ⟨y, hy, hxy⟩ := Option.map_eq_some_iff.mp h.symm
    exact .inr ⟨x, y, rfl, hy, hxy.symm⟩

theorem findings_couples (r : VerifyRequest) :
    Task.Couples (Paired s.cipher o before before') Eq (s.findings o r) (s.findings o r) := by
  unfold Service.findings
  refine Task.Couples.bind (current_couples s.cipher .accessToken) fun token token' htoken => ?_
  refine Task.Couples.bind (current_couples s.cipher .phoneNumberId) fun phone phone' hphone => ?_
  rcases cases_of_map_eq htoken with ⟨rfl, rfl⟩ | ⟨a, a', rfl, rfl, ha⟩ <;>
    rcases cases_of_map_eq hphone with ⟨rfl, rfl⟩ | ⟨b, b', rfl, rfl, hb⟩
  · exact Task.Couples.pure rfl
  · exact Task.Couples.pure rfl
  · exact Task.Couples.pure rfl
  · cases r.mode with
    | dryRun => exact Task.Couples.pure rfl
    | live =>
      dsimp only
      split
      · exact verifyLive_couples s r ha hb _ _
      · exact Task.Couples.pure rfl

theorem verify_couples (r : VerifyRequest) :
    Task.Couples (Paired s.cipher o before before') (fun a b => a.1 = b.1 ∧ a.2.withoutId = b.2.withoutId)
      (s.verify o r) (s.verify o r) := by
  refine Task.Couples.bind (findings_couples s r) ?_
  rintro f _ rfl
  exact Task.Couples.bind (putOnRecord_couples r.initiatedBy f) fun _ _ h => Task.Couples.pure ⟨rfl, h⟩

theorem evaluate_couples (newest : Option Verification) :
    Task.Couples (Paired cipher o before before') Eq (s.evaluate o newest) (s.evaluate o newest) := by
  unfold Service.evaluate
  refine Task.Couples.bind (current_couples cipher .accessToken) fun token token' htoken => ?_
  refine Task.Couples.bind (current_couples cipher .phoneNumberId) fun phone phone' hphone => ?_
  have htokens : token.isSome = token'.isSome := by simpa using congrArg Option.isSome htoken
  have hphones : phone.isSome = phone'.isSome := by simpa using congrArg Option.isSome hphone
  rw [htokens, hphones]
  intro w w' hw
  rw [Task.runOn_bind_ok (Task.runOn_get w), Task.runOn_bind_ok (Task.runOn_get w'), hw.twin.now]
  exact ⟨Task.alike_eq_iff.mpr rfl, hw⟩

theorem evaluate_withoutId (newest : Option Verification) :
    (s.evaluate o (newest.map Verification.withoutId) : Task (World α) Contract) = s.evaluate o newest := by
  cases newest <;> rfl

theorem summary_withoutId (newest : Option Verification) :
    withoutRowId (((newest.map Verification.withoutId).map Service.summary).getD .null) =
      withoutRowId ((newest.map Service.summary).getD .null) := by
  cases newest <;> rfl

theorem status_couples :
    Task.Couples (Paired s.cipher o before before')
      (fun a b => (Reply.told a).withoutIds = (Reply.told b).withoutIds) (s.status o) (s.status o) := by
  refine Task.Couples.bind latest_couples fun newest newest' h => ?_
  rw [← evaluate_withoutId s newest, ← evaluate_withoutId s newest', h]
  refine Task.Couples.bind (evaluate_couples s _) ?_
  rintro contract _ rfl
  have hlatest : withoutRowId ((newest.map Service.summary).getD .null) =
      withoutRowId ((newest'.map Service.summary).getD .null) := by
    rw [← summary_withoutId newest, ← summary_withoutId newest', h]
  refine Task.Couples.pure (congrArg Reply.told (congrArg Json.obj ?_))
  simp only [List.map_cons, hlatest]

theorem connect_couples (accessToken phoneNumberId : String) (accountId userId : Option String) :
    Task.Couples (Paired s.cipher o before before')
      (fun a b => (Reply.told a).withoutIds = (Reply.told b).withoutIds)
      (s.connect o accessToken phoneNumberId accountId userId)
      (s.connect o accessToken phoneNumberId accountId userId) := by
  unfold Service.connect
  refine Task.Couples.bind (save_couples s .accessToken accessToken userId) fun credential credential' h => ?_
  refine Task.Couples.bind (save_couples s .phoneNumberId phoneNumberId userId) fun _ _ _ => ?_
  have htold (rest : Members) :
      Task.Couples (Paired s.cipher o before before')
        (fun a b => (Reply.told a).withoutIds = (Reply.told b).withoutIds)
        (pure (.obj (("credential", credential.summary) :: rest)))
        (pure (.obj (("credential", credential'.summary) :: rest))) :=
    Task.Couples.pure (congrArg Reply.told (congrArg Json.obj (by simp only [List.map_cons, h])))
  cases accountId with
  | none => exact htold _
  | some id =>
    dsimp only
    split
    · exact Task.Couples.bind (save_couples s .accountId id userId) fun _ _ _ => htold _
    · exact htold _

theorem rotate_couples (accessToken : String) (userId : Option String) :
    Task.Couples (Paired s.cipher o before before')
      (fun a b => (Reply.told a).withoutIds = (Reply.told b).withoutIds) (s.rotate o accessToken userId)
      (s.rotate o accessToken userId) := by
  refine Task.Couples.bind (save_couples s .accessToken accessToken userId) fun credential credential' h => ?_
  refine Task.Couples.pure (congrArg Reply.told (congrArg Json.obj ?_))
  simp only [List.map_cons, h]

theorem perform_couples (c : Call) :
    Task.Couples (Paired s.cipher o before before') (fun a b => a.withoutIds = b.withoutIds) (s.perform o c)
      (s.perform o c) := by
  cases c with
  | connect token phone account user =>
    exact Task.Couples.bind (connect_couples s token phone account user) fun _ _ h => Task.Couples.pure h
  | rotate token user =>
    exact Task.Couples.bind (rotate_couples s token user) fun _ _ h => Task.Couples.pure h
  | verify r =>
    refine Task.Couples.bind (verify_couples s r) ?_
    rintro ⟨ok, record⟩ ⟨_, record'⟩ ⟨rfl, h⟩
    exact Task.Couples.pure (congrArg (Reply.verified ok) h)
  | status => exact Task.Couples.bind (status_couples s) fun _ _ h => Task.Couples.pure h

end Own

/-! ### Histories -/

section History
variable {s : Service} {w w' : World α}

theorem map_eq_of_alike {β γ : Type} {f : β → γ} {a b : Outcome β} (h : Task.Alike (fun a b => f a = f b) a b) :
    a.map f = b.map f := by
  cases h with
  | ok h => exact congrArg Except.ok h
  | error fault => rfl

theorem twin_perform (c : Call) (h : Twin s.cipher o w w') :
    (s.exchange o c w).withoutIds = (s.exchange o c w').withoutIds ∧
      Twin s.cipher o ((s.perform o c).runOn w).2 ((s.perform o c).runOn w').2 := by
  have hpaired : Paired s.cipher o w w' w w' := ⟨h, [], rfl, rfl⟩
  obtain ⟨halike, htwin, made, hmade, hmade'⟩ := perform_couples s c w w' hpaired
  refine ⟨?_, htwin⟩
  rw [Exchange.withoutIds, Exchange.withoutIds, Service.exchange, Service.exchange,
    newRequests_of_append hmade, newRequests_of_append hmade', map_eq_of_alike halike]

theorem exchanges_twin (steps : List Step) (h : Twin s.cipher o w w') :
    (s.exchanges o steps w).map Exchange.withoutIds =
      (s.exchanges o (steps.filter (Step.concerns o)) w').map Exchange.withoutIds := by
  -- The second world is that of the shorter history, which stays behind at a call of another client.
  induction steps generalizing w w' with
  | nil => rfl
  | cons step rest ih =>
    rw [Service.exchanges, List.map_append]
    cases step with
    | call p c =>
      by_cases hp : p = o
      · subst hp
        obtain ⟨hexchange, htwin⟩ := twin_perform c h
        have hkeep : Step.concerns p (.call p c) = true := decide_eq_true rfl
        rw [List.filter_cons_of_pos hkeep, Service.exchanges, List.map_append]
        have hnow : (Step.exchange? s p w (.call p c)).toList.map Exchange.withoutIds =
            (Step.exchange? s p w' (.call p c)).toList.map Exchange.withoutIds := by
          simp only [Step.exchange?, if_true, Option.toList_some, List.map_singleton, hexchange]
        exact congr (congrArg _ hnow) (ih htwin)
      · have hdrop : Step.concerns o (.call p c) ≠ true := fun heq => hp (of_decide_eq_true heq)
        rw [List.filter_cons_of_neg hdrop, Step.exchange?, if_neg hp]
        exact ih (perform_keeps (twin_keptBySaving hp w') (twin_keptByVerifying hp w') s c w h)
    | clock now =>
      exact ih ⟨rfl, h.nonces, h.nonces', h.transport, h.steady, h.view⟩
    | provider answer =>
      exact ih ⟨h.now, h.nonces, h.nonces', rfl, fun _ _ _ => rfl, h.view⟩

/-- What a client is told in the course of a history, ids of rows apart, and the requests that are made for it
are as if the other clients had made no calls. -/
theorem client_isolated (s : Service) (o : Owner) (steps : List Step) (w : World α)
    (hnonces : ∀ i, (w.sources.nonce i).length = 12)
    (hsteady : ∀ m n r, w.line.transport m r = w.line.transport n r) :
    (s.exchanges o steps w).map Exchange.withoutIds =
      (s.exchanges o (steps.filter (Step.concerns o)) w).map Exchange.withoutIds :=
  exchanges_twin steps ⟨rfl, hnonces, hnonces, rfl, hsteady, rfl⟩

end History

def interleaved : List Step :=
  [.call firstClient (.connect "EAAG-1" "15550001" none none),
    .call secondClient (.connect "EAAG-2" "15550002" none none), .call secondClient (.verify liveRequest),
    .clock ⟨1000⟩, .call firstClient (.verify liveRequest), .call secondClient .status,
    .call firstClient .status]

theorem client_isolated_interleaved :
    (∀ i, (firstWorld.sources.nonce i).length = 12) ∧
      (∀ m n r, firstWorld.line.transport m r = firstWorld.line.transport n r) ∧
      (liveService.exchanges firstClient interleaved firstWorld).map Exchange.withoutIds =
        (liveService.exchanges firstClient
          [.call firstClient (.connect "EAAG-1" "15550001" none none), .clock ⟨1000⟩,
            .call firstClient (.verify liveRequest), .call firstClient .status] firstWorld).map
          Exchange.withoutIds :=
  ⟨fun _ => rfl, fun _ _ _ => rfl,
    client_isolated liveService firstClient interleaved firstWorld (fun _ => rfl) fun _ _ _ => rfl⟩

end Integration

end Cadence
