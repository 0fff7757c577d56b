import Cadence.Proofs.ClientEffects
import Mathlib.Data.List.TakeWhile

/-!
# Histories of calls

A history is a sequence of calls by any clients, between which the clock is set and the provider begins to
answer in another way. The current credential of a field opens to the secret that the client saved last, at
any time and whatever other clients did since.
-/

namespace Cadence

/-- The provider answers, or the transport to it fails; nothing else happens. -/
def Provider.Line.Answers (line : Line) : Prop :=
  ∀ n r f, line.transport n r = .error f → ∃ name message, f = .transport name message

namespace Integration

open Storage

/-- What a client asks the integration for. -/
inductive Call where
  | connect (accessToken phoneNumberId : String) (accountId userId : Option String)
  | rotate (accessToken : String) (userId : Option String)
  | verify (r : VerifyRequest)
  | status

/-- What happens next: a client makes a call, the clock is set, or the provider changes its answers. -/
inductive Step where
  | call (o : Owner) (c : Call)
  | clock (now : Instant)
  | provider (answer : Provider.Request → Outcome Provider.Answer)

inductive Reply where
  | told (v : Json)
  | verified (ok : Bool) (record : Verification)

variable {α : Type}

def Service.perform (s : Service) (o : Owner) : Call → Task (World α) Reply
  | .connect token phone account user => do return .told (← s.connect o token phone account user)
  | .rotate token user => do return .told (← s.rotate o token user)
  | .verify r => do
    let (ok, record) ← s.verify o r
    return .verified ok record
  | .status => do return .told (← s.status o)

def Step.run (s : Service) (w : World α) : Step → World α
  | .call o c => ((s.perform o c).runOn w).2
  | .clock now => { w with now := now }
  | .provider answer => { w with line := { w.line with transport := fun _ => answer } }

/-- The world after a history. -/
def Service.after (s : Service) (steps : List Step) (w : World α) : World α := steps.foldl (Step.run s) w

theorem Service.after_append (s : Service) (steps rest : List Step) (w : World α) :
    s.after (steps ++ rest) w = s.after rest (s.after steps w) := List.foldl_append

/-- The requests that reached the provider from one world to a later one, in order. -/
def newRequests (before after : World α) : List Provider.Request :=
  (after.line.received.take (after.line.received.length - before.line.received.length)).reverse

theorem newRequests_of_append {before after : World α} {made : List Provider.Request}
    (h : after.line.received = made ++ before.line.received) : newRequests before after = made.reverse := by
  rw [newRequests, h, List.length_append, Nat.add_sub_cancel, List.take_left]

theorem newRequests_of_line_eq {before after : World α} (h : after.line = before.line) :
    newRequests before after = [] := by
  have hnone : after.line.received = [] ++ before.line.received := by rw [h, List.nil_append]
  exact newRequests_of_append hnone

theorem newRequests_of_sent {before after : World α} {request : Provider.Request}
    (h : after.line = (before.sent request).line) : newRequests before after = [request] := by
  have hone : after.line.received = [request] ++ before.line.received := by
    rw [h]
    rfl
  exact newRequests_of_append hone

/-! ### What was saved last -/

/-- An account id that is empty counts as none. -/
def accountSaves : Option String → List (CredentialField × String)
  | some id => if id = "" then [] else [(.accountId, id)]
  | none => []

/-- The secrets that a call saves, in order. -/
def Call.saves : Call → List (CredentialField × String)
  | .connect token phone account _ => [(.accessToken, token), (.phoneNumberId, phone)] ++ accountSaves account
  | .rotate token _ => [(.accessToken, token)]
  | .verify _ | .status => []

def Step.savesOf (o : Owner) : Step → List (CredentialField × String)
  | .call p c => if p = o then c.saves else []
  | .clock _ | .provider _ => []

/-- The secrets that come before an empty one, at which a call ends. -/
def Call.kept (c : Call) : List (CredentialField × String) := c.saves.takeWhile (·.2 ≠ "")

def Step.keptOf (o : Owner) : Step → List (CredentialField × String)
  | .call p c => if p = o then c.kept else []
  | .clock _ | .provider _ => []

def lastOf (field : CredentialField) (saves : List (CredentialField × String)) : Option String :=
  ((saves.filter (·.1 = field)).getLast?).map (·.2)

/-- The secret of a field that a client saved last. -/
def lastSaved (o : Owner) (field : CredentialField) (steps : List Step) : Option String :=
  lastOf field (steps.flatMap (Step.savesOf o))

/-- The last secret of a field that was not refused. -/
def lastKept (o : Owner) (field : CredentialField) (steps : List Step) : Option String :=
  lastOf field (steps.flatMap (Step.keptOf o))

/-- How the current credential of a field opens, if there is one. -/
abbrev Openings := CredentialField → Option (Instant → Outcome String)

def openings (cipher : Secret.Cipher) (o : Owner) (t : Tables) : Openings := fun field =>
  (newestOf (o.credentialKey field) t.credentials).map fun c => cipher.decrypt c.encryptedSecret

def Openings.update (old : Openings) (saves : List (CredentialField × String)) : Openings := fun field =>
  ((lastOf field saves).map fun secret _ => .ok secret).or (old field)

theorem lastOf_append (field : CredentialField) (a b : List (CredentialField × String)) :
    lastOf field (a ++ b) = (lastOf field b).or (lastOf field a) := by
  rw [lastOf, List.filter_append, List.getLast?_append, Option.map_or]
  rfl

theorem Step.keptOf_eq_savesOf {step : Step} {o : Owner} (h : ∀ save ∈ step.savesOf o, save.2 ≠ "") :
    step.keptOf o = step.savesOf o := by
  cases step with
  | call p c =>
    by_cases hp : p = o
    · simp only [savesOf, if_pos hp] at h
      simp only [keptOf, savesOf, if_pos hp, Call.kept]
      refine List.takeWhile_eq_self_iff.mpr fun save hsave => decide_eq_true (h save hsave)
    · simp only [keptOf, savesOf, if_neg hp]
  | clock _ => rfl
  | provider _ => rfl

theorem lastKept_eq_lastSaved {steps : List Step} {o : Owner} (field : CredentialField)
    (h : ∀ step ∈ steps, ∀ save ∈ step.savesOf o, save.2 ≠ "") :
    lastKept o field steps = lastSaved o field steps := by
  have hsame : steps.map (Step.keptOf o) = steps.map (Step.savesOf o) :=
    List.map_congr_left fun step hstep => Step.keptOf_eq_savesOf (h step hstep)
  rw [lastKept, lastSaved, List.flatMap_def, List.flatMap_def, hsame]

theorem exists_save_of_lastSaved {field : CredentialField} {steps : List Step} {secret : String} {o : Owner}
    (h : lastSaved o field steps = some secret) : ∃ step ∈ steps, (field, secret) ∈ step.savesOf o := by
  obtain ⟨save, hlast, rfl⟩ := Option.map_eq_some_iff.mp h
  obtain ⟨hmem, hfield⟩ := List.mem_filter.mp (List.mem_of_getLast? hlast)
  obtain ⟨step, hstep, hsave⟩ := List.mem_flatMap.mp hmem
  obtain rfl := of_decide_eq_true hfield
  exact ⟨step, hstep, hsave⟩

theorem Openings.update_append (old : Openings) (a b : List (CredentialField × String)) :
    old.update (a ++ b) = (old.update a).update b := by
  funext field
  rw [update, lastOf_append, Option.map_or, Option.or_assoc]
  rfl

theorem Openings.update_nil (old : Openings) : old.update [] = old := rfl

theorem Openings.update_self (old : Openings) (field : CredentialField) (secret : String) :
    old.update [(field, secret)] field = some fun _ => .ok secret := by
  simp [update, lastOf]

theorem Openings.update_other (old : Openings) (secret : String) {f field : CredentialField} (h : f ≠ field) :
    old.update [(field, secret)] f = old f := by
  simp [update, lastOf, Ne.symm h]

theorem Owner.credentialKey_inj {o p : Owner} {f g : CredentialField}
    (h : o.credentialKey f = p.credentialKey g) : o = p ∧ f = g := by
  obtain ⟨htenant, hclient, -, htype⟩ := CredentialKey.mk.inj h
  refine ⟨?_, ?_⟩
  · cases o
    cases p
    exact congr (congrArg _ htenant) hclient
  · revert htype
    cases f <;> cases g <;> decide

variable {cipher : Secret.Cipher} {o p : Owner} {t : Tables}

theorem openings_addCredential (field : CredentialField) (token : String) (userId : Option String)
    (now : Instant) :
    openings cipher o (t.addCredential (t.credentialRow (o.credentialKey field) token userId now)) =
      fun f => if f = field then some (cipher.decrypt token) else openings cipher o t f := by
  funext f
  rw [openings, Tables.addCredential, newestOf_append]
  by_cases hf : f = field
  · subst hf
    have hkey : keyOf (t.credentialRow (o.credentialKey f) token userId now) = o.credentialKey f := rfl
    rw [if_pos hkey, if_pos rfl]
    rfl
  · have hkey : ¬keyOf (t.credentialRow (o.credentialKey field) token userId now) = o.credentialKey f :=
      fun heq => hf (Owner.credentialKey_inj heq).2.symm
    rw [if_neg hkey, if_neg hf]
    rfl

theorem openings_addCredential_other (h : p ≠ o) (field : CredentialField) (token : String)
    (userId : Option String) (now : Instant) :
    openings cipher o (t.addCredential (t.credentialRow (p.credentialKey field) token userId now)) =
      openings cipher o t := by
  funext f
  have hkey : ¬keyOf (t.credentialRow (p.credentialKey field) token userId now) = o.credentialKey f :=
    fun heq => h (Owner.credentialKey_inj heq).1
  rw [openings, Tables.addCredential, newestOf_append, if_neg hkey]
  rfl

/-- The credentials of a client open in this way, and the nonces for new ones are as long as they must be. -/
structure Vault (cipher : Secret.Cipher) (o : Owner) (opened : Openings) (w : World α) : Prop where
  nonces : ∀ i, (w.sources.nonce i).length = Secret.Gcm.nonceSize
  tables : ∃ t, w.database.tables = some t ∧ openings cipher o t = opened

theorem vault_keptByVerifying (opened : Openings) (p : Owner) :
    KeptByVerifying p (Vault (α := α) cipher o opened) where
  sent _ _ h := ⟨h.nonces, h.tables⟩
  recorded w t record ht _ h := by
    obtain ⟨t', ht', hopened⟩ := h.tables
    obtain rfl : t' = t := Option.some.inj (ht'.symm.trans ht)
    exact ⟨h.nonces, _, rfl, hopened⟩

theorem vault_keptBySaving (opened : Openings) (h : p ≠ o) :
    KeptBySaving p (Vault (α := α) cipher o opened) where
  drawn _ h := ⟨h.nonces, h.tables⟩
  saved w t field token userId ht hvault := by
    obtain ⟨t', ht', hopened⟩ := hvault.tables
    obtain rfl : t' = t := Option.some.inj (ht'.symm.trans ht)
    exact ⟨hvault.nonces, _, rfl, (openings_addCredential_other h _ _ _ _).trans hopened⟩

section Own
variable {s : Service} {opened : Openings}

/-- Saving a secret that is not empty succeeds, and the current credential opens to it. -/
theorem save_leads {field : CredentialField} {secret : String} (hsecret : secret ≠ "")
    (userId : Option String) :
    Task.Leads (Vault (α := α) s.cipher o opened) (s.save o field secret userId)
      (fun _ => Vault s.cipher o (opened.update [(field, secret)])) (fun _ _ => False) := by
  intro w hw
  obtain ⟨t, ht, hopened⟩ := hw.tables
  rw [Service.runOn_save ht s field hsecret userId]
  refine ⟨hw.nonces, _, rfl, ?_⟩
  rw [openings_addCredential, hopened]
  funext f
  by_cases hf : f = field
  · subst hf
    rw [if_pos rfl, Openings.update_self]
    exact congrArg some (funext fun now => Secret.Cipher.decrypt_tokenOf s.cipher (hw.nonces _) hsecret now)
  · rw [if_neg hf, Openings.update_other _ _ hf]

theorem connect_leads {token phone : String} (htoken : token ≠ "") (hphone : phone ≠ "")
    (account userId : Option String) :
    Task.Leads (Vault (α := α) s.cipher o opened) (s.connect o token phone account userId)
      (fun _ => Vault s.cipher o (opened.update (Call.saves (.connect token phone account userId))))
      (fun _ _ => False) := by
  unfold Service.connect
  refine Task.Leads.bind (save_leads htoken userId) fun credential => ?_
  refine Task.Leads.bind (save_leads hphone userId) fun _ => ?_
  have hfirst : (opened.update [(.accessToken, token)]).update [(.phoneNumberId, phone)] =
      opened.update [(.accessToken, token), (.phoneNumberId, phone)] := (Openings.update_append ..).symm
  rw [hfirst]
  cases account with
  | none => exact Task.Leads.pure fun w hw => hw
  | some id =>
    by_cases hid : id = ""
    · subst hid
      exact Task.Leads.pure fun w hw => hw
    · rw [Call.saves, accountSaves, if_neg hid]
      simp only [ne_eq, hid, not_false_eq_true, if_true]
      refine Task.Leads.bind (save_leads hid userId) fun _ => Task.Leads.pure fun w hw => ?_
      rw [Openings.update_append]
      exact hw

theorem runOn_save_empty (field : CredentialField) (userId : Option String) (w : World α) :
    (s.save o field "" userId).runOn w = (.error (.failure (.emptySecret w.now)), w) :=
  Task.runOn_bind_error (World.runOn_encrypt_empty s.cipher w)

/-- A connection with an empty token keeps nothing, and one with an empty phone number id the token only. -/
theorem connect_refused {token phone : String} (hrefused : token = "" ∨ phone = "")
    (account userId : Option String) {w : World α} (h : Vault s.cipher o opened w) :
    Vault s.cipher o (opened.update (Call.kept (.connect token phone account userId)))
      ((s.connect o token phone account userId).runOn w).2 := by
  by_cases htoken : token = ""
  · subst htoken
    rw [Service.connect, Task.runOn_bind_error (runOn_save_empty _ _ w)]
    exact h
  · obtain rfl : phone = "" := hrefused.resolve_left htoken
    have hkept : Call.kept (.connect token "" account userId) = [(.accessToken, token)] := by
      simp only [Call.kept, Call.saves, List.cons_append, List.takeWhile_cons, ne_eq, htoken,
        not_false_eq_true, not_true, decide_true, decide_false, if_true, Bool.false_eq_true, if_false]
    obtain ⟨credential, w', hrun, hvault⟩ := (save_leads htoken userId).returns h
    rw [hkept, Service.connect, Task.runOn_bind_ok hrun, Task.runOn_bind_error (runOn_save_empty _ _ w')]
    exact hvault

theorem rotate_leads {token : String} (htoken : token ≠ "") (userId : Option String) :
    Task.Leads (Vault (α := α) s.cipher o opened) (s.rotate o token userId)
      (fun _ => Vault s.cipher o (opened.update [(.accessToken, token)])) (fun _ _ => False) :=
  Task.Leads.bind (save_leads htoken userId) fun _ => Task.Leads.pure fun _ hw => hw

end Own

theorem kept_connect {token phone : String} (htoken : token ≠ "") (hphone : phone ≠ "")
    (account user : Option String) :
    Call.kept (.connect token phone account user) = Call.saves (.connect token phone account user) := by
  refine List.takeWhile_eq_self_iff.mpr fun save hsave => decide_eq_true ?_
  rcases List.mem_append.mp hsave with hfirst | haccount
  · rcases List.mem_cons.mp hfirst with rfl | hlast
    · exact htoken
    · rw [List.mem_singleton.mp hlast]
      exact hphone
  · cases account with
    | none => cases haccount
    | some id =>
      by_cases hid : id = ""
      · rw [accountSaves, if_pos hid] at haccount
        cases haccount
      · rw [accountSaves, if_neg hid] at haccount
        rw [List.mem_singleton.mp haccount]
        exact hid

theorem kept_rotate {token : String} (htoken : token ≠ "") (user : Option String) :
    Call.kept (.rotate token user) = [(.accessToken, token)] := by
  refine List.takeWhile_eq_self_iff.mpr fun save hsave => decide_eq_true ?_
  rw [List.mem_singleton.mp hsave]
  exact htoken

/-! ### Calls and histories -/

section History
variable {s : Service} {opened : Openings} {w : World α}

theorem perform_keeps_unverified {I : World α → Prop} (hsaving : KeptBySaving p I) (s : Service) (c : Call)
    (hc : ∀ r, c ≠ .verify r) : Task.Keeps I (s.perform p c) := by
  cases c with
  | connect token phone account user =>
    exact Task.Keeps.bind (Service.connect_keeps hsaving s _ _ _ _) fun _ => Task.Keeps.pure _
  | rotate token user => exact Task.Keeps.bind (Service.rotate_keeps hsaving s _ _) fun _ => Task.Keeps.pure _
  | verify r => exact absurd rfl (hc r)
  | status => exact Task.Keeps.bind (Service.status_keeps s) fun _ => Task.Keeps.pure _

theorem perform_keeps {I : World α → Prop} (hsaving : KeptBySaving p I) (hverifying : KeptByVerifying p I)
    (s : Service) (c : Call) : Task.Keeps I (s.perform p c) := by
  cases c with
  | verify r => exact Task.Keeps.bind (Service.verify_keeps hverifying s r) fun _ => Task.Keeps.pure _
  | _ => exact perform_keeps_unverified hsaving s _ fun _ => Call.noConfusion

theorem runOn_perform_connect (token phone : String) (account user : Option String) :
    ((s.perform o (.connect token phone account user)).runOn w).2 =
      ((s.connect o token phone account user).runOn w).2 := by
  rw [Service.perform, Task.runOn_bind]
  rcases (s.connect o token phone account user).runOn w with ⟨f | v, w'⟩ <;> rfl

/-- Connecting leaves the line to the provider as it is. -/
theorem line_of_connect (token phone : String) (account user : Option String) :
    ((Step.call o (.connect token phone account user)).run s w).line = w.line := by
  have hkept : KeptBySaving o (fun w' : World α => w'.line = w.line) := ⟨fun _ h => h, fun _ _ _ _ _ _ h => h⟩
  rw [Step.run, runOn_perform_connect]
  exact Service.connect_keeps hkept s token phone account user w rfl

theorem runOn_perform_verify (r : VerifyRequest) :
    ((s.perform o (.verify r)).runOn w).2 = ((s.verify o r).runOn w).2 := by
  rw [Service.perform, Task.runOn_bind]
  rcases (s.verify o r).runOn w with ⟨f | v, w'⟩ <;> rfl

theorem perform_vault (c : Call) (h : Vault s.cipher o opened w) :
    Vault s.cipher o (opened.update c.kept) ((s.perform o c).runOn w).2 := by
  cases c with
  | connect token phone account user =>
    rw [runOn_perform_connect]
    by_cases hrefused : token = "" ∨ phone = ""
    · exact connect_refused hrefused account user h
    · obtain ⟨htoken, hphone⟩ := not_or.mp hrefused
      obtain ⟨v, w', hrun, hvault⟩ := (connect_leads htoken hphone account user).returns h
      rw [hrun, kept_connect htoken hphone]
      exact hvault
  | rotate token user =>
    by_cases htoken : token = ""
    · subst htoken
      rw [Service.perform, Service.rotate]
      rw [Task.runOn_bind_error (Task.runOn_bind_error (runOn_save_empty _ _ w))]
      exact h
    · obtain ⟨v, w', hrun, hvault⟩ := (rotate_leads htoken user).returns h
      rw [Service.perform, Task.runOn_bind_ok hrun, kept_rotate htoken]
      exact hvault
  | verify r =>
    rw [runOn_perform_verify]
    exact Service.verify_keeps (vault_keptByVerifying opened o) s r w h
  | status =>
    have hkeeps : Task.Keeps (Vault s.cipher o opened) (s.perform o .status : Task (World α) Reply) :=
      Task.Keeps.bind (Service.status_keeps s) fun _ => Task.Keeps.pure _
    exact hkeeps w h

theorem step_vault (step : Step) (h : Vault s.cipher o opened w) :
    Vault s.cipher o (opened.update (step.keptOf o)) (step.run s w) := by
  cases step with
  | call p c =>
    by_cases hp : p = o
    · subst hp
      rw [Step.keptOf, if_pos rfl]
      exact perform_vault c h
    · rw [Step.keptOf, if_neg hp, Openings.update_nil]
      exact perform_keeps (vault_keptBySaving opened hp) (vault_keptByVerifying opened p) s c w h
  | clock now => exact ⟨h.nonces, h.tables⟩
  | provider answer => exact ⟨h.nonces, h.tables⟩

/-- After a history, the current credentials of a client open to what it saved last. -/
theorem after_vault (steps : List Step) (h : Vault s.cipher o opened w) :
    Vault s.cipher o (opened.update (steps.flatMap (Step.keptOf o))) (s.after steps w) := by
  -- The openings are general in the induction, since every step can change them.
  induction steps generalizing opened w with
  | nil => exact h
  | cons step rest ih =>
    rw [List.flatMap_cons, Openings.update_append]
    exact ih (step_vault step h)

/-- The storage works, no credential is saved yet, and the nonces are as long as they must be. -/
structure Fresh (w : World α) : Prop where
  nonces : ∀ i, (w.sources.nonce i).length = Secret.Gcm.nonceSize
  tables : ∃ t, w.database.tables = some t ∧ t.credentials = []

/-- After a history that begins without credentials, the fields open to what was saved last, and to nothing
where nothing was saved. -/
theorem after_fresh {steps : List Step} (hfresh : Fresh w)
    (hgiven : ∀ step ∈ steps, ∀ save ∈ step.savesOf o, save.2 ≠ "") :
    ∃ t, (s.after steps w).database.tables = some t ∧
      ∀ field, openings s.cipher o t field = (lastSaved o field steps).map fun secret _ => .ok secret := by
  obtain ⟨t, ht, hempty⟩ := hfresh.tables
  have hnone : openings s.cipher o t = fun _ => none := by
    funext field
    rw [openings, hempty]
    rfl
  obtain ⟨-, t', ht', hopened⟩ := after_vault (s := s) steps ⟨hfresh.nonces, t, ht, hnone⟩
  refine ⟨t', ht', fun field => ?_⟩
  rw [hopened, Openings.update, Option.or_none, ← lastKept_eq_lastSaved field hgiven]
  rfl

/-- The provider goes on to answer, or else fails as a transport, if it is never changed to do otherwise. -/
theorem after_answers {steps : List Step} (h : w.line.Answers)
    (hsteps : ∀ answer, .provider answer ∈ steps → ({ transport := fun _ => answer } : Provider.Line).Answers) :
    (s.after steps w).line.Answers := by
  induction steps generalizing w with
  | nil => exact h
  | cons step rest ih =>
    refine ih ?_ fun answer hanswer => hsteps answer (List.mem_cons_of_mem _ hanswer)
    cases step with
    | call p c =>
      exact perform_keeps (I := fun w => w.line.Answers) ⟨fun _ hw => hw, fun _ _ _ _ _ _ hw => hw⟩
        ⟨fun _ _ hw => hw, fun _ _ _ _ _ hw => hw⟩ s c w h
    | clock now => exact h
    | provider answer => exact hsteps answer List.mem_cons_self

end History

/-! ### A service and a world to begin with -/

def liveService : Service where
  cipher := ⟨Secret.Aes.encryptBlock (Secret.Aes.roundKeys (Secret.Sha256.digest (Text.utf8 "key")))⟩
  client := {}
  allowLive := true

/-- The nonces count up, and the provider has an empty object for every request. -/
def firstWorld : World Unit where
  now := ⟨0⟩
  sources := ⟨fun n => List.replicate 11 0 ++ [UInt8.ofNat n], fun _ => "id"⟩
  line := { transport := fun _ _ => .ok ⟨200, "\x7b\x7d"⟩ }
  custom := ()

theorem firstWorld_fresh : Fresh firstWorld := ⟨fun _ => rfl, {}, rfl, rfl⟩

theorem firstWorld_answers : firstWorld.line.Answers := fun _ _ _ h => by cases h

def firstClient : Owner := ⟨"tenant-1", "client-1"⟩
def secondClient : Owner := ⟨"tenant-1", "client-2"⟩

def liveRequest : VerifyRequest where
  recipient := .str "+15550001111"
  mode := .live

end Integration

end Cadence
