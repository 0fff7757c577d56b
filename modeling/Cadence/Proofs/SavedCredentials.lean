import Cadence.Proofs.AppendedRows
import Cadence.Storage.Unchecked

/-!
# Credentials after a history of saves

After a history of saves the current credential of a key is the one that the last save under this key committed, with
its id and its time. Saves under other keys, saves that commit nothing and changes of the clock make no difference to
it. A save that cannot read its row back is told as refused, and its credential is the current one all the same. The
ids increase from save to save, since they count the rows.
-/

namespace Cadence.Storage

open Integration

/-! ### Saves -/

/-- A save of a sealed secret, with values that were not checked. -/
structure SaveCall where
  tenantId : Json
  clientId : Json
  provider : Json
  credentialType : Json
  encryptedSecret : Json
  userId : Json

/-- What is saved: a secret under a key, and who saved it. -/
structure Saving where
  key : CredentialKey
  encryptedSecret : String
  userId : Option String
deriving DecidableEq

namespace SaveCall

/-- A save of texts. -/
def ofTexts (key : CredentialKey) (encryptedSecret : String) (userId : Option String) : SaveCall :=
  ⟨.str key.tenantId, .str key.clientId, .str key.provider, .str key.credentialType, .str encryptedSecret,
    Json.ofText? userId⟩

/-- The store of credentials, with values that were not checked. -/
def store : Store SaveCall Credential where
  commit c now :=
    Unchecked.insertCredential c.tenantId c.clientId c.provider c.credentialType c.encryptedSecret c.userId now
  reload := CredentialStore.reload

theorem perform_eq (c : SaveCall) (now : Instant) :
    store.perform c now = Unchecked.saveCredential c.tenantId c.clientId c.provider c.credentialType
      c.encryptedSecret c.userId now := rfl

/-- The texts that the values become in their columns, if all of them fit. -/
def saving? (c : SaveCall) : Option Saving :=
  match Unchecked.texts [c.tenantId, c.clientId, c.provider, c.credentialType, c.encryptedSecret],
      Unchecked.optionalText c.userId with
  | .ok [tenantId, clientId, provider, credentialType, secret], .ok userId =>
    some ⟨⟨tenantId, clientId, provider, credentialType⟩, secret, userId⟩
  | _, _ => none

/-- The key that the values become, if all of them fit. -/
def key? (c : SaveCall) : Option CredentialKey := c.saving?.map (·.key)

theorem saving?_ofTexts (key : CredentialKey) (secret : String) (userId : Option String) :
    (ofTexts key secret userId).saving? = some ⟨key, secret, userId⟩ := by
  cases userId <;> rfl

theorem perform_ofTexts (key : CredentialKey) (secret : String) (userId : Option String) (now : Instant) :
    store.perform (ofTexts key secret userId) now = CredentialStore.save key secret userId now := by
  cases userId <;> rfl

end SaveCall

def savingOf (c : Credential) : Saving := ⟨keyOf c, c.encryptedSecret, c.userId⟩

/-- The row of a number that a save commits. -/
structure Files (number : Nat) (m : Made SaveCall Credential) : Prop where
  saving : m.call.saving? = some (savingOf m.row)
  id : m.row.id = number + 1
  created : m.row.createdAt = m.time.toNaive

theorem Unchecked.refuse_fails {β : Type} (fault : Fault) (reason : Unchecked.Unfit) (db : Database) :
    ∃ f, (Unchecked.refuse fault reason : Task Database β).runOn db = (.error f, db) := by
  unfold Unchecked.refuse
  split
  · rcases ht : db.tables with _ | t
    · refine ⟨fault, Task.runOn_bind_error ?_⟩
      rw [runOn_tablesOr, ht]
    · exact ⟨.integerTooWide, Task.runOn_bind_ok (runOn_tablesOr_some ht)⟩
  · exact ⟨fault, rfl⟩

/-- Values that fit are saved as their texts, and others are refused. -/
theorem SaveCall.commit_cases (c : SaveCall) (now : Instant) :
    (∃ s, c.saving? = some s ∧
      store.commit c now = CredentialStore.insert s.key s.encryptedSecret s.userId now) ∨
      ∀ db, ∃ f, (store.commit c now).runOn db = (.error f, db) := by
  unfold store Unchecked.insertCredential saving?
  dsimp only
  generalize Unchecked.unhashable? [c.tenantId, c.clientId, c.provider, c.credentialType] = unhashable
  generalize Unchecked.texts [c.tenantId, c.clientId, c.provider, c.credentialType, c.encryptedSecret] = values
  generalize Unchecked.optionalText c.userId = user
  cases unhashable with
  | some fault => exact .inr fun db => ⟨fault, rfl⟩
  | none =>
    by_cases hfits : ∃ a b c d s userId, values = .ok [a, b, c, d, s] ∧ user = .ok userId
    · obtain ⟨a, b, c, d, s, userId, rfl, rfl⟩ := hfits
      exact .inl ⟨_, rfl, rfl⟩
    · refine .inr fun db => ?_
      dsimp only
      split
      · exact absurd ⟨_, _, _, _, _, _, rfl, rfl⟩ hfits
      · exact Unchecked.refuse_fails _ _ db
      · exact Unchecked.refuse_fails _ _ db
      · exact Unchecked.refuse_fails _ _ db
      · exact ⟨_, rfl⟩

theorem SaveCall.appends : Appends store (·.credentials) CredentialStore.saveRefused Files where
  committed c now db t ht := by
    rcases c.commit_cases now with ⟨saving, hsaving, hcommit⟩ | hfails
    · let row := t.credentialRow saving.key saving.encryptedSecret saving.userId now
      refine .inr ⟨row, t.addCredential row, ?_, rfl, fun _ => ⟨hsaving, rfl, rfl⟩⟩
      rw [hcommit, CredentialStore.runOn_insert _ _ _ ht]
    · exact .inl (hfails db)
  reloaded _ _ _ _ _ ht hrow := CredentialStore.runOn_reload ht hrow
  dropped c now db ht := by
    rcases c.commit_cases now with ⟨saving, -, hcommit⟩ | hfails
    · exact ⟨_, by rw [hcommit, CredentialStore.runOn_insert_none ht]⟩
    · obtain ⟨f, hf⟩ := hfails db
      exact ⟨f, by rw [hf]⟩
  unread _ _ _ ht := CredentialStore.runOn_reload_none ht

/-! ### The current credential -/

theorem newestOf_eq (key : CredentialKey) (rows : List Credential) :
    newestOf key rows = (rows.filter fun c => keyOf c = key).getLast? := by
  rw [newestOf, ← List.head?_filter, List.filter_reverse, List.head?_reverse]

/-- The last of the saves under a key. -/
def lastUnder (key : CredentialKey) (saves : List (Made SaveCall Credential)) : Option (Made SaveCall Credential) :=
  (saves.filter fun m => m.call.key? = some key).getLast?

section Current
variable {s : Clocked} {t : Tables} (key : CredentialKey)

theorem newestOf_made {saves : List (Made SaveCall Credential)}
    (hfiles : ∀ m ∈ saves, ∃ n, Files n m) :
    newestOf key (saves.map (·.row)) = (lastUnder key saves).map (·.row) := by
  have hkeys : saves.filter (fun m => m.call.key? = some key) =
      saves.filter ((fun c => decide (keyOf c = key)) ∘ (·.row)) := by
    refine List.filter_congr fun m hm => ?_
    obtain ⟨n, hn⟩ := hfiles m hm
    simp [SaveCall.key?, hn.saving, savingOf]
  rw [newestOf_eq, lastUnder, hkeys, List.filter_map, List.getLast?_map]

theorem Clocked.current_after (steps : List (StoreStep SaveCall)) (ht : s.database.tables = some t)
    (later : Instant) :
    let after := s.after SaveCall.store steps
    (CredentialStore.current key later).runOn after.database =
      (.ok (((lastUnder key (s.made SaveCall.store steps)).map (·.row)).or (newestOf key t.credentials)),
        after.database) := by
  obtain ⟨t', ht', hrows, -⟩ := SaveCall.appends.after steps ht
  have hnewest := newestOf_made key fun m hm => ((SaveCall.appends.made steps ht).1 m hm).1
  have hrows : t'.credentials = t.credentials ++ (s.made SaveCall.store steps).map (·.row) := hrows
  intro after
  rw [CredentialStore.runOn_current key ht', hrows, ← hnewest, newestOf_eq, newestOf_eq, newestOf_eq,
    List.filter_append, List.getLast?_append]

/-- A step that saves nothing under a key leaves its current credential as it is. -/
theorem Clocked.current_step (step : StoreStep SaveCall) (ht : s.database.tables = some t) (later : Instant)
    (hstep : ∀ m, step.made? SaveCall.store s = some m → m.call.key? ≠ some key) :
    ((CredentialStore.current key later).runOn (step.run SaveCall.store s).database).1 =
      ((CredentialStore.current key later).runOn s.database).1 := by
  have hnone : lastUnder key (s.made SaveCall.store [step]) = none := by
    rw [lastUnder, List.getLast?_eq_none_iff, List.filter_eq_nil_iff]
    intro m hm
    have hmade : step.made? SaveCall.store s = some m := by simpa [Clocked.made] using hm
    simpa using hstep m hmade
  have hafter := s.current_after key [step] ht later
  rw [hnone, Option.map_none, Option.none_or] at hafter
  exact (congrArg Prod.fst hafter).trans (congrArg Prod.fst (CredentialStore.runOn_current key ht)).symm

end Current

/-- After any history of saves that began without credentials, the current credential of a key is what the last save
under the key committed: its secret and its user, with its id and its time. The ids of these saves increase. Each of
them returned its row, or was refused since it could not read the row back. A step that commits nothing under the key
leaves its current credential as it is, and what a call returns it has committed. -/
theorem CredentialStore.current_after_saves (now : Instant) (t : Tables) (sequences : List (String × Nat))
    (steps : List (StoreStep SaveCall)) (key : CredentialKey) :
    let start : Clocked := ⟨now, { tables := some { t with credentials := [] }, sequences := sequences }⟩
    let saves := start.made SaveCall.store steps
    let after := start.after SaveCall.store steps
    (∀ later, (current key later).runOn after.database =
      (.ok ((lastUnder key saves).map (·.row)), after.database)) ∧
    (∀ m ∈ saves, m.call.saving? = some (savingOf m.row) ∧ m.row.createdAt = m.time.toNaive ∧
      (m.ending = .ok m.row ∨ m.ending = .error (saveRefused m.time))) ∧
    (saves.Pairwise fun a b => a.row.id < b.row.id) ∧
    (∀ (step : StoreStep SaveCall) (later : Instant),
      (∀ m, step.made? SaveCall.store after = some m → m.call.key? ≠ some key) →
      ((current key later).runOn (step.run SaveCall.store after).database).1 =
        ((current key later).runOn after.database).1) ∧
    ∀ step : StoreStep SaveCall,
      (∀ m, step.made? SaveCall.store after = some m → step.ending? SaveCall.store after = some m.ending) ∧
        ∀ row, step.ending? SaveCall.store after = some (.ok row) →
          ∃ m, step.made? SaveCall.store after = some m ∧ m.row = row := by
  intro start saves after
  have ht : start.database.tables = some { t with credentials := [] } := rfl
  obtain ⟨hfiles, hordered⟩ := SaveCall.appends.made steps ht
  obtain ⟨t', ht', -⟩ := SaveCall.appends.after steps ht
  refine ⟨fun later => ?_, fun m hm => ?_, hordered.imp ?_, fun step later hstep => ?_, fun step => ?_⟩
  · have hcurrent := start.current_after key steps ht later
    rwa [show newestOf key [] = none from rfl, Option.or_none] at hcurrent
  · obtain ⟨⟨n, hn⟩, hending⟩ := hfiles m hm
    exact ⟨hn.saving, hn.created, hending⟩
  · rintro a b ⟨i, j, hij, ha, hb⟩
    rw [ha.id, hb.id]
    omega
  · exact after.current_step key step ht' later hstep
  · exact SaveCall.appends.ending step ht'

def tokenKey : CredentialKey := ⟨"tenant-1", "client-1", "whatsapp", "access_token"⟩

def phoneKey : CredentialKey := ⟨"tenant-1", "client-1", "whatsapp", "phone_number_id"⟩

/-- Two saves of a token with the clock set back in between, of which the second cannot be read back, a save under
another key, and two that commit nothing. -/
def mixedSaves : List (StoreStep SaveCall) := [
  .call (.ofTexts tokenKey "first" (some "user-1")) .throughout, .clock ⟨0⟩,
  .call (.ofTexts tokenKey "second" (some "user-2")) .untilCommitted,
  .call (.ofTexts phoneKey "phone" none) .throughout, .call (.ofTexts tokenKey "lost" none) .never,
  .call { SaveCall.ofTexts tokenKey "" none with encryptedSecret := .null } .throughout]

/-- The second token stays current, and a further save that commits nothing does not change that. -/
theorem CredentialStore.current_after_saves_mixed :
    let after := Clocked.after SaveCall.store ⟨⟨1000⟩, {}⟩ mixedSaves
    let step : StoreStep SaveCall := .call (.ofTexts tokenKey "third" none) .never
    (step.made? SaveCall.store after).isNone ∧
      ((current tokenKey ⟨0⟩).runOn (step.run SaveCall.store after).database).1 =
        .ok (some ⟨2, "tenant-1", "client-1", "whatsapp", "access_token", "second", some "user-2", ⟨0, none⟩⟩) := by
  intro after step
  have hnone : step.made? SaveCall.store after = none := rfl
  obtain ⟨hcurrent, -, -, hkept, -⟩ := current_after_saves ⟨1000⟩ {} [] mixedSaves tokenKey
  have hcommitsNone : ∀ m, step.made? SaveCall.store after = some m → m.call.key? ≠ some tokenKey :=
    fun m hm => absurd (hnone.symm.trans hm) (Option.some_ne_none m).symm
  refine ⟨Option.isNone_iff_eq_none.mpr hnone, ?_⟩
  rw [hkept step ⟨0⟩ hcommitsNone, hcurrent ⟨0⟩]
  rfl

/-- A save that is refused changes the current credential if the database was lost after the row was committed. And a
tenant that is a number is saved as the tenant of its digits. -/
theorem CredentialStore.current_changed :
    let start : Clocked := ⟨⟨0⟩, {}⟩
    let refusedSave : StoreStep SaveCall := .call (.ofTexts tokenKey "new" none) .untilCommitted
    let numberedKey : CredentialKey := { tokenKey with tenantId := "1" }
    let numbered : SaveCall := { SaveCall.ofTexts numberedKey "other" none with tenantId := .int 1 }
    let saved (step : StoreStep SaveCall) (key : CredentialKey) : Outcome (Option String) :=
      ((current key ⟨0⟩).runOn (step.run SaveCall.store start).database).1.map (·.map (·.encryptedSecret))
    refusedSave.ending? SaveCall.store start = some (.error (saveRefused ⟨0⟩)) ∧
      ((current tokenKey ⟨0⟩).runOn start.database).1 = .ok none ∧ saved refusedSave tokenKey = .ok (some "new") ∧
      saved (.call numbered .throughout) numberedKey = .ok (some "other") :=
  ⟨rfl, rfl, rfl, rfl⟩

end Cadence.Storage
