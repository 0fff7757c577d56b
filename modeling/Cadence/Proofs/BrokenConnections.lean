import Cadence.Proofs.ClientHistory

/-!
# Connections that break off

To connect is to save up to three credentials, each on its own. A save can fail: the secret is empty, there are
no tables, or the row is refused. The first save that fails ends the connection. What was saved before it stays
current, and the field that failed and those after it are as they were.
-/

namespace Cadence

open Storage Integration

namespace Integration

variable {α : Type}

/-- The faults in which the saves of some fields end once the secret is sealed. -/
abbrev SaveFaults := CredentialField → Option Fault

namespace Service

/-- Saves a credential, unless that fails. The nonce is used up in either case. -/
def saveUnless (s : Service) (faults : SaveFaults) (o : Owner) (userId : Option String)
    (field : CredentialField) (secret : String) : Task (World α) Credential := do
  let token ← World.encrypt s.cipher secret
  match faults field with
  | some fault => throw fault
  | none => World.store (CredentialStore.save (o.credentialKey field) token userId)

/-- The answer to a client that is connected. -/
def connected (credential : Credential) (phoneNumberId : String) : Json :=
  .obj [
    ("credential", credential.summary),
    ("sample_response", .obj [
      ("connected", .bool true),
      ("verified", .bool (phoneNumberId ≠ "")),
      ("test_send_passed", .bool false)])]

/-- To connect with any way of saving a credential. -/
def connectBy (save : CredentialField → String → Task (World α) Credential) (accessToken phoneNumberId : String)
    (accountId : Option String) : Task (World α) Json := do
  let credential ← save .accessToken accessToken
  let _ ← save .phoneNumberId phoneNumberId
  match accountId with
  | some id => if id ≠ "" then let _ ← save .accountId id
  | none => pure ()
  return connected credential phoneNumberId

/-- Connects a client, unless a save fails. -/
def connectUnless (s : Service) (faults : SaveFaults) (o : Owner) (accessToken phoneNumberId : String)
    (accountId userId : Option String) : Task (World α) Json :=
  connectBy (s.saveUnless faults o userId) accessToken phoneNumberId accountId

/-- Where no save fails for a reason of its own, this is the connection of the service. -/
theorem connectUnless_none (s : Service) (o : Owner) (accessToken phoneNumberId : String)
    (accountId userId : Option String) :
    (s.connectUnless (fun _ => none) o accessToken phoneNumberId accountId userId : Task (World α) Json) =
      s.connect o accessToken phoneNumberId accountId userId := rfl

/-- The current credential of a field, if the tables are there. -/
def stored (o : Owner) (w : World α) (field : CredentialField) : Option (Option Credential) :=
  w.database.tables.map fun t => newestOf (o.credentialKey field) t.credentials

/-- What is accepted goes into the tables. -/
def accepted (faults : SaveFaults) (w : World α) (save : CredentialField × String) : Bool :=
  save.2 ≠ "" && (faults save.1).isNone && w.database.tables.isSome

/-- The given credentials of the client are the current ones, and everything else that is stored for the client
is as it was. -/
structure Saved (s : Service) (o : Owner) (w w' : World α) (done : List (CredentialField × String)) : Prop where
  now : w'.now = w.now
  sources : w'.sources = w.sources
  tables : w'.database.tables.isSome = w.database.tables.isSome
  current : ∀ save ∈ done, ∃ c, stored o w' save.1 = some (some c) ∧
    ∀ now, s.cipher.decrypt c.encryptedSecret now = .ok save.2
  others : ∀ field, (∀ save ∈ done, save.1 ≠ field) → stored o w' field = stored o w field

variable {s : Service} {o : Owner} {w w' w'' : World α} {faults : SaveFaults} {userId : Option String}

/-- What is saved later goes on top of what was saved before. -/
theorem Saved.cons {save : CredentialField × String} {done : List (CredentialField × String)}
    (hfirst : Saved s o w w' [save]) (hrest : Saved s o w' w'' done) (hnew : ∀ later ∈ done, later.1 ≠ save.1) :
    Saved s o w w'' (save :: done) where
  now := hrest.now.trans hfirst.now
  sources := hrest.sources.trans hfirst.sources
  tables := hrest.tables.trans hfirst.tables
  current one hone := by
    rcases List.mem_cons.mp hone with rfl | hdone
    · obtain ⟨c, hc, hopens⟩ := hfirst.current one List.mem_cons_self
      exact ⟨c, (hrest.others one.1 hnew).trans hc, hopens⟩
    · exact hrest.current one hdone
  others field hfield := by
    have hfirstField : ∀ one ∈ [save], one.1 ≠ field := fun one hone =>
      hfield one (List.mem_cons.mpr (.inl (List.mem_singleton.mp hone)))
    rw [hrest.others field fun one hone => hfield one (List.mem_cons_of_mem _ hone),
      hfirst.others field hfirstField]

end Service
end Integration
end Cadence
