import Cadence.Storage.Tables

/-!
# The store of credentials

Every save appends a row, and the newest row of a key is the current one.
-/

namespace Cadence.Storage

open Integration

structure CredentialKey where
  tenantId : String
  clientId : String
  provider : String
  credentialType : String
deriving DecidableEq, Repr

def keyOf (c : Credential) : CredentialKey := ⟨c.tenantId, c.clientId, c.provider, c.credentialType⟩

def newestOf (key : CredentialKey) (rows : List Credential) : Option Credential :=
  rows.reverse.find? fun c => keyOf c = key

namespace CredentialStore

/-- The current credential of a key, if one was saved. -/
def current (key : CredentialKey) (now : Instant) : Task Database (Option Credential) := do
  let t ← tablesOr (refused "Failed to load credential" "get" "credentials" now)
  return newestOf key t.credentials

def saveRefused (now : Instant) : Fault := refused "Failed to save credential" "save" "credentials" now

/-- Appends the row of a sealed secret, and gives the number of the rows before it. -/
def insert (key : CredentialKey) (encryptedSecret : String) (userId : Option String) (now : Instant) :
    Task Database Nat := do
  let t ← tablesOr (saveRefused now)
  let row : Credential := {
    id := t.credentials.length + 1
    tenantId := key.tenantId
    clientId := key.clientId
    provider := key.provider
    credentialType := key.credentialType
    encryptedSecret := encryptedSecret
    userId := userId
    createdAt := now.toNaive }
  putTables { t with credentials := t.credentials ++ [row] }
  return t.credentials.length

/-- Reads a row back that was appended. -/
def reload (position : Nat) (now : Instant) : Task Database Credential := do
  match (← tablesOr (saveRefused now)).credentials[position]? with
  | some row => return row
  | none => throw (saveRefused now)

/-- Saves a sealed secret; it becomes the current one of its key. The row stays if it cannot be read back. -/
def save (key : CredentialKey) (encryptedSecret : String) (userId : Option String) (now : Instant) :
    Task Database Credential := do
  reload (← insert key encryptedSecret userId now) now

end CredentialStore

end Cadence.Storage
