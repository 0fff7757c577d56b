import Cadence.Storage.Tables

/-!
# The log of verifications

Records are only appended. They are read newest first: by the time of their creation, and among records
of one time by the order in which they were appended.
-/

namespace Cadence.Storage

open Integration

structure VerificationKey where
  tenantId : String
  clientId : String
  provider : String
  checkType : String
deriving DecidableEq, Repr

def VerificationKey.of (r : Verification) : VerificationKey :=
  ⟨r.tenantId, r.clientId, r.provider, r.checkType⟩

def createdWall (r : Verification) : Int := (r.createdAt.map (·.wall)).getD 0

/-- The records of a key among rows, newest first. -/
def historyOf (key : VerificationKey) (rows : List Verification) : List Verification :=
  (rows.reverse.filter fun r => VerificationKey.of r = key).mergeSort
    fun a b => createdWall b ≤ createdWall a

namespace VerificationLog

def appendRefused (now : Instant) : Fault :=
  refused "Failed to append verification" "append" "integration_verifications" now

/-- Appends the row of a record, with its id and the time of its creation, whatever the record said about
them, and gives the number of the rows before it. -/
def insert (record : Verification) (now : Instant) : Task Database Nat := do
  let t ← tablesOr (appendRefused now)
  let row := { record with id := some (t.verifications.length + 1 : Nat), createdAt := some now.toNaive }
  putTables { t with verifications := t.verifications ++ [row] }
  return t.verifications.length

/-- Reads a row back that was appended. -/
def reload (position : Nat) (now : Instant) : Task Database Verification := do
  match (← tablesOr (appendRefused now)).verifications[position]? with
  | some row => return row
  | none => throw (appendRefused now)

/-- Appends a record and returns its row. The row stays if it cannot be read back. -/
def append (record : Verification) (now : Instant) : Task Database Verification := do
  reload (← insert record now) now

/-- The newest record of a key, if there is one. -/
def latest (key : VerificationKey) (now : Instant) : Task Database (Option Verification) := do
  let t ← tablesOr (refused "Failed to load verification" "get_latest" "integration_verifications" now)
  return (historyOf key t.verifications).head?

/-- The newest records of a key, at most as many as the limit says; a negative limit is none. -/
def history (key : VerificationKey) (limit : Int) (now : Instant) :
    Task Database (List Verification) := do
  let t ← tablesOr (refused "Failed to list verifications" "list_history" "integration_verifications" now)
  let all := historyOf key t.verifications
  return if limit < 0 then all else all.take limit.toNat

end VerificationLog

end Cadence.Storage
