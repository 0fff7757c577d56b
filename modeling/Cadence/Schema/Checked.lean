import Cadence.Fault

/-!
# Checking data against a schema

Data is read field by field, and the issues of all fields are collected in the order of the fields.
-/

namespace Cadence

/-- What checking yields: a value, or all the issues found. -/
inductive Checked (α : Type) where
  | valid (value : α)
  | faulty (issues : List Issue)
deriving Repr

namespace Checked

variable {α β : Type}

/-- The same issues, or the image of the value. -/
def map (f : α → β) : Checked α → Checked β
  | valid a => valid (f a)
  | faulty issues => faulty issues

/-- Applies a function to a value where both are valid; otherwise the issues of both, in order. -/
def apply (f : Checked (α → β)) (a : Checked α) : Checked β :=
  match f, a with
  | valid f, valid a => valid (f a)
  | valid _, faulty issues => faulty issues
  | faulty issues, valid _ => faulty issues
  | faulty first, faulty second => faulty (first ++ second)

instance : Functor Checked := ⟨fun f a => a.map f, fun b a => a.map fun _ => b⟩

instance : Applicative Checked where
  pure := valid
  seq f a := f.apply (a ())

def andThen (a : Checked α) (next : α → Checked β) : Checked β :=
  match a with
  | valid a => next a
  | faulty issues => faulty issues

def inside (place : Place) : Checked α → Checked α
  | valid a => valid a
  | faulty issues => faulty (issues.map fun i => { i with place := place :: i.place })

def complain (c : Complaint) : Checked α := faulty [⟨[], c⟩]

/-- The value, or the fault of data that does not fit the named schema. -/
def toOutcome (schema : String) : Checked α → Outcome α
  | valid a => .ok a
  | faulty issues => .error (.invalid schema issues)

/-- The values of all items, from the position `index` on. -/
def each (read : Json → Checked α) (index : Nat) : List Json → Checked (List α)
  | [] => valid []
  | v :: rest =>
    ((read v).inside (.item index)).map List.cons |>.apply (each read (index + 1) rest)

end Checked

namespace Schema

variable {α : Type}

/-- The members of an object; anything else is not of the named schema. -/
def record (schema : String) : Json → Checked Members
  | .obj members => .valid members
  | _ => .complain (.schemaValue schema)

def required (data : Members) (name : String) (read : Json → Checked α) : Checked α :=
  match data.get? name with
  | some v => (read v).inside (.field name)
  | none => (Checked.complain .missing).inside (.field name)

def optional (data : Members) (name : String) (fallback : α) (read : Json → Checked α) :
    Checked α :=
  match data.get? name with
  | some v => (read v).inside (.field name)
  | none => .valid fallback

def nullable (read : Json → Checked α) : Json → Checked (Option α)
  | .null => .valid none
  | v => (read v).map some

def listOf (read : Json → Checked α) : Json → Checked (List α)
  | .arr items => Checked.each read 0 items
  | _ => .complain .list

def text : Json → Checked String
  | .str s => .valid s
  | _ => .complain .string

def textOfLength (least : Nat) (v : Json) : Checked String :=
  (text v).andThen fun s => if s.length < least then .complain (.stringTooShort least) else .valid s

def dictionary : Json → Checked Members
  | .obj members => .valid members
  | _ => .complain .dictionary

def choice (all : List α) (label : α → String) (v : Json) : Checked α :=
  let found :=
    match v with
    | .str s => all.find? fun c => label c = s
    | _ => none
  match found with
  | some c => .valid c
  | none => .complain (.choice (all.map label))

end Schema

end Cadence
