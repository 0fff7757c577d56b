import Cadence.Number.Binary64

/-!
# JSON values

Payloads, node settings and provider answers are JSON values. Whole numbers and floating-point
numbers are kept apart, whole numbers have no bound, and an object keeps its members in the order in
which their names first appeared.
-/

namespace Cadence

inductive Json where
  | null
  | bool (b : Bool)
  | int (i : Int)
  | float (x : Binary64)
  | str (s : String)
  | arr (items : List Json)
  | obj (members : List (String × Json))
deriving Inhabited

/-- Values by name, in order, such as the members of an object. -/
abbrev Members (β : Type := Json) := List (String × β)

namespace Members

variable {β : Type}

def get? : Members β → String → Option β
  | [], _ => none
  | (other, value) :: rest, name => if other = name then some value else get? rest name

/-- The members with one more value: it takes the place of the value of that name, or comes last. -/
def set (members : Members β) (name : String) (value : β) : Members β :=
  match members with
  | [] => [(name, value)]
  | (other, old) :: rest =>
    if other = name then (name, value) :: rest else (other, old) :: set rest name value

/-- The members with all those of `more`, in order. -/
def setAll (members more : Members β) : Members β :=
  more.foldl (fun acc (name, value) => acc.set name value) members

/-- The value of a name among members of which the later ones count. -/
def last? : Members β → String → Option β
  | [], _ => none
  | (other, value) :: rest, name => (last? rest name).or (if other = name then some value else none)

def erase (members : Members β) (name : String) : Members β :=
  members.filter fun (other, _) => other ≠ name

theorem get?_set_self (members : Members β) (name : String) (value : β) :
    (members.set name value).get? name = some value := by
  induction members with
  | nil => simp [set, get?]
  | cons m rest ih =>
    obtain ⟨other, old⟩ := m
    by_cases h : other = name <;> simp [set, get?, h, ih]

theorem get?_set_ne (members : Members β) {name other : String} (value : β) (h : other ≠ name) :
    (members.set name value).get? other = members.get? other := by
  induction members with
  | nil => simp [set, get?, h.symm]
  | cons m rest ih =>
    obtain ⟨key, old⟩ := m
    by_cases hk : key = name
    · subst hk
      simp [set, get?, h.symm]
    · by_cases ho : key = other <;> simp_all [set, get?]

theorem get?_setAll (members more : Members β) (name : String) :
    (members.setAll more).get? name = (more.last? name).or (members.get? name) := by
  induction more generalizing members with
  | nil => rfl
  | cons member rest ih =>
    obtain ⟨key, value⟩ := member
    show ((members.set key value).setAll rest).get? name = _
    rw [ih, last?, Option.or_assoc]
    congr 1
    split
    · rename_i hkey
      subst hkey
      rw [get?_set_self, Option.some_or]
    · rename_i hkey
      rw [get?_set_ne members value fun heq => hkey heq.symm, Option.none_or]

theorem last?_eq_none_iff {members : Members β} {name : String} :
    members.last? name = none ↔ members.get? name = none := by
  induction members with
  | nil => exact Iff.rfl
  | cons member rest ih =>
    obtain ⟨key, value⟩ := member
    rw [last?, get?, Option.or_eq_none_iff, ih]
    split <;> simp

end Members

namespace Json

/-- The most digits with which a whole number is read or written. -/
def maxNumeralDigits : Nat := 4300

def member? (v : Json) (name : String) : Option Json :=
  match v with
  | obj members => Members.get? members name
  | _ => none

/-- Whether a value counts as given: null, `false`, the zeros and all that is empty do not. -/
def isGiven : Json → Bool
  | null => false
  | bool b => b
  | int i => i ≠ 0
  | float x => !x.isZero
  | str s => s ≠ ""
  | arr items => !items.isEmpty
  | obj members => !members.isEmpty

/-- A text, or null for none. -/
def ofText? : Option String → Json
  | some s => str s
  | none => null

def nat (n : Nat) : Json := int n

end Json

end Cadence
