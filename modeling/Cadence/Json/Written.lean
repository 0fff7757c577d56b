import Cadence.Json.Basic

/-!
# Numbers that have no written form

A whole number of very many digits is neither read nor written, so a value with such a number in it has
no text.
-/

namespace Cadence.Json

mutual

def isWritable : Json → Bool
  | int i => (Nat.toDigits 10 i.natAbs).length ≤ maxNumeralDigits
  | arr items => areWritable items
  | obj members => haveWritable members
  | null | bool _ | float _ | str _ => true

def areWritable : List Json → Bool
  | [] => true
  | v :: rest => isWritable v && areWritable rest

def haveWritable : List (String × Json) → Bool
  | [] => true
  | (_, v) :: rest => isWritable v && haveWritable rest

end

theorem haveWritable_set {members : Members} {name : String} {value : Json} (hvalue : value.isWritable = true)
    (h : haveWritable members = true) : haveWritable (members.set name value) = true := by
  induction members with
  | nil => simp [Members.set, haveWritable, hvalue]
  | cons member rest ih =>
    obtain ⟨other, old⟩ := member
    simp only [haveWritable, Bool.and_eq_true] at h
    by_cases hname : other = name
    · simp [Members.set, haveWritable, hname, hvalue, h.2]
    · simp [Members.set, haveWritable, hname, h.1, ih h.2]

theorem haveWritable_setAll {members more : Members} (h : haveWritable members = true)
    (hmore : haveWritable more = true) : haveWritable (members.setAll more) = true := by
  induction more generalizing members with
  | nil => exact h
  | cons member rest ih =>
    obtain ⟨name, value⟩ := member
    simp only [haveWritable, Bool.and_eq_true] at hmore
    exact ih (haveWritable_set hmore.1 h) hmore.2

end Cadence.Json
