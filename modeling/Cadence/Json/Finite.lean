import Cadence.Json.Basic

/-!
# Numbers that JSON cannot express

JSON has no form for an infinite number or for the outcome of an undefined operation. A value with such
a number can be refused, or the number can give way to null.
-/

namespace Cadence.Json

mutual

def isFinite : Json → Bool
  | float x => x.isFinite
  | arr items => areFinite items
  | obj members => haveFinite members
  | null | bool _ | int _ | str _ => true

def areFinite : List Json → Bool
  | [] => true
  | v :: rest => isFinite v && areFinite rest

def haveFinite : List (String × Json) → Bool
  | [] => true
  | (_, v) :: rest => isFinite v && haveFinite rest

end

mutual

def finitePart : Json → Json
  | float x => if x.isFinite then float x else null
  | arr items => arr (finiteItems items)
  | obj members => obj (finiteMembers members)
  | v => v

def finiteItems : List Json → List Json
  | [] => []
  | v :: rest => finitePart v :: finiteItems rest

def finiteMembers : List (String × Json) → List (String × Json)
  | [] => []
  | (name, v) :: rest => (name, finitePart v) :: finiteMembers rest

end

mutual

theorem isFinite_finitePart : (v : Json) → isFinite (finitePart v) = true
  | float x => by
    by_cases h : x.isFinite <;> simp [finitePart, isFinite, h]
  | arr items => by simp [finitePart, isFinite, areFinite_finiteItems items]
  | obj members => by simp [finitePart, isFinite, haveFinite_finiteMembers members]
  | null | bool _ | int _ | str _ => by simp [finitePart, isFinite]

theorem areFinite_finiteItems : (items : List Json) → areFinite (finiteItems items) = true
  | [] => rfl
  | v :: rest => by
    simp [finiteItems, areFinite, isFinite_finitePart v, areFinite_finiteItems rest]

theorem haveFinite_finiteMembers :
    (members : List (String × Json)) → haveFinite (finiteMembers members) = true
  | [] => rfl
  | (_, v) :: rest => by
    simp [finiteMembers, haveFinite, isFinite_finitePart v, haveFinite_finiteMembers rest]

end

end Cadence.Json
