import Cadence.Json.Basic
import Cadence.Number.Numeral

/-!
# Equality of JSON values

Numbers are compared by exact value, objects by name, lists by position. A truth value inside a list
or an object counts as the number one or zero.
-/

namespace Cadence.Json

def numeral? : Json → Option Numeral
  | bool b => some (.whole (if b then 1 else 0))
  | int i => some (.whole i)
  | float x => some (.binary x)
  | _ => none

def ofNumeral : Numeral → Json
  | .whole i => int i
  | .binary x => float x

mutual

def sameValue : Json → Json → Bool
  | null, null => true
  | str s, str t => s = t
  | arr xs, arr ys => sameItems xs ys
  | obj xs, obj ys => xs.length = ys.length && sameMembers xs ys
  | v, w =>
    match v.numeral?, w.numeral? with
    | some m, some n => m.sameValue n
    | _, _ => false

/-- Equality of two lists, position by position. -/
def sameItems : List Json → List Json → Bool
  | [], [] => true
  | x :: xs, y :: ys => sameValue x y && sameItems xs ys
  | _, _ => false

/-- Whether every member of the first object has an equal one of the same name in the second. -/
def sameMembers : List (String × Json) → List (String × Json) → Bool
  | [], _ => true
  | (name, x) :: xs, ys =>
    (match Members.get? ys name with
      | some y => sameValue x y
      | none => false) && sameMembers xs ys

end

/-- Equality in which, at the top, a truth value equals truth values alone. Of two absent values one
equals the other. -/
def strictEquals : Option Json → Option Json → Bool
  | some (bool a), some (bool b) => a = b
  | some (bool _), _ | _, some (bool _) => false
  | some v, some w => sameValue v w
  | none, none => true
  | _, _ => false

end Cadence.Json
