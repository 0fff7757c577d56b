import Cadence.Json.Basic
import Cadence.Text.Blank
import Cadence.Text.LowerCase

/-!
# Masking secrets in text

Two kinds of places in a text hold secrets: what follows the word "bearer", and the values of the
fields `access_token` and `encrypted_secret`. The secret is replaced by a mask, and all else is left
as it is. Letters are compared without regard to case, by the simple case folding of Unicode, in which
the long s is an s and the Kelvin sign a k.
-/

namespace Cadence.Log

def mask : String := "***"

/-- Whether a character is the given small letter, in any case. -/
def isLetter (small c : Char) : Bool :=
  c = small || (('a' ≤ small && small ≤ 'z') && c.toNat + 32 = small.toNat) ||
    (small = 'k' && c = '\u212a') || (small = 's' && c = '\u017f') ||
    (small = 'i' && (c = '\u0130' || c = '\u0131'))

def afterWord? : List Char → List Char → Option (List Char)
  | [], s => some s
  | w :: word, c :: s => if isLetter w c then afterWord? word s else none
  | _ :: _, [] => none

def isBearerChar (c : Char) : Bool :=
  ('a' ≤ c && c ≤ 'z') || ('A' ≤ c && c ≤ 'Z') || ('0' ≤ c && c ≤ '9') || c = '.' || c = '_' ||
    c = '-' || c = '\u0130' || c = '\u0131' || c = '\u017f' || c = '\u212a'

def isValueChar (c : Char) : Bool :=
  !Text.isBlank c && c ≠ ',' && c ≠ '"' && c ≠ '\'' && c ≠ '}'

def dropQuote : List Char → List Char
  | c :: rest => if c = '"' ∨ c = '\'' then rest else c :: rest
  | [] => []

/-- A place that holds a secret: after `kept` characters there are `masked` characters of secret. -/
structure Span where
  kept : Nat
  masked : Nat
deriving DecidableEq, Repr

/-- The word "bearer", white space and a secret at the head of a text. -/
def bearerSpan? (s : List Char) : Option Span := do
  let rest ← afterWord? ['b', 'e', 'a', 'r', 'e', 'r'] s
  let secret := rest.dropWhile Text.isBlank
  let masked := (secret.takeWhile isBearerChar).length
  if secret.length = rest.length ∨ masked = 0 then none
  else some ⟨s.length - secret.length, masked⟩

/-- A field of the given name and its value at the head of a text: the name with an optional quote
after it, a colon or an equals sign, an optional quote, and the value. -/
def fieldSpan? (name s : List Char) : Option Span := do
  let rest ← afterWord? name s
  match (dropQuote rest).dropWhile Text.isBlank with
  | [] => none
  | c :: rest =>
    if c = ':' ∨ c = '=' then
      let value := dropQuote (rest.dropWhile Text.isBlank)
      let masked := (value.takeWhile isValueChar).length
      if masked = 0 then none else some ⟨s.length - value.length, masked⟩
    else none

def secretFieldNames : List (List Char) :=
  ["access_token".toList, "encrypted_secret".toList]

def secretFieldSpan? (s : List Char) : Option Span := secretFieldNames.findSome? (fieldSpan? · s)

/-- The text with the mask in the places found, from left to right and without overlaps. -/
def maskWith (find : List Char → Option Span) : List Char → List Char
  | [] => []
  | c :: rest =>
    match find (c :: rest) with
    | some span =>
      (c :: rest).take span.kept ++ mask.toList ++
        maskWith find (rest.drop (span.kept + span.masked - 1))
    | none => c :: maskWith find rest
termination_by s => s.length
decreasing_by all_goals (simp; try omega)

def redactChars (s : List Char) : List Char :=
  maskWith secretFieldSpan? (maskWith bearerSpan? s)

def redact (s : String) : String := String.ofList (redactChars s.toList)

def sensitiveHeaders : List String := ["authorization", "cookie", "x-api-key"]

def redactHeaders (headers : Members) : Members :=
  headers.map fun (name, value) =>
    (name, if sensitiveHeaders.contains (Text.lower name) then .str mask else value)

end Cadence.Log
