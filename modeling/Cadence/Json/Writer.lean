import Cadence.Json.Display

/-!
# Writing JSON text

The written form holds ASCII characters only, with a space after each comma and each colon.
-/

namespace Cadence.Json

def writeUnit (n : Nat) : List Char := '\\' :: 'u' :: hexDigits 4 n

def writeChar (c : Char) : List Char :=
  if c = '"' then ['\\', '"']
  else if c = '\\' then ['\\', '\\']
  else if c = '\n' then ['\\', 'n']
  else if c = '\r' then ['\\', 'r']
  else if c = '\t' then ['\\', 't']
  else if c = '\x08' then ['\\', 'b']
  else if c = '\x0c' then ['\\', 'f']
  else
    let n := c.toNat
    if 0x20 ≤ n ∧ n < 0x7f then [c]
    else if n < 0x10000 then writeUnit n
    else writeUnit (0xD800 + (n - 0x10000) / 0x400) ++ writeUnit (0xDC00 + (n - 0x10000) % 0x400)

def writeText (s : String) : String :=
  String.ofList ('"' :: s.toList.flatMap writeChar ++ ['"'])

/-- A floating-point number; the names of infinity and of "not a number" are longer than in their
decimal text. -/
def writeFloat : Binary64 → String
  | .nan => "NaN"
  | .infinite negative => if negative then "-Infinity" else "Infinity"
  | x => x.text

mutual

def write : Json → String
  | null => "null"
  | bool b => if b then "true" else "false"
  | int i => toString i
  | float x => writeFloat x
  | str s => writeText s
  | arr items => "[" ++ writeItems items ++ "]"
  | obj members => "\x7b" ++ writeMembers members ++ "\x7d"

def writeItems : List Json → String
  | [] => ""
  | [v] => write v
  | v :: w :: rest => write v ++ ", " ++ writeItems (w :: rest)

def writeMembers : List (String × Json) → String
  | [] => ""
  | [(name, v)] => writeText name ++ ": " ++ write v
  | (name, v) :: m :: rest => writeText name ++ ": " ++ write v ++ ", " ++ writeMembers (m :: rest)

end

end Cadence.Json
