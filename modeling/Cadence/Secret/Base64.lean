/-!
# Base64

Three bytes are written as four characters, a last group of one or two bytes is filled up with `=`.
Reading is strict in the alphabet and the length, but takes any number of `=` after whole groups and
does not look at the bits that fill up the last group.
-/

namespace Cadence.Secret.Base64

def digit (n : Nat) : Char :=
  if n < 26 then Char.ofNat (n + 65)
  else if n < 52 then Char.ofNat (n + 71)
  else if n < 62 then Char.ofNat (n - 4)
  else if n = 62 then '+'
  else '/'

def value? (c : Char) : Option Nat :=
  if 'A' ≤ c ∧ c ≤ 'Z' then some (c.toNat - 65)
  else if 'a' ≤ c ∧ c ≤ 'z' then some (c.toNat - 71)
  else if '0' ≤ c ∧ c ≤ '9' then some (c.toNat + 4)
  else if c = '+' then some 62
  else if c = '/' then some 63
  else none

def encode : List UInt8 → List Char
  | [] => []
  | [a] => [digit (a.toNat / 4), digit (a.toNat % 4 * 16), '=', '=']
  | [a, b] =>
    [digit (a.toNat / 4), digit (a.toNat % 4 * 16 + b.toNat / 16), digit (b.toNat % 16 * 4), '=']
  | a :: b :: c :: rest =>
    digit (a.toNat / 4) :: digit (a.toNat % 4 * 16 + b.toNat / 16) ::
      digit (b.toNat % 16 * 4 + c.toNat / 64) :: digit (c.toNat % 64) :: encode rest

/-- The bytes of groups of four characters, the last of which may be filled up. -/
def decodeGroups? : List Char → Option (List UInt8)
  | [] => some []
  | a :: b :: c :: d :: rest =>
    if a = '=' then (if (b :: c :: d :: rest).all (· = '=') then some [] else none)
    else do
      let v ← value? a
      let w ← value? b
      let first := UInt8.ofNat (v * 4 + w / 16)
      if c = '=' then
        if d = '=' ∧ rest = [] then some [first] else none
      else
        let x ← value? c
        let second := UInt8.ofNat (w % 16 * 16 + x / 4)
        if d = '=' then
          if rest = [] then some [first, second] else none
        else
          let y ← value? d
          let more ← decodeGroups? rest
          some (first :: second :: .ofNat (x % 4 * 64 + y) :: more)
  | few => if few.all (· = '=') then some [] else none

def decode? (s : List Char) : Option (List UInt8) :=
  if s.head? = some '=' then none else decodeGroups? s

end Cadence.Secret.Base64
