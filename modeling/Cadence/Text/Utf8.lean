/-!
# UTF-8

The bytes of a text and back. Bytes that are no UTF-8 are refused with the place and the reason.
-/

namespace Cadence.Text.Utf8

def encodeChar (c : Char) : List UInt8 :=
  let n := c.toNat
  if n < 0x80 then [.ofNat n]
  else if n < 0x800 then [.ofNat (0xC0 + n / 64), .ofNat (0x80 + n % 64)]
  else if n < 0x10000 then
    [.ofNat (0xE0 + n / 4096), .ofNat (0x80 + n / 64 % 64), .ofNat (0x80 + n % 64)]
  else
    [.ofNat (0xF0 + n / 262144), .ofNat (0x80 + n / 4096 % 64), .ofNat (0x80 + n / 64 % 64),
      .ofNat (0x80 + n % 64)]

def encode (s : List Char) : List UInt8 := s.flatMap encodeChar

inductive Reason where
  | invalidStart
  | invalidContinuation
  | endOfData
deriving DecidableEq, Repr

def Reason.message : Reason → String
  | invalidStart => "invalid start byte"
  | invalidContinuation => "invalid continuation byte"
  | endOfData => "unexpected end of data"

/-- Bytes that are no UTF-8: the bytes in question begin after `start` bytes, there are `count` of them,
and `byte` is the first one. -/
structure Malformed where
  byte : UInt8
  start : Nat
  count : Nat
  reason : Reason
deriving DecidableEq, Repr

def isTail (b : UInt8) : Bool := 0x80 ≤ b && b < 0xC0

/-- The number of bytes after a first byte, and the least and the greatest second byte. -/
def lead? (b : UInt8) : Option (Nat × UInt8 × UInt8) :=
  if 0xC2 ≤ b ∧ b ≤ 0xDF then some (1, 0x80, 0xBF)
  else if b = 0xE0 then some (2, 0xA0, 0xBF)
  else if b = 0xED then some (2, 0x80, 0x9F)
  else if 0xE1 ≤ b ∧ b ≤ 0xEF then some (2, 0x80, 0xBF)
  else if b = 0xF0 then some (3, 0x90, 0xBF)
  else if 0xF1 ≤ b ∧ b ≤ 0xF3 then some (3, 0x80, 0xBF)
  else if b = 0xF4 then some (3, 0x80, 0x8F)
  else none

def addTail (n : Nat) (b : UInt8) : Nat := 64 * n + b.toNat % 64

/-- The text of bytes; `start` bytes stand before them. -/
def decodeFrom (start : Nat) : List UInt8 → Except Malformed (List Char)
  | [] => .ok []
  | b :: rest =>
    if b < 0x80 then (decodeFrom (start + 1) rest).map (Char.ofNat b.toNat :: ·)
    else
      match lead? b with
      | none => .error ⟨b, start, 1, .invalidStart⟩
      | some (more, low, high) =>
        match rest with
        | [] => .error ⟨b, start, 1, .endOfData⟩
        | c :: rest =>
          if c < low ∨ high < c then .error ⟨b, start, 1, .invalidContinuation⟩
          else if more = 1 then
            (decodeFrom (start + 2) rest).map (Char.ofNat (addTail (b.toNat % 32) c) :: ·)
          else
            match rest with
            | [] => .error ⟨b, start, 2, .endOfData⟩
            | d :: rest =>
              if !isTail d then .error ⟨b, start, 2, .invalidContinuation⟩
              else if more = 2 then
                (decodeFrom (start + 3) rest).map
                  (Char.ofNat (addTail (addTail (b.toNat % 16) c) d) :: ·)
              else
                match rest with
                | [] => .error ⟨b, start, 3, .endOfData⟩
                | e :: rest =>
                  if !isTail e then .error ⟨b, start, 3, .invalidContinuation⟩
                  else
                    (decodeFrom (start + 4) rest).map
                      (Char.ofNat (addTail (addTail (addTail (b.toNat % 8) c) d) e) :: ·)

def decode (bytes : List UInt8) : Except Malformed (List Char) := decodeFrom 0 bytes

end Cadence.Text.Utf8

namespace Cadence.Text

def utf8 (s : String) : List UInt8 := Utf8.encode s.toList

end Cadence.Text
