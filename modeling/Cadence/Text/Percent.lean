import Cadence.Text.Digit
import Cadence.Text.Utf8

/-!
# Percent escapes

In the path of an address a byte can be written as a percent sign and two hexadecimal digits. The bytes
that a path stands for are read as UTF-8; each stretch of bytes that is none becomes one replacement
character.
-/

namespace Cadence.Text.Percent

/-- The bytes that a text with percent escapes stands for. A percent sign without two digits after it
stands for itself. -/
def bytes : List Char → List UInt8
  | '%' :: a :: b :: rest =>
    match hexValue? a, hexValue? b with
    | some high, some low => .ofNat (16 * high + low) :: bytes rest
    | _, _ => 0x25 :: bytes (a :: b :: rest)
  | c :: rest => Utf8.encodeChar c ++ bytes rest
  | [] => []

/-- The text of bytes, with replacement characters where they are no UTF-8. Each round but the last
takes off at least one byte, so the number of bytes bounds the rounds. -/
def tolerantText : Nat → List UInt8 → List Char
  | 0, _ => []
  | fuel + 1, bytes =>
    match Utf8.decode bytes with
    | .ok s => s
    | .error m =>
      let before :=
        match Utf8.decode (bytes.take m.start) with
        | .ok s => s
        | .error _ => []
      before ++ '\ufffd' :: tolerantText fuel (bytes.drop (m.start + m.count))

def decode (s : String) : String :=
  let bytes := bytes s.toList
  String.ofList (tolerantText (bytes.length + 1) bytes)

end Cadence.Text.Percent
