import Cadence.Number.Binary64
import Cadence.Text.Blank
import Cadence.Text.Digit

/-!
# Numbers in decimal notation

The floating-point number nearest to a decimal, and the notation in which such numbers are written
by hand: blanks around it, single underscores between digits, digits of any script, and the names of
infinity and of "not a number" in any case.
-/

namespace Cadence.Binary64

/-- The number nearest to `digits · 10 ^ power`. Exponents far beyond the format are not expanded. -/
def ofDecimal (negative : Bool) (digits : Nat) (power : Int) : Binary64 :=
  if digits = 0 then zero negative
  else
    let point : Int := power + (digits.log2 : Int) / 3
    if point > 700 then .infinite negative
    else if power + (digits.log2 : Int) < -700 then zero negative
    else if 0 ≤ power then ofQuotient negative (digits * Nat.pow 10 power.toNat) 1
    else ofQuotient negative digits (Nat.pow 10 (-power).toNat)

/-- The characters of a numeral without the underscores between its digits; an underscore anywhere
else is refused. The first argument says whether a digit stands before. -/
def dropUnderscores : Bool → List Char → Option (List Char)
  | _, [] => some []
  | afterDigit, '_' :: c :: rest =>
    if afterDigit && Text.isAsciiDigit c then (dropUnderscores true rest).map (c :: ·) else none
  | _, ['_'] => none
  | _, c :: rest => (dropUnderscores (Text.isAsciiDigit c) rest).map (c :: ·)

def splitDigits (s : List Char) : List Char × List Char :=
  (s.takeWhile Text.isAsciiDigit, s.dropWhile Text.isAsciiDigit)

/-- An exponent part `e±digits`, or nothing. -/
def readExponent? : List Char → Option Int
  | [] => some 0
  | e :: rest =>
    if e = 'e' ∨ e = 'E' then
      let (negative, digits) :=
        match rest with
        | '-' :: r => (true, r)
        | '+' :: r => (false, r)
        | r => (false, r)
      if digits.isEmpty || !digits.all Text.isAsciiDigit then none
      else
        let n : Int := Text.decimalValue digits
        some (if negative then -n else n)
    else none

def readUnsigned? (negative : Bool) (s : List Char) : Option Binary64 :=
  let (whole, rest) := splitDigits s
  let (fraction, rest) :=
    match rest with
    | '.' :: r => splitDigits r
    | r => ([], r)
  if whole.isEmpty && fraction.isEmpty then none
  else
    (readExponent? rest).map fun power =>
      ofDecimal negative (Text.decimalValue (whole ++ fraction)) (power - fraction.length)

/-- The names of infinity and of "not a number", in small letters. -/
def readName? (negative : Bool) (s : List Char) : Option Binary64 :=
  let name := s.map Char.toLower
  if name = ['i', 'n', 'f'] ∨ name = ['i', 'n', 'f', 'i', 'n', 'i', 't', 'y'] then
    some (.infinite negative)
  else if name = ['n', 'a', 'n'] then some .nan
  else none

/-- A numeral with an optional sign, in plain ASCII and without underscores. -/
def readSigned? (s : List Char) : Option Binary64 :=
  let (negative, s) :=
    match s with
    | '-' :: r => (true, r)
    | '+' :: r => (false, r)
    | r => (false, r)
  (readName? negative s).orElse fun _ => readUnsigned? negative s

def toAsciiDigit (c : Char) : Char :=
  match Text.digitValue? c with
  | some d => Char.ofNat ('0'.toNat + d)
  | none => c

/-- The number that a text denotes, if it is a numeral. -/
def ofText? (s : String) : Option Binary64 :=
  (dropUnderscores false (Text.stripChars (s.toList.map toAsciiDigit))).bind readSigned?

/-- The whole number that a text denotes, if it is a numeral without a fraction and an exponent. -/
def integerOfText? (s : String) : Option Int := do
  let plain ← dropUnderscores false (Text.stripChars (s.toList.map toAsciiDigit))
  let (negative, digits) :=
    match plain with
    | '-' :: r => (true, r)
    | '+' :: r => (false, r)
    | r => (false, r)
  if digits.isEmpty || !digits.all Text.isAsciiDigit then none
  else
    let n : Int := Text.decimalValue digits
    some (if negative then -n else n)

end Cadence.Binary64
