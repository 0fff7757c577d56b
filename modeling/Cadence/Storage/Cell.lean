import Cadence.Fault
import Cadence.Number.Rounded

/-!
# Values in columns of text

A column of text takes scalars, and keeps them as texts. Whole numbers have to be ones of the machine, and
other numbers keep fifteen digits.
-/

namespace Cadence.Storage

/-- What a value becomes in a column of text. -/
inductive Cell where
  | text (s : String)
  | empty
  /-- A whole number that is too large for a column. -/
  | tooWide
  | unsupported
deriving DecidableEq, Repr

def fitsColumn (i : Int) : Bool := -Int.pow 2 63 ≤ i && i < Int.pow 2 63

/-- The text of a finite number: fifteen digits without zeros at the end, of which one stands after the
point in any case. From fifteen whole digits on there is an exponent. -/
def finiteText (num den : Nat) : List Char :=
  let (digits, power) := Rounded.digits roundHalfUp 15 num den
  let positional := -4 ≤ power ∧ power < 15
  let (whole, fraction) :=
    if positional then Rounded.aroundPoint digits power else (digits.take 1, digits.drop 1)
  let fraction := Rounded.withoutZeros fraction
  whole ++ '.' :: (if fraction.isEmpty then ['0'] else fraction) ++
    (if positional then [] else Rounded.exponent power)

/-- The text of a floating-point number. Zero has no sign, and "not a number" is no value. -/
def Cell.ofFloat (x : Binary64) : Cell :=
  let sign := if x.isNegative && !x.isZero then "-" else ""
  match x.ratio? with
  | some (num, den) => text (sign ++ String.ofList (finiteText num.natAbs den))
  | none => if x = .nan then empty else text (sign ++ "Inf")

def Cell.ofJson : Json → Cell
  | .null => empty
  | .str s => text s
  | .bool b => text (if b then "1" else "0")
  | .int i => if fitsColumn i then text (toString i) else tooWide
  | .float x => ofFloat x
  | .arr _ | .obj _ => unsupported

end Cadence.Storage
