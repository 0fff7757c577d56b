import Cadence.Number.Binary64

/-!
# The shortest decimal of a floating-point number

A positive number `c · 2 ^ q` is the nearest one to every real of an interval around it. The
shortest decimal is the one with the fewest digits in that interval, and of several with that many
digits the one nearest to the number.
-/

namespace Cadence

/-- A decimal number `0.d₁d₂… · 10 ^ point`, as its digits and the place of the decimal point. -/
structure Decimal where
  digits : Nat
  point : Int
deriving DecidableEq, Repr, Inhabited

namespace Binary64

/-- The reals that round to a number, in units of `2 ^ exponent`: from `low` to `high`, the ends
included if `closed`. -/
structure Interval where
  low : Nat
  middle : Nat
  high : Nat
  exponent : Int
  closed : Bool

/-- The interval of the positive number `c · 2 ^ q`. Below a power of two numbers lie half as far
apart. -/
def interval (coefficient : Nat) (exponent : Int) : Interval where
  low :=
    if coefficient = Nat.pow 2 52 ∧ exponent ≠ -1074 then 4 * coefficient - 1 else 4 * coefficient - 2
  middle := 4 * coefficient
  high := 4 * coefficient + 2
  exponent := exponent - 2
  closed := coefficient % 2 = 0

/-- The numerator and denominator of `n · 2 ^ exponent / 10 ^ power`. -/
def scaled (n : Nat) (exponent power : Int) : Nat × Nat :=
  (n * Nat.pow 2 exponent.toNat * Nat.pow 10 (-power).toNat,
    Nat.pow 2 (-exponent).toNat * Nat.pow 10 power.toNat)

namespace Interval

/-- Whether `n · 10 ^ power` lies in the interval. -/
def contains (i : Interval) (power : Int) (n : Nat) : Bool :=
  let (low, lowDen) := scaled i.low i.exponent power
  let (high, highDen) := scaled i.high i.exponent power
  if i.closed then low ≤ n * lowDen && n * highDen ≤ high
  else low < n * lowDen && n * highDen < high

/-- Of the two neighbours of the middle on the grid of `10 ^ power`, the nearer one that lies in the
interval. -/
def neighbour? (i : Interval) (power : Int) : Option Nat :=
  let (num, den) := scaled i.middle i.exponent power
  let below := num / den
  let twice := 2 * (num % den)
  match i.contains power below, i.contains power (below + 1) with
  | true, true => some (if twice < den ∨ (twice = den ∧ below % 2 = 0) then below else below + 1)
  | true, false => some below
  | false, true => some (below + 1)
  | false, false => none

/-- The place of the decimal point of the middle: the least `k` with `middle < 10 ^ k`. -/
def point (i : Interval) : Int :=
  let bits : Int := i.middle.log2 + i.exponent
  let guess := bits * 30103 / 100000
  let below (k : Int) : Bool := let (num, den) := scaled i.middle i.exponent k; num < den
  if below guess then guess
  else if below (guess + 1) then guess + 1
  else guess + 2

/-- The first grid with a hit, from one digit up to seventeen. -/
def shortest (i : Interval) : Decimal :=
  let k := i.point
  match (List.range 17).findSome? fun n => (i.neighbour? (k - (n + 1 : Nat))).map (·, n + 1) with
  | some (digits, n) => if digits = Nat.pow 10 n then ⟨1, k + 1⟩ else ⟨digits, k⟩
  | none => ⟨0, 0⟩

end Interval

/-- How the decimal notation of floating-point numbers is laid out. -/
structure Layout where
  /-- Positional notation is used while the decimal point lies after the one place and not after the
  other. -/
  leastPoint : Int
  greatestPoint : Int
  /-- The least number of digits of an exponent. -/
  exponentDigits : Nat

/-- Positional notation from `0.0001` up to sixteen whole digits, exponents of two digits. -/
def layout : Layout := ⟨-4, 16, 2⟩

def Layout.place (l : Layout) (d : Decimal) : List Char :=
  let digits := (Nat.toDigits 10 d.digits)
  if l.leastPoint < d.point ∧ d.point ≤ l.greatestPoint then
    if d.point ≤ 0 then
      '0' :: '.' :: List.replicate (-d.point).toNat '0' ++ digits
    else
      let k := d.point.toNat
      let whole := digits.take k ++ List.replicate (k - digits.length) '0'
      let fraction := digits.drop k
      whole ++ '.' :: (if fraction.isEmpty then ['0'] else fraction)
  else
    let power := d.point - 1
    let exponent := Nat.toDigits 10 power.natAbs
    let fraction := digits.drop 1
    digits.take 1 ++ (if fraction.isEmpty then [] else '.' :: fraction) ++
      'e' :: (if power < 0 then '-' else '+') ::
        (List.replicate (l.exponentDigits - exponent.length) '0' ++ exponent)

/-- The decimal text of a number, the shortest one that reads back as it. -/
def text : Binary64 → String
  | .nan => "nan"
  | .infinite negative => if negative then "-inf" else "inf"
  | .finite negative coefficient exponent _ =>
    let digits :=
      if coefficient = 0 then ['0', '.', '0']
      else layout.place (interval coefficient exponent).shortest
    String.ofList (if negative then '-' :: digits else digits)

end Binary64

end Cadence
