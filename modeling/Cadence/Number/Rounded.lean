import Cadence.Number.Binary64

/-!
# Decimals of so many digits

A positive quotient is written with a number of digits that is given, the first of them not zero, and the
power of ten of that first digit. The digits can be laid out around the point or before an exponent.
-/

namespace Cadence

/-- The natural number nearest to `num / den`; from halfway, the greater one. -/
def roundHalfUp (num den : Nat) : Nat := (2 * num + den) / (2 * den)

namespace Rounded

/-- The power of ten of the first digit of a positive quotient, which is at least the given one; the
first argument bounds the search. -/
def leadingPower (num den : Nat) : Nat → Int → Int
  | 0, k => k
  | fuel + 1, k =>
    if Nat.pow 10 (k + 1).toNat * den ≤ num * Nat.pow 10 (-(k + 1)).toNat then
      leadingPower num den fuel (k + 1)
    else k

/-- So many digits of a quotient of the size of floating-point numbers, rounded by the given rule, and
the power of ten of the first one. -/
def digits (round : Nat → Nat → Nat) (count num den : Nat) : List Char × Int :=
  if num = 0 then (List.replicate count '0', 0)
  else
    let k := leadingPower num den 700 (-330)
    let shift : Int := k - (count - 1 : Nat)
    let n := round (num * Nat.pow 10 (-shift).toNat) (den * Nat.pow 10 shift.toNat)
    if n = Nat.pow 10 count then (Nat.toDigits 10 (Nat.pow 10 (count - 1)), k + 1)
    else (Nat.toDigits 10 n, k)

def aroundPoint (digits : List Char) (power : Int) : List Char × List Char :=
  if power < 0 then (['0'], List.replicate (-power - 1).toNat '0' ++ digits)
  else (digits.take (power + 1).toNat, digits.drop (power + 1).toNat)

def exponent (power : Int) : List Char :=
  let digits := Nat.toDigits 10 power.natAbs
  'e' :: (if power < 0 then '-' else '+') :: List.replicate (2 - digits.length) '0' ++ digits

def withoutZeros (digits : List Char) : List Char := (digits.reverse.dropWhile (· = '0')).reverse

end Rounded

end Cadence
