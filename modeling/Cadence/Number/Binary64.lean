/-!
# Binary floating-point numbers of 64 bits

A number is its sign, its coefficient and its exponent in the one canonical form of the format, so
that equal numbers (the two zeros apart) are equal values. All operations compute an exact quotient
of integers first and round it once, to the nearest number and to the even coefficient from halfway.
-/

namespace Cadence

/-- The pairs `(c, q)` that stand for the number `c · 2 ^ q`: at most 53 bits, and 53 bits exactly
unless the exponent is the least one. -/
def Binary64.Canonical (coefficient : Nat) (exponent : Int) : Prop :=
  (coefficient < Nat.pow 2 53 ∧ -1074 ≤ exponent ∧ exponent ≤ 971) ∧
    (Nat.pow 2 52 ≤ coefficient ∨ exponent = -1074)

instance (coefficient : Nat) (exponent : Int) :
    Decidable (Binary64.Canonical coefficient exponent) :=
  inferInstanceAs (Decidable (_ ∧ _))

/-- A floating-point number of 64 bits; all that is not a number is one value. -/
inductive Binary64 where
  | nan
  | infinite (negative : Bool)
  | finite (negative : Bool) (coefficient : Nat) (exponent : Int)
      (canonical : Binary64.Canonical coefficient exponent)
deriving DecidableEq

/-- The natural number nearest to `num / den`; from halfway, the even one. -/
def roundHalfEven (num den : Nat) : Nat :=
  let whole := num / den
  let twice := 2 * (num % den)
  if twice < den then whole
  else if den < twice then whole + 1
  else if whole % 2 = 0 then whole else whole + 1

namespace Binary64

def zero (negative : Bool) : Binary64 := .finite negative 0 (-1074) (by decide)

instance : Inhabited Binary64 := ⟨zero false⟩

def ofParts (negative : Bool) (coefficient : Nat) (exponent : Int) : Binary64 :=
  if h : Canonical coefficient exponent then .finite negative coefficient exponent h
  else .infinite negative

/-- The exponent at which the quotient `num / den` has a coefficient of 53 bits, or the least
exponent. -/
def exponentOf (num den : Nat) : Int :=
  let guess : Int := (num.log2 : Int) - den.log2 - 52
  let short :=
    if 0 ≤ guess then num / (den * Nat.pow 2 guess.toNat) < Nat.pow 2 52
    else num * Nat.pow 2 (-guess).toNat / den < Nat.pow 2 52
  max (-1074) (if short then guess - 1 else guess)

/-- The number nearest to the positive quotient `num / den`, with the given sign. -/
def ofQuotient (negative : Bool) (num den : Nat) : Binary64 :=
  if num = 0 then zero negative
  else
    let exponent := exponentOf num den
    let coefficient :=
      if 0 ≤ exponent then roundHalfEven num (den * Nat.pow 2 exponent.toNat)
      else roundHalfEven (num * Nat.pow 2 (-exponent).toNat) den
    if coefficient = Nat.pow 2 53 then ofParts negative (Nat.pow 2 52) (exponent + 1)
    else ofParts negative coefficient exponent

/-- The number nearest to the quotient of an integer and a positive natural number. -/
def ofRatio (num : Int) (den : Nat) : Binary64 := ofQuotient (num < 0) num.natAbs den

/-- The number nearest to an integer: infinite if the integer is beyond the format. -/
def ofInt (i : Int) : Binary64 := ofRatio i 1

def isFinite : Binary64 → Bool
  | .finite .. => true
  | _ => false

def isZero : Binary64 → Bool
  | .finite _ coefficient _ _ => coefficient = 0
  | _ => false

/-- Whether the number carries a minus sign; a zero may. -/
def isNegative : Binary64 → Bool
  | .nan => false
  | .infinite negative => negative
  | .finite negative .. => negative

/-- The exact value of a finite number as a quotient whose denominator is a power of two. -/
def ratio? : Binary64 → Option (Int × Nat)
  | .finite negative coefficient exponent _ =>
    let magnitude : Nat := coefficient * Nat.pow 2 exponent.toNat
    some (if negative then -(magnitude : Int) else magnitude, Nat.pow 2 (-exponent).toNat)
  | _ => none

def isWhole (x : Binary64) : Bool :=
  match x.ratio? with
  | some (num, den) => num % den = 0
  | none => false

/-- The whole part of a finite number, toward zero. -/
def truncate? (x : Binary64) : Option Int :=
  x.ratio?.map fun (num, den) => num.tdiv den

/-- The order of a number and a quotient with positive denominator; nothing is ordered with
"not a number". -/
def compareRatio? (x : Binary64) (num : Int) (den : Nat) : Option Ordering :=
  match x with
  | .nan => none
  | .infinite negative => some (if negative then .lt else .gt)
  | .finite negative coefficient exponent canonical =>
    match (Binary64.finite negative coefficient exponent canonical).ratio? with
    | some (xnum, xden) => some (compare (xnum * den) (num * xden))
    | none => none

/-- The order of two numbers by value: the zeros are equal. -/
def compare? (x y : Binary64) : Option Ordering :=
  match y with
  | .nan => none
  | .infinite negative =>
    match x with
    | .nan => none
    | .infinite other => some (if negative = other then .eq else if other then .lt else .gt)
    | .finite .. => some (if negative then .gt else .lt)
  | .finite negative coefficient exponent canonical =>
    match (Binary64.finite negative coefficient exponent canonical).ratio? with
    | some (num, den) => x.compareRatio? num den
    | none => none

/-- The order of a number and an integer, by exact value. -/
def compareInt? (x : Binary64) (i : Int) : Option Ordering := x.compareRatio? i 1

/-- The exact sum of two finite numbers, rounded; a sum of zeros is negative if both are. -/
def add (x y : Binary64) : Binary64 :=
  match x, y with
  | .nan, _ | _, .nan => .nan
  | .infinite a, .infinite b => if a = b then .infinite a else .nan
  | .infinite a, _ => .infinite a
  | _, .infinite b => .infinite b
  | .finite a c q h, .finite b d r k =>
    match (Binary64.finite a c q h).ratio?, (Binary64.finite b d r k).ratio? with
    | some (xn, xd), some (yn, yd) =>
      let num := xn * yd + yn * xd
      if num = 0 then zero (a && b && c = 0 && d = 0) else ofRatio num (xd * yd)
    | _, _ => .nan

/-- The exact product of two finite numbers, rounded. -/
def mul (x y : Binary64) : Binary64 :=
  match x, y with
  | .nan, _ | _, .nan => .nan
  | .infinite a, y => if y.isZero then .nan else .infinite (a != y.isNegative)
  | x, .infinite b => if x.isZero then .nan else .infinite (b != x.isNegative)
  | .finite a c q _, .finite b d r _ =>
    ofQuotient (a != b) (c * d * Nat.pow 2 (q + r).toNat) (Nat.pow 2 (-(q + r)).toNat)

/-- The quotient of a number and a positive natural number, rounded. -/
def divNat (x : Binary64) (n : Nat) : Binary64 :=
  match x with
  | .finite negative coefficient exponent _ =>
    ofQuotient negative (coefficient * Nat.pow 2 exponent.toNat) (n * Nat.pow 2 (-exponent).toNat)
  | x => x

end Binary64

end Cadence
