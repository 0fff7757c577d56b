import Cadence.Number.Shortest

/-!
# Numbers of either kind

A number is a whole number without bound or a floating-point number. The two kinds are compared by
exact value, never by rounding one to the other.
-/

namespace Cadence

/-- A whole number or a floating-point number. -/
inductive Numeral where
  | whole (i : Int)
  | binary (x : Binary64)
deriving DecidableEq, Inhabited

namespace Numeral

/-- The order of two numbers by exact value; nothing is ordered with "not a number". -/
def compare? : Numeral → Numeral → Option Ordering
  | whole i, whole j => some (compare i j)
  | binary x, whole j => x.compareInt? j
  | whole i, binary y => (y.compareInt? i).map Ordering.swap
  | binary x, binary y => x.compare? y

def sameValue (m n : Numeral) : Bool := m.compare? n = some .eq

def isLess (m n : Numeral) : Bool := m.compare? n = some .lt

/-- The first number, unless the second is less. -/
def least (m n : Numeral) : Numeral := if n.isLess m then n else m

/-- The first number, unless the second is greater. -/
def greatest (m n : Numeral) : Numeral := if m.isLess n then n else m

def isZero : Numeral → Bool
  | whole i => i = 0
  | binary x => x.isZero

def text : Numeral → String
  | whole i => toString i
  | binary x => x.text

/-- The floating-point number nearest to the quotient by a positive natural number. -/
def divNat (m : Numeral) (n : Nat) : Binary64 :=
  match m with
  | whole i => .ofRatio i n
  | binary x => x.divNat n

end Numeral

end Cadence
