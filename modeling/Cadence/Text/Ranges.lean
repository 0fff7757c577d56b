/-!
# Character ranges

A class of characters is given by the sorted list of its closed intervals of code points.
-/

namespace Cadence.Text

/-- A number that is a code point and no surrogate is the one of its character. -/
theorem toNat_ofNat {n : Nat} (h : n < 0xD800 ∨ 0xDFFF < n ∧ n < 0x110000) : (Char.ofNat n).toNat = n := by
  have hvalid : n.isValidChar := h
  rw [Char.ofNat, dif_pos hvalid]
  rfl

/-- Membership in a sorted list of closed intervals; the search ends at the first interval that
lies above the number. -/
def inRanges : List (Nat × Nat) → Nat → Bool
  | [], _ => false
  | (first, last) :: rest, n =>
    if n < first then false else if n ≤ last then true else inRanges rest n

/-- The code point that a sorted list of runs `(first, last, step, shift)` maps a number to: every
`step`-th one from `first` to `last` goes `shift` further on, and all others stay. -/
def shiftIn : List (Nat × Nat × Nat × Int) → Nat → Nat
  | [], n => n
  | (first, last, step, shift) :: rest, n =>
    if n < first then n
    else if n ≤ last ∧ (n - first) % step = 0 then (n + shift).toNat
    else shiftIn rest n

end Cadence.Text
