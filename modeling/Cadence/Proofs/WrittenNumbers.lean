import Cadence.Json.Shown
import Cadence.Workflow.Delay
import Mathlib.Algebra.Group.Nat.Defs
import Mathlib.Data.List.Induction
import Mathlib.Order.Basic

/-!
# Numbers that can be written

A whole number has a written form up to a bound on its digits. One that comes from a floating-point number is far
from the bound. So the milliseconds that a delay asks for, and those that it takes, can always be written.
-/

namespace Cadence

/-! ### Rows of digits -/

namespace Text

theorem decimalValue_concat (s : List Char) (c : Char) :
    decimalValue (s ++ [c]) = 10 * decimalValue s + (c.toNat - '0'.toNat) := by
  rw [decimalValue, List.foldl_append, List.foldl_cons, List.foldl_nil]
  rfl

theorem decimalValue_lt {s : List Char} (h : ∀ c ∈ s, isAsciiDigit c = true) : decimalValue s < 10 ^ s.length := by
  induction s using List.reverseRecOn with
  | nil => exact Nat.one_pos
  | append_singleton s c ih =>
    have hs := ih fun d hd => h d (List.mem_append_left _ hd)
    have hc : c.toNat - '0'.toNat ≤ 9 := by
      have hdigit := h c (List.mem_append_right _ (List.mem_singleton.mpr rfl))
      simp only [isAsciiDigit, Bool.and_eq_true, decide_eq_true_eq] at hdigit
      have hnine : c.toNat ≤ '9'.toNat := hdigit.2
      exact Nat.sub_le_sub_right hnine _
    rw [decimalValue_concat, List.length_append, List.length_singleton, Nat.pow_succ]
    omega

end Text

/-! ### Whole numbers -/

namespace Json

theorem isWritable_int_iff {i : Int} : (int i).isWritable = true ↔ i.natAbs < 10 ^ maxNumeralDigits := by
  have hlength := Nat.length_toDigits_le_iff (show 1 < 10 by decide) (show 0 < maxNumeralDigits by decide)
    (n := i.natAbs)
  rw [← hlength]
  exact decide_eq_true_iff

/-- The least natural number that has no written form. -/
def leastUnwritten : Json := .nat (10 ^ maxNumeralDigits)

theorem leastUnwritten_unwritten : leastUnwritten.isWritable = false := by
  rw [← Bool.not_eq_true]
  exact fun h => absurd (isWritable_int_iff.mp h) (Nat.lt_irrefl _)

theorem shownGiven_leastUnwritten : leastUnwritten.shownGiven = .error .integerTooLong :=
  shownGiven_of_unwritten leastUnwritten_unwritten

end Json

namespace Binary64

theorem natAbs_truncate? {x : Binary64} {i : Int} (h : x.truncate? = some i) :
    i.natAbs < 10 ^ Json.maxNumeralDigits := by
  cases x with
  | nan => cases h
  | infinite negative => cases h
  | finite negative coefficient exponent canonical =>
    have hcoefficient : coefficient < 2 ^ 53 := canonical.1.1
    have hexponent : exponent ≤ 971 := canonical.1.2.2
    have hdigits : 53 + exponent.toNat ≤ Json.maxNumeralDigits := by
      unfold Json.maxNumeralDigits
      omega
    have hmagnitude : coefficient * 2 ^ exponent.toNat < 10 ^ Json.maxNumeralDigits :=
      calc coefficient * 2 ^ exponent.toNat < 2 ^ 53 * 2 ^ exponent.toNat :=
            Nat.mul_lt_mul_of_pos_right hcoefficient (Nat.two_pow_pos _)
        _ = 2 ^ (53 + exponent.toNat) := (Nat.pow_add ..).symm
        _ ≤ 10 ^ (53 + exponent.toNat) := Nat.pow_le_pow_left (by decide) _
        _ ≤ 10 ^ Json.maxNumeralDigits := Nat.pow_le_pow_right (by decide) hdigits
    cases h
    rw [Int.natAbs_tdiv]
    refine Nat.lt_of_le_of_lt (Nat.div_le_self ..) ?_
    cases negative
    · exact hmagnitude
    · rw [if_pos rfl, Int.natAbs_neg]
      exact hmagnitude

end Binary64

namespace Workflow

theorem isWritable_normalNumber (x : Binary64) : (Json.ofNumeral (normalNumber x)).isWritable = true := by
  unfold normalNumber
  cases htruncate : x.truncate? with
  | none => rfl
  | some i =>
    dsimp only
    by_cases hwhole : x.isWhole
    · rw [if_pos hwhole]
      exact Json.isWritable_int_iff.mpr (Binary64.natAbs_truncate? htruncate)
    · rw [if_neg hwhole]
      rfl

theorem isWritable_delayMs {v : Json} {requested : Numeral} (h : delayMs v = .ok requested) :
    (Json.ofNumeral requested).isWritable = true := by
  cases v with
  | bool b =>
    cases h
    cases b <;> rfl
  | int i =>
    simp only [delayMs] at h
    split at h
    · cases h
      exact isWritable_normalNumber _
    · cases h
  | float x =>
    cases h
    exact isWritable_normalNumber x
  | str s =>
    simp only [delayMs, Except.ok.injEq] at h
    rw [← h]
    cases Binary64.ofText? s with
    | none => rfl
    | some x => exact isWritable_normalNumber x
  | null | arr _ | obj _ =>
    cases h
    rfl

theorem isWritable_appliedMs {requested : Numeral} (h : (Json.ofNumeral requested).isWritable = true) :
    (Json.ofNumeral (appliedMs requested)).isWritable = true := by
  have hleast : (Json.ofNumeral (requested.least (.whole maxDelayMs))).isWritable = true := by
    unfold Numeral.least
    split
    · rfl
    · exact h
  unfold appliedMs Numeral.greatest
  split
  · exact hleast
  · rfl

end Workflow

end Cadence
