import Cadence.Calendar.Civil
import Cadence.Calendar.Stamp
import Cadence.Number.Numeral

/-!
# Durations

A duration is a sum of numbers of units, in microseconds. Fractions of a unit count as far as
floating-point numbers tell them, and what is left below a microsecond is rounded once, in the end.
-/

namespace Cadence.Calendar

/-- A number of microseconds with a rest that has not been rounded yet. -/
structure PartialDuration where
  micros : Int := 0
  rest : Binary64 := .zero false

/-- The whole part of a number and the exact rest; nothing of what is not finite. -/
def splitWhole (x : Binary64) : Int × Binary64 :=
  match x.ratio? with
  | none => (0, .zero false)
  | some (num, den) =>
    let whole := num.tdiv den
    (whole, .ofRatio (num - whole * den) den)

/-- A duration with so many more units of `unit` microseconds. -/
def PartialDuration.add (d : PartialDuration) (count : Numeral) (unit : Nat) : PartialDuration :=
  match count with
  | .whole i => { d with micros := d.micros + i * unit }
  | .binary x =>
    let (whole, fraction) := splitWhole x
    let (more, rest) := splitWhole (fraction.mul (.ofInt unit))
    ⟨d.micros + whole * unit + more, d.rest.add rest⟩

/-- The nearest whole number of microseconds, the even one of two. -/
def PartialDuration.round (d : PartialDuration) : Int :=
  match d.rest.ratio? with
  | none => d.micros
  | some (num, den) =>
    let doubled := 2 * (d.micros * den + num)
    let floor := (doubled + den) / (2 * den)
    if (doubled + den) % (2 * den) = 0 ∧ floor % 2 ≠ 0 then floor - 1 else floor

def durationMicros (parts : List (Numeral × Nat)) : Int :=
  (parts.foldl (fun (d : PartialDuration) (part : Numeral × Nat) => d.add part.1 part.2) {}).round

theorem exists_ratio_of_zero {exponent : Int} (h : Binary64.Canonical 0 exponent) :
    ∃ den : Nat, 0 < den ∧ (Binary64.finite false 0 exponent h).ratio? = some (0, den) := by
  refine ⟨Nat.pow 2 (-exponent).toNat, Nat.pow_pos (by decide), ?_⟩
  simp only [Binary64.ratio?, Nat.zero_mul, Bool.false_eq_true, if_false]
  rfl

theorem PartialDuration.round_whole (micros : Int) : ({ micros := micros } : PartialDuration).round = micros := by
  have hcanonical : Binary64.Canonical 0 (-1074) := by decide
  obtain ⟨den, hden, hrest⟩ := exists_ratio_of_zero hcanonical
  have hsum : 2 * (micros * den + 0) + den = den + 2 * den * micros := by
    rw [Int.mul_assoc, Int.mul_comm den micros]
    omega
  have hfloor : (den + 2 * den * micros) / (2 * den : Int) = micros := by
    rw [Int.add_mul_ediv_left _ _ (by omega), Int.ediv_eq_zero_of_lt (by omega) (by omega), Int.zero_add]
  have hbetween : (den + 2 * den * micros) % (2 * den : Int) ≠ 0 := by
    rw [Int.add_mul_emod_self_left, Int.emod_eq_of_lt (by omega) (by omega)]
    omega
  have hzero : ({ micros := micros } : PartialDuration).rest.ratio? = some (0, den) := hrest
  simp only [PartialDuration.round, hzero, hsum, hfloor, hbetween, false_and, if_false]

theorem durationMicros_whole (count : Int) (unit : Nat) : durationMicros [(.whole count, unit)] = count * unit := by
  have hadd : durationMicros [(.whole count, unit)] = ({ micros := 0 + count * unit } : PartialDuration).round := rfl
  rw [hadd, PartialDuration.round_whole, Int.zero_add]

end Cadence.Calendar
