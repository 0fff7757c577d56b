import Cadence.Fault
import Cadence.Json.Written
import Cadence.Text.Blank

/-!
# Values as texts

A value that stands where a text is expected is taken in its display form. A number without a written
form leaves the value that holds it without a text.
-/

namespace Cadence.Json

def shown (v : Json) : Outcome String := if v.isWritable then .ok v.display else .error .integerTooLong

/-- The text of a value that is given, and the empty text for one that is not. -/
def shownGiven (v : Json) : Outcome String := if v.isGiven then v.shown else .ok ""

/-- A number without a written form is not zero, and a value that holds one is not empty. -/
theorem isGiven_of_unwritten {v : Json} (h : v.isWritable = false) : v.isGiven = true := by
  cases v with
  | int i =>
    have hne : i ≠ 0 := by
      rintro rfl
      exact absurd h (by decide)
    exact decide_eq_true hne
  | arr items =>
    cases items with
    | nil => cases h
    | cons v rest => rfl
  | obj members =>
    cases members with
    | nil => cases h
    | cons m rest => rfl
  | null | bool _ | float _ | str _ => cases h

theorem shownGiven_of_writable {v : Json} (h : v.isWritable = true) : v.shownGiven = .ok v.displayGiven := by
  unfold shownGiven displayGiven shown
  rw [if_pos h]
  split <;> rfl

theorem shownGiven_of_unwritten {v : Json} (h : v.isWritable = false) : v.shownGiven = .error .integerTooLong := by
  unfold shownGiven shown
  rw [if_pos (isGiven_of_unwritten h), h]
  rfl

/-- The trimmed text of the first candidate that is given, or the empty text. -/
def firstText : List Json → Outcome String
  | [] => .ok ""
  | v :: rest => if v.isGiven then Text.strip <$> v.shown else firstText rest

theorem firstText_error {candidates : List Json} {f : Fault} (h : firstText candidates = .error f) :
    f = .integerTooLong := by
  induction candidates with
  | nil => cases h
  | cons v rest ih =>
    rw [firstText] at h
    split at h
    · unfold shown at h
      split at h
      · cases h
      · exact (Except.error.inj h).symm
    · exact ih h

end Cadence.Json
