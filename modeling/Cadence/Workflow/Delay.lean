import Cadence.Fault
import Cadence.Json.Equality
import Cadence.Number.Reading

/-!
# Delays

The milliseconds of a delay can be given as any value. What is no finite number counts as zero, and
no delay is longer than two seconds.
-/

namespace Cadence.Workflow

/-- The longest delay, in milliseconds. -/
def maxDelayMs : Nat := 2000

/-- A finite number, as a whole number if it is one; zero in place of any other. -/
def normalNumber (x : Binary64) : Numeral :=
  match x.truncate? with
  | none => .whole 0
  | some i => if x.isWhole then .whole i else .binary x

/-- The milliseconds that a configured value asks for. A whole number passes through the
floating-point numbers, and one beyond them is refused. -/
def delayMs : Json → Outcome Numeral
  | .bool b => .ok (.whole (if b then 1 else 0))
  | .int i =>
    let x := Binary64.ofInt i
    if x.isFinite then .ok (normalNumber x) else .error .numberTooLarge
  | .float x => .ok (normalNumber x)
  | .str s => .ok (((Binary64.ofText? s).map normalNumber).getD (.whole 0))
  | _ => .ok (.whole 0)

/-- The delay that is applied: at least nothing, at most the longest. -/
def appliedMs (requested : Numeral) : Numeral :=
  (Numeral.whole 0).greatest (requested.least (.whole maxDelayMs))

end Cadence.Workflow
