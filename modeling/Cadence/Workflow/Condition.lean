import Cadence.Json.Equality
import Cadence.Json.Shown
import Cadence.Payload.Path
import Cadence.Text.LowerCase

/-!
# Conditions

A condition compares the value at a path of the trigger's payload: whether it is there, whether it
equals the configured value, or whether it is the truth value `true`.
-/

namespace Cadence.Workflow

/-- The comparisons that a condition can make. -/
inductive Comparison where
  | present
  | equals
  | differs
  | isTrue
  | unknown
deriving DecidableEq, Repr

/-- The text of a setting that may have any kind of value; empty if it is not given. -/
def settingText (config : Members) (name : String) : Outcome String :=
  ((Members.get? config name).getD .null).shownGiven

def Comparison.ofName (name : String) : Comparison :=
  if name = "exists" then present
  else if name = "equals" then equals
  else if name = "not_equals" then differs
  else if name = "is_true" then isTrue
  else unknown

/-- The comparison that a node's settings name; presence if they name none. -/
def Comparison.ofSettings (config : Members) : Outcome Comparison := do
  let name ← settingText config "operator"
  return ofName (Text.lower (if name = "" then "exists" else name))

/-- Whether a value shows as nothing: null, the empty text, and lists of nothing or of one such
value. -/
def rendersEmpty : Json → Bool
  | .null => true
  | .str s => s = ""
  | .arr [] => true
  | .arr [v] => rendersEmpty v
  | _ => false

/-- Whether a comparison holds of the value read, if any, and the configured value, if any. -/
def Comparison.holds (c : Comparison) (left right : Option Json) : Bool :=
  match c with
  | present => !(left.map rendersEmpty).getD true
  | equals => Json.strictEquals left right
  | differs => !Json.strictEquals left right
  | isTrue =>
    match left with
    | some (.bool true) => true
    | _ => false
  | unknown => false

/-- Whether the condition with these settings holds of a payload. The empty path leads nowhere. -/
def evaluateCondition (config : Members) (payload : Json) : Outcome Bool := do
  let comparison ← Comparison.ofSettings config
  let path ← settingText config "path"
  let left ← if path = "" then pure none else Payload.readPath payload path
  return comparison.holds left (Members.get? config "value")

end Cadence.Workflow
