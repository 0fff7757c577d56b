import Cadence.Fault
import Cadence.Json.Reader
import Cadence.Text.Split

/-!
# Paths into payloads

A path is a list of segments written with dots between them. A segment names a member of an object; if
it consists of digits it is an index into a list. Empty segments do not count.
-/

namespace Cadence.Payload

def segments (path : String) : List String := (Text.split '.' path).filter (· ≠ "")

def isIndex (segment : String) : Bool := segment ≠ "" && segment.toList.all Text.isAsciiDigit

/-- The value that one segment leads to from a value; none if there is nothing. An index of too many
digits is refused. -/
def step (current : Option Json) (segment : String) : Outcome (Option Json) :=
  match current with
  | some (.obj members) => .ok (Members.get? members segment)
  | some (.arr items) =>
    if isIndex segment then
      if segment.length > Json.maxNumeralDigits then .error (.indexTooLong segment.length)
      else .ok (items[Text.decimalValue segment.toList]?)
    else .ok none
  | _ => .ok none

/-- The value at the end of a list of segments, if there is one. -/
def follow (payload : Json) (path : List String) : Outcome (Option Json) :=
  path.foldlM step (some payload)

/-- The value at the end of a path, if there is one. -/
def readPath (payload : Json) (path : String) : Outcome (Option Json) :=
  follow payload (segments path)

end Cadence.Payload
