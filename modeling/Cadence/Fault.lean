import Cadence.Failure.Basic
import Cadence.Schema.Issue

/-!
# Faults

A fault is any way in which an operation ends without a result: a failure that the engine reports, data
that does not fit its schema, a value outside of what can be represented, an error of the transport to
a provider, or an order to stop.
-/

namespace Cadence

inductive Fault where
  | failure (f : Failure)
  | invalid (schema : String) (issues : List Issue)
  /-- A list is addressed by more digits than a number may have. -/
  | indexTooLong (digits : Nat)
  /-- A whole number is beyond the floating-point numbers. -/
  | numberTooLarge
  /-- A whole number is beyond those that a table can hold. -/
  | integerTooWide
  /-- A whole number has more digits than a written number may have. -/
  | integerTooLong
  /-- A number that is not finite was to be written as JSON. -/
  | numberNotFinite
  /-- A number of days is beyond the machine's whole numbers. -/
  | daysTooMany
  | durationTooLong (days : Int)
  /-- A point in time is outside the calendar. -/
  | instantOutOfRange
  /-- A value, shown as a literal, is none of the values of the named choice. -/
  | notAChoice (shown choice : String)
  /-- A logging field is given under a name that the log entry uses itself. -/
  | reservedField (name : String)
  /-- Bytes are not UTF-8: the first byte in question, or the range in question, and the reason. -/
  | undecodable (byte : Nat) (first last : Nat) (reason : String)
  /-- A text has characters beyond ASCII, from a first to a last position. -/
  | unencodable (character : Char) (first last : Nat)
  | unhashable (type : String)
  | settings (problems : List String)
  | unknownLevel (name : String)
  /-- The provider could not be reached, in the named way. -/
  | transport (name message : String)
  | timeout (message : String)
  | cancelled (message : String)
  /-- The time limit of a run passed while it was waiting. -/
  | elapsed
  /-- A value of the named type stands where an object is needed. -/
  | notAnObject (type : String)
  /-- Any other error, by its name. -/
  | other (name message : String)
  /-- Any other error, by its name, of which there is no text: asking for it raises the named error in turn. -/
  | unreadable (name raised message : String)
deriving Inhabited

namespace Fault

/-- Whether the operation was ordered to stop, which no handler of errors holds up. -/
def isCancellation : Fault → Bool
  | cancelled _ | elapsed => true
  | _ => false

/-- Names of the fields that every log entry about a failure has. -/
def entryFields : List String := ["error_code", "recoverable"]

def label : Fault → String
  | failure f => f.kind.label
  | invalid .. => "ValidationError"
  | indexTooLong _ | integerTooLong | notAChoice .. | settings _ | numberNotFinite => "ValueError"
  | numberTooLarge | integerTooWide | daysTooMany | durationTooLong _ | instantOutOfRange => "OverflowError"
  | reservedField name => if entryFields.contains name then "KeyError" else "TypeError"
  | unhashable _ | notAnObject _ => "TypeError"
  | undecodable .. => "UnicodeDecodeError"
  | unencodable .. => "UnicodeEncodeError"
  | unknownLevel _ => "AttributeError"
  | transport name _ => name
  | timeout _ | elapsed => "TimeoutError"
  | cancelled _ => "CancelledError"
  | other name _ | unreadable name _ _ => name

def escapedCharacter (c : Char) : String :=
  let n := c.toNat
  String.ofList <|
    if n < 0x100 then '\\' :: 'x' :: hexDigits 2 n
    else if n < 0x10000 then '\\' :: 'u' :: hexDigits 4 n
    else '\\' :: 'U' :: hexDigits 8 n

/-- The text of a fault; of an unreadable one there is none. -/
def message : Fault → String
  | failure f => f.message
  | invalid schema _ => schema
  | indexTooLong digits =>
    "Exceeds the limit (4300 digits) for integer string conversion: value has " ++ toString digits ++
      " digits; use sys.set_int_max_str_digits() to increase the limit"
  | integerTooLong =>
    "Exceeds the limit (4300 digits) for integer string conversion; " ++
      "use sys.set_int_max_str_digits() to increase the limit"
  | numberTooLarge => "int too large to convert to float"
  | integerTooWide => "Python int too large to convert to SQLite INTEGER"
  | numberNotFinite => "Out of range float values are not JSON compliant"
  | daysTooMany => "Python int too large to convert to C int"
  | durationTooLong days => "days=" ++ toString days ++ "; must have magnitude <= 999999999"
  | instantOutOfRange => "date value out of range"
  | notAChoice shown choice => shown ++ " is not a valid " ++ choice
  | reservedField name =>
    if entryFields.contains name then "'" ++ name ++ "'"
    else "log_with_context() got multiple values for argument '" ++ name ++ "'"
  | undecodable byte first last reason =>
    if first = last then
      "'utf-8' codec can't decode byte 0x" ++ String.ofList (hexDigits 2 byte) ++ " in position " ++
        toString first ++ ": " ++ reason
    else
      "'utf-8' codec can't decode bytes in position " ++ toString first ++ "-" ++ toString last ++
        ": " ++ reason
  | unencodable c first last =>
    if first = last then
      "'ascii' codec can't encode character '" ++ escapedCharacter c ++ "' in position " ++
        toString first ++ ": ordinal not in range(128)"
    else
      "'ascii' codec can't encode characters in position " ++ toString first ++ "-" ++
        toString last ++ ": ordinal not in range(128)"
  | elapsed | unreadable .. => ""
  | unhashable type => "unhashable type: '" ++ type ++ "'"
  | notAnObject type => "'" ++ type ++ "' object is not a mapping"
  | settings problems => "Configuration validation failed: " ++ "; ".intercalate problems
  | unknownLevel name => "module 'logging' has no attribute '" ++ name ++ "'"
  | transport _ message | timeout message | cancelled message | other _ message => message

/-- Asks for the text of a fault. -/
def text : Fault → Except Fault String
  | unreadable _ raised message => .error (.other raised message)
  | fault => .ok fault.message

end Fault

abbrev Outcome (α : Type) := Except Fault α

end Cadence
