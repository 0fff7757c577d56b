import Cadence.Calendar.Duration
import Cadence.Log.Level
import Cadence.Log.Redaction
import Cadence.Log.Template

/-!
# Entries of the log

A record is what is to be logged. On its way it is stamped with the fields of the logging context, then
its secrets are masked, and then it is rendered, either by a template or as an object.
-/

namespace Cadence.Log

/-- A fault as a record holds it: where its kind is defined, the lines of its traceback before the one that
tells the fault itself, and notes that follow that line. -/
structure Raised where
  fault : Fault
  origin : String := ""
  frames : List String := []
  notes : List String := []

structure Record where
  logger : String
  level : Int
  module : String := ""
  function : String := ""
  line : Int := 0
  message : String
  /-- The values for the message, if it is a template. -/
  arguments : Option Template.Arguments := none
  fields : Option Members := none
  raised : Option Raised := none
  created : Numeral := .whole 0

def levelName (number : Int) : String :=
  if number = 0 then "NOTSET"
  else
    match Level.all.find? fun l => (l.number : Int) = number with
    | some l => l.label
    | none => "Level " ++ toString number

/-- The values of a message as they are given: none, a single object with members by name, or a list. -/
def argumentsOf : List Json → Option Template.Arguments
  | [] => none
  | [.obj (m :: members)] => some (.named (m :: members))
  | items => some (.listed items)

def epoch : Instant := ⟨(Calendar.daysBeforeYear 1970 * Calendar.microsPerDay : Nat)⟩

def instantOfSeconds (seconds : Numeral) : Outcome Instant :=
  let micros := epoch.micros + Calendar.durationMicros [(seconds, Calendar.microsPerSecond)]
  if Calendar.inRange micros then .ok ⟨micros⟩
  else .error (.other "ValueError" ("year " ++ (if micros < 0 then "0" else "10000") ++ " is out of range"))

def secretFields : List String := ["access_token", "encrypted_secret", "authorization", "secret"]

def maskFields (fields : Members) : Members :=
  fields.map fun (name, value) =>
    (name, if secretFields.contains (Text.lower name) then .str mask else value)

def stampFields (context fields : Members) : Members :=
  context.foldl (fun acc (name, value) => if (acc.get? name).isSome then acc else acc.set name value) fields

namespace Raised

/-- The last line of a traceback, with the text of the fault as it is. -/
def finalLine (r : Raised) : String :=
  let text :=
    match r.fault.text with
    | .ok text => text
    | .error _ => "<exception str() failed>"
  r.origin ++ r.fault.label ++ (if text = "" then "" else ": " ++ text) ++ "\n"

def traceback (r : Raised) : List String := r.frames ++ r.finalLine :: r.notes

def toJson (r : Raised) : Outcome Json := do
  return .obj [("type", .str r.fault.label), ("message", .str (redact (← r.fault.text))),
    ("traceback", .arr (r.traceback.map .str))]

/-- The traceback as a text, without a line break at its end. -/
def lines (r : Raised) : String :=
  let text := String.join r.traceback
  if text.endsWith "\n" then (text.dropEnd 1).toString else text

end Raised

namespace Record

def text (r : Record) : Outcome String :=
  match r.arguments with
  | none => .ok r.message
  | some args => Template.fill r.message args

def stamp (context : Members) (r : Record) : Record :=
  { r with fields := some (stampFields context (r.fields.getD [])) }

def maskSecrets (r : Record) : Outcome Record := do
  let message ← r.text
  let cleaned := redact message
  let r := if cleaned = message then r else { r with message := cleaned, arguments := none }
  return { r with fields := r.fields.map maskFields }

/-- The record as an object, which has to have a written form. Fields go before what the record says of
itself, except for the fault. -/
def structured (r : Record) : Outcome Members := do
  let instant ← instantOfSeconds r.created
  let entry : Members := [
    ("timestamp", .str instant.text),
    ("level", .str (levelName r.level)),
    ("logger", .str r.logger),
    ("message", .str (← r.text)),
    ("location", .str (r.module ++ ":" ++ r.function ++ ":" ++ toString r.line))]
  let entry := entry.setAll (r.fields.getD [])
  let entry ←
    match r.raised with
    | some raised => do pure (entry.set "exception" (← raised.toJson))
    | none => pure entry
  if Json.haveWritable entry then return entry
  throw .integerTooLong

/-- The record as a line, and the traceback of its fault after it. -/
def plain (template : String) (r : Record) : Outcome String := do
  let line ← Template.fill template (.named [
    ("name", .str r.logger),
    ("levelno", .int r.level),
    ("levelname", .str (levelName r.level)),
    ("module", .str r.module),
    ("funcName", .str r.function),
    ("lineno", .int r.line),
    ("message", .str (← r.text))])
  return match r.raised with
    | some raised => (if line.endsWith "\n" then line else line ++ "\n") ++ raised.lines
    | none => line

end Record

end Cadence.Log
