import Cadence.Json.Writer
import Cadence.Log.Record
import Cadence.Text.Split
import Cadence.Text.UpperCase
import Cadence.Text.Utf8

/-!
# The set-up of the log

Loggers form a tree by their dotted names, and an entry is let through if its level is not below that of
the nearest logger with a level of its own. What is let through goes to the console, and to a file if
there is one, which is renamed when it has become too long.
-/

namespace Cadence.Log

structure Setup where
  level : String := "INFO"
  structured : Bool := false
  template : Option String := none
  file : Option String := none
  maxSize : Int := 10485760
  backups : Int := 5

def defaultTemplate : String :=
  "%(asctime)s - %(name)s - %(levelname)s - [%(module)s:%(funcName)s:%(lineno)d] - %(message)s"

/-- Names of levels, beside those of the levels themselves. -/
def otherLevelNames : List (String × Nat) := [("WARN", 30), ("FATAL", 50), ("NOTSET", 0)]

def levelNumber (name : String) : Outcome Nat :=
  let name := Text.upper name
  match (Level.all.map fun l => (l.label, l.number)) ++ otherLevelNames |>.lookup name with
  | some n => .ok n
  | none => .error (.unknownLevel name)

def quietLoggers : List String :=
  ["uvicorn.access", "sqlalchemy.engine", "sqlalchemy.pool", "httpx", "httpcore", "asyncio"]

def ownLogger : String := "outreach_engine"

/-- A file of the log, with the older ones that it was renamed to, the latest first. -/
structure LogFile where
  name : String
  maxSize : Int
  backups : Nat
  current : String := ""
  older : List String := []

structure Logbook where
  rootLevel : Nat
  levels : List (String × Nat)
  structured : Bool
  template : String
  file : Option LogFile
  context : Members := []

namespace Setup

def build (s : Setup) : Outcome Logbook := do
  let given := s.template.getD ""
  let template := if given = "" then defaultTemplate else given
  if !s.structured && !Template.hasNamedSlot template.toList then
    throw (.other "ValueError" ("Invalid format '" ++ template ++ "' for '%' style"))
  let level ← levelNumber s.level
  let file := s.file.getD ""
  return {
    rootLevel := level
    levels := (quietLoggers.map fun name => (name, max Level.warning.number level)) ++ [(ownLogger, level)]
    structured := s.structured
    template
    file := if file = "" then none
      else some { name := file, maxSize := s.maxSize, backups := s.backups.toNat } }

end Setup

namespace LogFile

/-- The file after the current one was renamed; without backups nothing is renamed. -/
def rotate (f : LogFile) : LogFile :=
  if f.backups = 0 then f
  else { f with current := "", older := (f.current :: f.older).take f.backups }

/-- The file with a line more. The file is renamed before the line would make it too long, where the
characters of the line count, and the bytes of the file. -/
def write (f : LogFile) (line : String) : LogFile :=
  let size := (Text.utf8 f.current).length + line.length
  let f := if 0 < f.maxSize ∧ f.maxSize ≤ size then f.rotate else f
  { f with current := f.current ++ line }

/-- All files by name, with what they hold. -/
def contents (f : LogFile) : List (String × String) :=
  (f.name, f.current) :: ((List.range f.older.length).zip f.older).map fun (i, text) =>
    (f.name ++ "." ++ toString (i + 1), text)

end LogFile

namespace Logbook

/-- A logger's name and those of the loggers above it, the nearest first. -/
def lineage (name : String) : List String :=
  let parts := Text.split '.' name
  ((List.range parts.length).map fun i => ".".intercalate (parts.take (i + 1))).reverse

def effectiveLevel (l : Logbook) (logger : String) : Nat :=
  let own (name : String) : Option Nat :=
    match l.levels.lookup name with
    | some 0 | none => none
    | some n => some n
  ((lineage logger).findSome? own).getD l.rootLevel

def isEnabled (l : Logbook) (logger : String) (level : Int) : Bool :=
  0 < level && (l.effectiveLevel logger : Int) ≤ level

/-- A record as it is logged: the entry as an object, if entries are structured, and the line. -/
def render (l : Logbook) (r : Record) : Outcome (Option Members × String) := do
  let r ← (r.stamp l.context).maskSecrets
  if l.structured then
    let entry ← r.structured
    return (some entry, (Json.obj entry).write)
  return (none, ← r.plain l.template)

/-- The log after its file was given what was rendered, if anything was. -/
def filed (l : Logbook) : Outcome (Option Members × String) → Logbook
  | .ok (_, line) => { l with file := l.file.map (·.write (line ++ "\n")) }
  | .error _ => l

/-- Logs a record: what is written to the console, and the log afterwards. The file gets the record as the
console left it, stamped and without its secrets, and treats it like a new one. -/
def write (l : Logbook) (r : Record) : Outcome (Option Members × String) × Logbook :=
  match (r.stamp l.context).maskSecrets with
  | .ok left => (l.render r, l.filed (l.render left))
  | .error fault => (.error fault, l)

end Logbook

end Cadence.Log
