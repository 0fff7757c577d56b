import Cadence.Settings.Checks
import Cadence.Settings.VariableFile

/-!
# The settings of a process

A process reads its settings from the environment when they are first asked for, and keeps them until
they are loaded anew or forgotten. Loading takes the variables of a file into the environment first.
-/

namespace Cadence.Settings

/-- Settings that were read, with the number of the reading. -/
structure Loaded where
  settings : Settings
  serial : Nat

/-- The environment and the folder of a process, and the settings that it keeps. -/
structure Session where
  environment : Environment := []
  folder : Folder := {}
  cached : Option Loaded := none
  readings : Nat := 0

def standardFile : String := ".env"

namespace Session

/-- Reads the settings from the environment and keeps them; if they are wrong, what was kept stays. -/
def reread (s : Session) : Outcome Loaded × Session :=
  match ofEnvironment s.environment with
  | .error fault => (.error fault, s)
  | .ok settings =>
    let loaded : Loaded := ⟨settings, s.readings⟩
    (.ok loaded, { s with cached := some loaded, readings := s.readings + 1 })

/-- The kept settings, or else those of the environment. -/
def current (s : Session) : Outcome Loaded × Session :=
  match s.cached with
  | some loaded => (.ok loaded, s)
  | none => s.reread

/-- The text of the file from which variables are taken: the standard file if the given one is not there, and none if
that is no file. -/
def variableText? (s : Session) (file : String) : Option String :=
  match s.folder.find (if s.folder.hasPath file then file else standardFile) with
  | .file _ text => some text
  | _ => none

/-- The settings after the variables of a file were taken into the environment. -/
def load (s : Session) (file : String) : Outcome Loaded × Session :=
  match s.variableText? file with
  | none => s.reread
  | some text =>
    match VariableFile.load s.environment text with
    | (.ok (), environment) => ({ s with environment }).reread
    | (.error fault, environment) => (.error fault, { s with environment })

def reset (s : Session) : Session := { s with cached := none }

end Session

end Cadence.Settings
