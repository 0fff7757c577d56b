import Cadence.Settings.Basic
import Cadence.Text.Split
import Cadence.Text.UpperCase

/-!
# Settings from the environment

Every setting can be given by a variable of the environment, as a text. Truth values, lists and the
level of the log have a notation of their own; any other text is taken as the value of the field.
-/

namespace Cadence.Settings

abbrev Environment := List (String × String)

def Environment.get? (env : Environment) (name : String) : Option String := List.lookup name env

def Environment.set (env : Environment) (name value : String) : Environment :=
  (name, value) :: env.filter fun v => v.1 ≠ name

def Environment.unset (env : Environment) (name : String) : Environment :=
  env.filter fun v => v.1 ≠ name

/-- Sets a variable if it can be one: no text may hold the null character, and no name an equals sign. -/
def Environment.assign (env : Environment) (name value : String) : Outcome Environment :=
  if (name.toList ++ value.toList).contains '\x00' then .error (.other "ValueError" "embedded null byte")
  else if name.toList.contains '=' then .error (.other "ValueError" "illegal environment variable name")
  else .ok (env.set name value)

def variablePrefix : String := "OUTREACH_ENGINE_"

inductive Reading where
  | plain | truth | list | level
deriving DecidableEq, Repr

/-- The fields of the settings, with the reading of their variables. -/
def fieldReadings : List (String × Reading) :=
  [("app_name", .plain), ("app_version", .plain), ("debug", .truth), ("host", .plain),
    ("port", .plain), ("reload", .truth), ("database_url", .plain), ("database_echo", .truth),
    ("encryption_key", .plain), ("execution_dry_run", .truth), ("default_max_actions", .plain),
    ("execution_timeout", .plain), ("verify_allow_live", .truth),
    ("whatsapp_verification_max_age_days", .plain), ("whatsapp_api_base_url", .plain),
    ("whatsapp_api_version", .plain), ("whatsapp_default_language", .plain),
    ("provider_timeout", .plain), ("log_level", .level), ("log_format", .plain),
    ("log_file", .plain), ("log_max_size", .plain), ("log_backup_count", .plain),
    ("log_structured", .truth), ("slow_request_threshold", .plain), ("cors_origins", .list),
    ("cors_methods", .list)]

/-- The texts that stand for true; all others stand for false. -/
def trueTexts : List String := ["true", "1", "yes", "on"]

def Reading.value (raw : String) : Reading → Outcome Json
  | plain => .ok (.str raw)
  | truth => .ok (.bool (trueTexts.contains (Text.lower (Text.strip raw))))
  | list =>
    let items := (Text.split ',' raw).map Text.strip
    .ok (.arr ((items.filter (· ≠ "")).map .str))
  | level =>
    let name := Text.upper (Text.strip raw)
    if (Log.Level.all.map Log.Level.label).contains name then .ok (.str name)
    else .error (.notAChoice (Json.str name).literal "LogLevel")

def variableName (field : String) : String := variablePrefix ++ Text.upper field

def environmentFields (env : Environment) : List (String × Reading) → Outcome Members
  | [] => .ok []
  | (name, reading) :: rest =>
    match env.get? (variableName name) with
    | none => environmentFields env rest
    | some raw => do
      let value ← reading.value raw
      return (name, value) :: (← environmentFields env rest)

def ofEnvironment (env : Environment) : Outcome Settings := do
  ofFields (← environmentFields env fieldReadings)

end Cadence.Settings
