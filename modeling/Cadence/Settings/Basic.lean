import Cadence.Log.Level
import Cadence.Number.Reading
import Cadence.Schema.Scalar

/-!
# Settings of an application

Settings are read from fields; each is checked on its own, and all that is wrong is reported at once.
-/

namespace Cadence

structure Settings where
  appName : String
  appVersion : String
  debug : Bool
  host : String
  port : Nat
  reload : Bool
  databaseUrl : String
  databaseEcho : Bool
  encryptionKey : String
  executionDryRun : Bool
  defaultMaxActions : Nat
  executionTimeout : Binary64
  verifyAllowLive : Bool
  verificationMaxAgeDays : Nat
  apiBaseUrl : String
  apiVersion : String
  defaultLanguage : String
  providerTimeout : Binary64
  logLevel : Log.Level
  logFormat : String
  logFile : Option String
  logMaxSize : Int
  logBackupCount : Int
  logStructured : Bool
  slowRequestThreshold : Binary64
  corsOrigins : List String
  corsMethods : List String

namespace Settings

def databaseSchemes : List String := ["sqlite", "postgresql", "mysql"]

/-- What comes before the first `://` of an address. -/
def beforeAuthority : List Char → List Char
  | ':' :: '/' :: '/' :: _ => []
  | c :: rest => c :: beforeAuthority rest
  | [] => []

/-- The scheme of a database's address, without the driver that may follow a plus sign. -/
def databaseScheme (url : String) : String :=
  Text.lower (String.ofList ((beforeAuthority url.toList).takeWhile (· ≠ '+')))

def readDatabaseUrl (v : Json) : Checked String :=
  (Schema.text v).andThen fun url =>
    if url = "" then .complain (.rule "Database URL cannot be empty")
    else if databaseSchemes.contains (databaseScheme url) then .valid url
    else .complain (.rule ("Unsupported database scheme: " ++ databaseScheme url ++
      ". Supported: " ++ (Json.arr (databaseSchemes.map .str)).literal))

def readPort (v : Json) : Checked Nat :=
  (Schema.integer v).andThen fun i =>
    if 1 ≤ i ∧ i ≤ 65535 then .valid i.toNat
    else .complain (.rule "Port must be between 1 and 65535")

def readCount (name : String) (v : Json) : Checked Nat :=
  (Schema.integer v).andThen fun i =>
    if i < 0 then .complain (.rule (name ++ " cannot be negative")) else .valid i.toNat

/-- A duration in seconds. Only numbers that are not above zero are refused. -/
def readSeconds (name : String) (v : Json) : Checked Binary64 :=
  (Schema.number v).andThen fun x =>
    if x.compareInt? 0 = some .lt ∨ x.compareInt? 0 = some .eq then
      .complain (.rule (name ++ " must be positive"))
    else .valid x

/-- The base address of the provider, trimmed and without slashes at its end. -/
def readBaseUrl (v : Json) : Checked String :=
  (Schema.text v).andThen fun url =>
    if Text.isBlankText url then .complain (.rule "WhatsApp API base URL cannot be empty")
    else .valid (String.ofList ((Text.stripChars url.toList).reverse.dropWhile (· = '/')).reverse)

/-- The settings that fields describe. What is left out has its standard value. -/
def readFields (data : Members) : Checked Settings :=
  let text (name fallback : String) := Schema.optional data name fallback Schema.text
  let truth (name : String) (fallback : Bool) := Schema.optional data name fallback Schema.truth
  let seconds (name : String) (fallback : Nat) :=
    Schema.optional data name (Binary64.ofInt fallback) (readSeconds name)
  let count (name : String) (fallback : Nat) := Schema.optional data name fallback (readCount name)
  let integer (name : String) (fallback : Int) := Schema.optional data name fallback Schema.integer
  let texts (name : String) (fallback : List String) :=
    Schema.optional data name fallback (Schema.listOf Schema.text)
  mk <$> text "app_name" "Outreach Workflow Engine"
    <*> text "app_version" "1.0.0"
    <*> truth "debug" false
    <*> text "host" "0.0.0.0"
    <*> Schema.optional data "port" 8000 readPort
    <*> truth "reload" false
    <*> Schema.optional data "database_url" "sqlite:///./outreach_engine.db" readDatabaseUrl
    <*> truth "database_echo" false
    <*> text "encryption_key" ""
    <*> truth "execution_dry_run" true
    <*> count "default_max_actions" 20
    <*> seconds "execution_timeout" 300
    <*> truth "verify_allow_live" false
    <*> count "whatsapp_verification_max_age_days" 30
    <*> Schema.optional data "whatsapp_api_base_url" "https://graph.facebook.com" readBaseUrl
    <*> text "whatsapp_api_version" "v20.0"
    <*> text "whatsapp_default_language" "en_US"
    <*> seconds "provider_timeout" 15
    <*> Schema.optional data "log_level" .info (Schema.choice Log.Level.all Log.Level.label)
    <*> text "log_format" "%(asctime)s - %(name)s - %(levelname)s - %(message)s"
    <*> Schema.optional data "log_file" none (Schema.nullable Schema.text)
    <*> integer "log_max_size" (10 * 1024 * 1024)
    <*> integer "log_backup_count" 5
    <*> truth "log_structured" false
    <*> seconds "slow_request_threshold" 5
    <*> texts "cors_origins" ["*"]
    <*> texts "cors_methods" ["GET", "POST"]

/-- The settings that fields describe, or the fault. -/
def ofFields (data : Members) : Outcome Settings := (readFields data).toOutcome "AppConfig"

def toFields (s : Settings) : Members :=
  [("app_name", .str s.appName),
    ("app_version", .str s.appVersion),
    ("debug", .bool s.debug),
    ("host", .str s.host),
    ("port", .nat s.port),
    ("reload", .bool s.reload),
    ("database_url", .str s.databaseUrl),
    ("database_echo", .bool s.databaseEcho),
    ("encryption_key", .str s.encryptionKey),
    ("execution_dry_run", .bool s.executionDryRun),
    ("default_max_actions", .nat s.defaultMaxActions),
    ("execution_timeout", .float s.executionTimeout),
    ("verify_allow_live", .bool s.verifyAllowLive),
    ("whatsapp_verification_max_age_days", .nat s.verificationMaxAgeDays),
    ("whatsapp_api_base_url", .str s.apiBaseUrl),
    ("whatsapp_api_version", .str s.apiVersion),
    ("whatsapp_default_language", .str s.defaultLanguage),
    ("provider_timeout", .float s.providerTimeout),
    ("log_level", .str s.logLevel.label),
    ("log_format", .str s.logFormat),
    ("log_file", Json.ofText? s.logFile),
    ("log_max_size", .int s.logMaxSize),
    ("log_backup_count", .int s.logBackupCount),
    ("log_structured", .bool s.logStructured),
    ("slow_request_threshold", .float s.slowRequestThreshold),
    ("cors_origins", .arr (s.corsOrigins.map .str)),
    ("cors_methods", .arr (s.corsMethods.map .str))]

/-- Whether the database is a file or in memory, rather than a server. -/
def isSqlite (s : Settings) : Bool := (Text.lower s.databaseUrl).startsWith "sqlite"

def isProduction (s : Settings) : Bool := !s.debug && !s.reload

def connectArgs (s : Settings) : Members :=
  if s.isSqlite then [("check_same_thread", .bool false)] else []

def serverOptions (s : Settings) : Members :=
  [("host", .str s.host), ("port", .nat s.port), ("reload", .bool s.reload),
    ("log_level", .str (Text.lower s.logLevel.label)), ("access_log", .bool s.debug)]

/-- The fields of the settings for local development: all is logged, and nothing is sent. -/
def developmentFields : Members :=
  [("debug", .bool true), ("reload", .bool true), ("log_level", .str "DEBUG"),
    ("database_echo", .bool true), ("execution_dry_run", .bool true)]

/-- The fields of the settings for production: structured logs, and no foreign origins. -/
def productionFields : Members :=
  [("log_level", .str "INFO"), ("log_structured", .bool true), ("cors_origins", .arr [])]

/-- The fields of the settings for tests: a database in memory and a fixed key. -/
def testingFields : Members :=
  [("debug", .bool true), ("database_url", .str "sqlite:///:memory:"),
    ("encryption_key", .str "deterministic-test-key"), ("log_level", .str "WARNING"),
    ("execution_dry_run", .bool true), ("execution_timeout", .float (.ofInt 30)),
    ("provider_timeout", .float (.ofInt 5))]

end Settings

end Cadence
