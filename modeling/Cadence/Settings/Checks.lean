import Cadence.Settings.Environment
import Cadence.Settings.Folder

/-!
# Settings that have to fit together

Some settings depend on each other or on the machine. Everything that does not fit is reported at once,
and the folders for the database and the log are made on the way.
-/

namespace Cadence.Settings

/-- What follows the first `///` of an address, if it has one. -/
def afterTripleSlash? : List Char → Option (List Char)
  | '/' :: '/' :: '/' :: rest => some rest
  | _ :: rest => afterTripleSlash? rest
  | [] => none

def databasePath (url : String) : String :=
  match afterTripleSlash? url.toList with
  | some path => String.ofList path
  | none => url

/-- Makes the folder of a file; the problem is told if it cannot be made. -/
def ensureParent (folder : Folder) (path label : String) : Folder × List String :=
  let directory := parentPath path
  if directory = "" || folder.hasPath directory then (folder, [])
  else
    match folder.makeAll [] (Text.split '/' directory) with
    | (folder, none) => (folder, [])
    | (folder, some (place, reason)) =>
      (folder, ["Cannot create " ++ label ++ " directory " ++ directory ++ ": " ++ reason.message ++
        ": " ++ Text.quote place])

/-- The problems of settings in a folder, and the folder afterwards. -/
def problems (s : Settings) (folder : Folder) : List String × Folder :=
  let key :=
    if Text.isBlankText s.encryptionKey then
      [variablePrefix ++ "ENCRYPTION_KEY must be set to store provider credentials"]
    else []
  let address :=
    if s.verifyAllowLive && !s.apiBaseUrl.startsWith "https://" then
      ["Live verification requires an https WhatsApp API base URL"]
    else []
  let path := databasePath s.databaseUrl
  let (folder, database) :=
    if s.isSqlite && path ≠ ":memory:" then ensureParent folder path "database" else (folder, [])
  let (folder, log) :=
    match s.logFile with
    | some path => if path = "" then (folder, []) else ensureParent folder path "log"
    | none => (folder, [])
  (key ++ address ++ database ++ log, folder)

/-- Checks settings in a folder; makes folders on the way. -/
def check (s : Settings) (folder : Folder) : Outcome Unit × Folder :=
  match s.problems folder with
  | ([], folder) => (.ok (), folder)
  | (found, folder) => (.error (.settings found), folder)

end Cadence.Settings
