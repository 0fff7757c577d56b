import Cadence.Text.Split

/-!
# Routes

What can be asked for, and under which method and path. A path is taken apart at its slashes.
-/

namespace Cadence.Http

inductive Endpoint where
  | greeting
  | health
  | actions
  | execute
  | run (executionId : String)
  | connect (clientId : String)
  | rotate (clientId : String)
  | status (clientId : String)
  | verify (clientId : String)
deriving DecidableEq, Repr

/-- An endpoint and the method to ask for it. -/
structure Route where
  method : String
  endpoint : Endpoint
deriving DecidableEq, Repr

namespace Route

def ofCredentials (clientId : String) : List String → Option Route
  | ["whatsapp"] => some ⟨"POST", .connect clientId⟩
  | ["whatsapp", "rotate"] => some ⟨"POST", .rotate clientId⟩
  | ["whatsapp", "status"] => some ⟨"GET", .status clientId⟩
  | ["whatsapp", "verify"] => some ⟨"POST", .verify clientId⟩
  | _ => none

/-- The route of a path that is given by its pieces. An id cannot be empty. -/
def ofPieces : List String → Option Route
  | ["", ""] => some ⟨"GET", .greeting⟩
  | ["", "health"] => some ⟨"GET", .health⟩
  | ["", "api", "v1", "actions"] => some ⟨"GET", .actions⟩
  | ["", "api", "v1", "executions"] => some ⟨"POST", .execute⟩
  | ["", "api", "v1", "executions", id] => if id = "" then none else some ⟨"GET", .run id⟩
  | "" :: "api" :: "v1" :: "clients" :: id :: "credentials" :: rest =>
    if id = "" then none else ofCredentials id rest
  | _ => none

def withoutLineFeed (path : List Char) : List Char :=
  if path.getLast? = some '\n' then path.dropLast else path

/-- The route of a path. A line feed at the end of the path does not count, unless an id ends there. -/
def find? (path : String) : Option Route :=
  ofPieces (Text.split '/' path) <|>
    ofPieces (Text.split '/' (String.ofList (withoutLineFeed path.toList)))

/-- The path with slashes at its end removed, or with one added if there is none. -/
def otherEnding (path : String) : String :=
  let s := path.toList
  if s.getLast? = some '/' then String.ofList (s.reverse.dropWhile (· = '/')).reverse
  else path ++ "/"

/-- Whether a path without a route has one under its other ending, which the client is sent to. -/
def isElsewhere (path : String) : Bool := path ≠ "/" && (find? (otherEnding path)).isSome

end Route

end Cadence.Http
