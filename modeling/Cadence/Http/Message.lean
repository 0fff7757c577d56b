import Cadence.Fault
import Cadence.Json.Finite
import Cadence.Json.Written
import Cadence.Text.LowerCase
import Cadence.Text.Percent

/-!
# Requests and responses

A request as it comes in, and what goes back.
-/

namespace Cadence

namespace Json

mutual

/-- The fault of the first number in a value that has no form in JSON, if there is one. -/
def obstacle? : Json → Option Fault
  | v@(int _) => if v.isWritable then none else some .integerTooLong
  | v@(float _) => if v.isFinite then none else some .numberNotFinite
  | arr items => itemsObstacle? items
  | obj members => membersObstacle? members
  | null | bool _ | str _ => none

def itemsObstacle? : List Json → Option Fault
  | [] => none
  | v :: rest => (obstacle? v).or (itemsObstacle? rest)

def membersObstacle? : List (String × Json) → Option Fault
  | [] => none
  | (_, v) :: rest => (obstacle? v).or (membersObstacle? rest)

end

end Json

namespace Http

/-- A request. The path has no percent escapes any more, and the body is a text. -/
structure Request where
  method : String := "GET"
  path : String := "/"
  headers : List (String × String) := []
  body : String := ""

inductive Content where
  | json (value : Json)
  | text (text : String)

/-- A response, with the id of the request that it answers. -/
structure Response where
  status : Nat
  content : Content
  requestId : Option String := none

/-- The path part of a text, which a query or a fragment can follow. -/
def pathPart (s : String) : String :=
  String.ofList (s.toList.takeWhile fun c => c ≠ '?' && c ≠ '#')

namespace Request

def ofTarget (method target : String) (headers : List (String × String)) (body : String) : Request :=
  ⟨method, Text.Percent.decode (pathPart target), headers, body⟩

/-- The first header of a name, in whatever case it is written. -/
def header? (r : Request) (name : String) : Option String :=
  (r.headers.find? fun h => Text.lower h.1 = Text.lower name).map (·.2)

end Request

namespace Response

/-- A response with JSON content. There is none if JSON cannot express a number in it. -/
def ofJson (status : Nat) (v : Json) : Outcome Response :=
  match v.obstacle? with
  | none => .ok ⟨status, .json v, none⟩
  | some fault => .error fault

/-- The result of a request. Numbers that JSON cannot express are left out. -/
def result (v : Json) : Response := ⟨200, .json v.finitePart, none⟩

def refusal (status : Nat) (reason : String) : Response :=
  ⟨status, .json (.obj [("detail", .str reason)]), none⟩

/-- The response as it answers a method: the answer to `HEAD` has no content. -/
def under (r : Response) (method : String) : Response :=
  if method = "HEAD" then { r with content := .text "" } else r

end Response

end Http

end Cadence
