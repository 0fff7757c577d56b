import Cadence.Fault
import Cadence.Json.Reader
import Cadence.Provider.Url
import Cadence.Task
import Cadence.Text.Blank

/-!
# The messaging provider

Template messages are sent by one request each. The provider is a function of the number of requests
before and of the request, and every request that reaches it is kept.
-/

namespace Cadence.Provider

structure Request where
  url : String
  authorization : String
  body : Json

/-- An answer of the provider: its status and its body as text. -/
structure Answer where
  status : Int
  body : String

/-- The provider: its answer, or the fault of the transport to it, depends on the number of earlier
requests and on the request. -/
abbrev Transport := Nat → Request → Outcome Answer

/-- The provider as part of a state, with the requests that reached it, the last one first. -/
structure Line where
  transport : Transport
  received : List Request := []

/-- The line after a request, with the answer to it. -/
def Line.send (line : Line) (r : Request) : Outcome Answer × Line :=
  (line.transport line.received.length r, { line with received := r :: line.received })

structure Response where
  status : Int
  body : Members

def Response.isOk (r : Response) : Bool := 200 ≤ r.status && r.status < 300

/-- The settings of a client of the provider. -/
structure Client where
  baseUrl : String := "https://graph.facebook.com"
  apiVersion : String := "v20.0"
  defaultLanguage : String := "en_US"
  /-- How many lists and objects in each other are followed in the body of an answer. -/
  maxNesting : Nat := 950

def dropTrailingSlashes (s : String) : String :=
  String.ofList (s.toList.reverse.dropWhile (· = '/')).reverse

def Client.create (baseUrl apiVersion defaultLanguage : String) : Client :=
  { baseUrl := dropTrailingSlashes baseUrl, apiVersion, defaultLanguage }

def Client.messagesUrl (c : Client) (phoneNumberId : String) : String :=
  c.baseUrl ++ "/" ++ c.apiVersion ++ "/" ++ String.ofList (encodeSegment phoneNumberId.toList) ++
    "/messages"

/-- The fault of a text that cannot be the value of a header, if it is one. -/
def headerFault? (value : String) : Option Fault :=
  let isAscii (c : Char) : Bool := c.toNat < 128
  let start := (value.toList.takeWhile isAscii).length
  match value.toList.drop start with
  | [] => none
  | c :: rest => some (.unencodable c start (start + (rest.takeWhile (!isAscii ·)).length))

def maxUrlLength : Nat := 65536

def templateBody (recipient template language : String) : Json :=
  .obj [
    ("messaging_product", .str "whatsapp"),
    ("to", .str recipient),
    ("type", .str "template"),
    ("template", .obj [
      ("name", .str template),
      ("language", .obj [("code", .str language)])])]

structure Message where
  recipient : String
  template : String
  language : Option String := none

/-- The language of a message: the trimmed one it names, or else the client's. -/
def Client.languageOf (c : Client) (m : Message) : String :=
  let named := Text.strip (m.language.getD "")
  if named = "" then c.defaultLanguage else named

/-- The request for a message, unless it cannot be written down. -/
def Client.request (c : Client) (accessToken phoneNumberId : String) (m : Message) :
    Outcome Request :=
  let url := c.messagesUrl phoneNumberId
  let authorization := "Bearer " ++ accessToken
  if url.length > maxUrlLength then .error (.other "InvalidURL" "URL too long")
  else
    match headerFault? authorization with
    | some fault => .error fault
    | none => .ok ⟨normalUrl url, authorization, templateBody m.recipient m.template (c.languageOf m)⟩

/-- The fault of a body that goes too deep. -/
def tooDeep (kind : String) : Fault :=
  .other "RecursionError"
    ("maximum recursion depth exceeded while decoding a JSON " ++ kind ++ " from a unicode string")

/-- What is kept of an answer: its JSON object, another JSON value under the name `data`, and nothing
of a body that is not JSON. A body that goes too deep is not given up on. -/
def Client.readAnswer (c : Client) (a : Answer) : Outcome Response :=
  let text := if a.body.toList.head? = some '\ufeff' then String.ofList (a.body.toList.drop 1) else a.body
  match Json.readWithin c.maxNesting text with
  | .ok (.obj members) => .ok ⟨a.status, members⟩
  | .ok v => .ok ⟨a.status, [("data", v)]⟩
  | .error ⟨.listTooDeep, _⟩ => .error (tooDeep "array")
  | .error ⟨.objectTooDeep, _⟩ => .error (tooDeep "object")
  | .error _ => .ok ⟨a.status, []⟩

/-- Sends a message over the line. An answer of any status is a result. -/
def Client.send (c : Client) (accessToken phoneNumberId : String) (m : Message) :
    Task Line Response := do
  let request ← c.request accessToken phoneNumberId m
  let answer ← Task.ofPair fun line => line.send request
  c.readAnswer answer

end Cadence.Provider
