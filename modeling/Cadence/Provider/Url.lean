import Cadence.Json.Display
import Cadence.Text.Split
import Cadence.Text.Utf8

/-!
# Addresses of requests

Text becomes a segment of a path by percent-encoding, and a path is normalised by removing its dot
segments.
-/

namespace Cadence.Provider

def isUnreserved (c : Char) : Bool :=
  ('a' ≤ c && c ≤ 'z') || ('A' ≤ c && c ≤ 'Z') || ('0' ≤ c && c ≤ '9') || c = '-' || c = '.' ||
    c = '_' || c = '~'

def percentByte (b : UInt8) : List Char :=
  let digit (n : Nat) : Char := if n < 10 then Char.ofNat (n + 48) else Char.ofNat (n + 55)
  ['%', digit (b.toNat / 16), digit (b.toNat % 16)]

/-- A text as a segment of a path: every byte of the characters that are not unreserved is
percent-encoded. -/
def encodeSegment (s : List Char) : List Char :=
  s.flatMap fun c => if isUnreserved c then [c] else (Text.Utf8.encodeChar c).flatMap percentByte

/-- The segments of a path without `.` segments, and without `..` segments and the ones before them;
`done` holds the segments so far in reverse. -/
def removeDots (done : List (List Char)) : List (List Char) → List (List Char)
  | [] => done.reverse
  | segment :: rest =>
    if segment = ['.'] then removeDots done rest
    else if segment = ['.', '.'] then
      removeDots (if done ≠ [] ∧ done ≠ [[]] then done.drop 1 else done) rest
    else removeDots (segment :: done) rest

def normalPath (path : List Char) : List Char :=
  let segments := Text.splitChars '/' path
  if segments.contains ['.'] || segments.contains ['.', '.'] then
    List.intercalate ['/'] (removeDots [] segments)
  else path

/-- Scheme and authority of an address, and what follows them. -/
def splitOrigin (url : List Char) : List Char × List Char :=
  let scheme := url.takeWhile (fun c => c ≠ ':' && c ≠ '/' && c ≠ '?' && c ≠ '#')
  match url.drop scheme.length with
  | ':' :: '/' :: '/' :: rest =>
    let isHost (c : Char) : Bool := c ≠ '/' && c ≠ '?' && c ≠ '#'
    (scheme ++ [':', '/', '/'] ++ rest.takeWhile isHost, rest.dropWhile isHost)
  | _ => ([], url)

def normalUrl (url : String) : String :=
  let (origin, rest) := splitOrigin url.toList
  let isPath (c : Char) : Bool := c ≠ '?' && c ≠ '#'
  String.ofList (origin ++ normalPath (rest.takeWhile isPath) ++ rest.dropWhile isPath)

end Cadence.Provider
