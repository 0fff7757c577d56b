import Cadence.Json.Display
import Cadence.Text.Split
import Cadence.Text.Utf8

/-!
# A folder

The part of a file system that settings refer to: the folder in which the program runs, with the folders
and files in it. Paths that start at the root lead out of it and count as leading to what exists.
-/

namespace Cadence.Settings

/-- A path as its segments, from the folder down. -/
abbrev Place := List String

/-- The folders and files inside a folder, and the text of the files. -/
structure Folder where
  folders : List Place := []
  files : List (Place × String) := []

inductive FolderError where
  | missing | notAFolder | taken | nameTooLong
deriving DecidableEq, Repr

def FolderError.message : FolderError → String
  | missing => "[Errno 2] No such file or directory"
  | notAFolder => "[Errno 20] Not a directory"
  | taken => "[Errno 17] File exists"
  | nameTooLong => "[Errno 36] File name too long"

def maxNameLength : Nat := 255

inductive Target where
  | folder (place : Place)
  | file (place : Place) (text : String)
  | nothing (reason : FolderError)

namespace Folder

def text? (f : Folder) (place : Place) : Option String := f.files.lookup place

/-- Follows segments from a place; a file has to be the last one. -/
def walk (f : Folder) (at_ : Place) : List String → Target
  | [] => .folder at_
  | segment :: rest =>
    if segment = "" ∨ segment = "." then walk f at_ rest
    else if segment = ".." then walk f at_.dropLast rest
    else
      let next := at_ ++ [segment]
      if maxNameLength < (Text.utf8 segment).length then .nothing .nameTooLong
      else if f.folders.contains next then walk f next rest
      else
        match f.text? next with
        | some text => if rest.isEmpty then .file next text else .nothing .notAFolder
        | none => .nothing .missing

def isRooted (path : String) : Bool := path.startsWith "/"

def find (f : Folder) (path : String) : Target :=
  if isRooted path then .folder [] else f.walk [] (Text.split '/' path)

def hasPath (f : Folder) (path : String) : Bool :=
  path ≠ "" &&
    match f.find path with
    | .nothing _ => false
    | _ => true

def make (f : Folder) (segments : List String) : Except FolderError Folder :=
  match f.walk [] segments with
  | .folder _ | .file .. => .error .taken
  | .nothing .missing =>
    match f.walk [] segments.dropLast with
    | .folder parent => .ok { f with folders := f.folders ++ [parent ++ segments.getLast?.toList] }
    | .file .. => .error .notAFolder
    | .nothing reason => .error reason
  | .nothing reason => .error reason

/-- Makes the folders along segments, one after the other: those that are there are left alone. The
first failure ends it, and is told with its path. -/
def makeAll (f : Folder) : (done : List String) → List String → Folder × Option (String × FolderError)
  | _, [] => (f, none)
  | done, segment :: rest =>
    let path := done ++ [segment]
    if segment = "" ∨ segment = "." then makeAll f path rest
    else
      match f.make path with
      | .ok f => makeAll f path rest
      | .error reason =>
        match f.walk [] path with
        | .folder _ => makeAll f path rest
        | .file .. => if rest.isEmpty then (f, some ("/".intercalate path, reason)) else makeAll f path rest
        | .nothing _ => (f, some ("/".intercalate path, reason))

end Folder

/-- The folder part of a path: all before the last slash, without slashes at its end. -/
def parentPath (path : String) : String :=
  let head := (path.toList.reverse.dropWhile (· ≠ '/')).reverse
  if head.all (· = '/') then String.ofList head
  else String.ofList (head.reverse.dropWhile (· = '/')).reverse

end Cadence.Settings
