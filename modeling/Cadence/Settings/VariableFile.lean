import Cadence.Settings.Environment

/-!
# Files of variables

A file of variables has a variable and its value on each line, with an equals sign between them. Values
may be quoted, comments start with a number sign, and a value can refer to other variables as `${NAME}`
or, with a value in case it is not set, as `${NAME:-value}`. Lines that cannot be read are skipped.
-/

namespace Cadence.Settings.VariableFile

def isInlineBlank (c : Char) : Bool := Text.isBlank c && c ≠ '\r' && c ≠ '\n'

def isLineEnd (c : Char) : Bool := c = '\r' || c = '\n'

def skipInline (s : List Char) : List Char := s.dropWhile isInlineBlank

def skipExport (s : List Char) : List Char :=
  match s with
  | 'e' :: 'x' :: 'p' :: 'o' :: 'r' :: 't' :: c :: rest =>
    if isInlineBlank c then skipInline rest else s
  | _ => s

/-- The name of a variable and what follows it; a comment has no name. -/
def name? (s : List Char) : Option (Option (List Char) × List Char) :=
  match s with
  | '#' :: _ => some (none, s)
  | '\'' :: rest =>
    let name := rest.takeWhile (· ≠ '\'')
    match rest.drop name.length with
    | _ :: after => if name.isEmpty then none else some (some name, after)
    | [] => none
  | _ =>
    let name := s.takeWhile fun c => c ≠ '=' && c ≠ '#' && !Text.isBlank c
    if name.isEmpty then none else some (some name, s.drop name.length)

/-- The text up to the closing quote, and what follows it; a quote after a backslash does not close. -/
def quoted? (mark : Char) : List Char → Option (List Char × List Char)
  | [] => none
  | '\\' :: c :: rest =>
    if c = mark then
      match quoted? mark rest with
      | some (text, after) => some ('\\' :: c :: text, after)
      | none => some (['\\'], rest)
    else (quoted? mark (c :: rest)).map fun (text, after) => ('\\' :: text, after)
  | c :: rest =>
    if c = mark then some ([], rest)
    else (quoted? mark rest).map fun (text, after) => (c :: text, after)

def escape? (mark c : Char) : Option Char :=
  if c = '\\' ∨ c = '\'' then some c
  else if mark = '\'' then none
  else
    match c with
    | '"' => some '"'
    | 'a' => some '\x07'
    | 'b' => some '\x08'
    | 'f' => some '\x0c'
    | 'n' => some '\n'
    | 'r' => some '\r'
    | 't' => some '\t'
    | 'v' => some '\x0b'
    | _ => none

def unescape (mark : Char) : List Char → List Char
  | '\\' :: c :: rest =>
    match escape? mark c with
    | some d => d :: unescape mark rest
    | none => '\\' :: unescape mark (c :: rest)
  | c :: rest => c :: unescape mark rest
  | [] => []

def dropComment : List Char → List Char
  | [] => []
  | c :: rest =>
    if Text.isBlank c && (rest.dropWhile Text.isBlank).head? = some '#' then []
    else c :: dropComment rest

def value? (s : List Char) : Option (List Char × List Char) :=
  match s with
  | '\'' :: rest => (quoted? '\'' rest).map fun (text, after) => (unescape '\'' text, after)
  | '"' :: rest => (quoted? '"' rest).map fun (text, after) => (unescape '"' text, after)
  | _ =>
    let line := s.takeWhile (!isLineEnd ·)
    let text := ((dropComment line).reverse.dropWhile Text.isBlank).reverse
    some (text, s.drop line.length)

/-- What follows the end of a line, which may have a comment. -/
def afterLine? (s : List Char) : Option (List Char) :=
  let s := skipInline s
  let s := if s.head? = some '#' then s.dropWhile (!isLineEnd ·) else s
  match s with
  | [] => some []
  | '\r' :: '\n' :: rest => some rest
  | c :: rest => if isLineEnd c then some rest else none

/-- A binding as it is written: a name, and a value if there is one. -/
abbrev Binding := List Char × Option (List Char)

/-- The binding of a line, which can go on over several lines inside of quotes, and what follows it. A
line without a variable is a comment. If the line cannot be read, the place where that shows. -/
def binding (s : List Char) : Except (List Char) (Option Binding × List Char) := do
  let s := skipExport s
  let some (name, rest) := name? s | throw s
  let rest := skipInline rest
  let (value, rest) ←
    match rest with
    | '=' :: rest =>
      let rest := skipInline rest
      match value? rest with
      | some (value, rest) => pure (some value, rest)
      | none => throw rest
    | _ => pure (none, rest)
  let some after := afterLine? rest | throw rest
  return (name.map fun name => (name, value), after)

def skipLine (s : List Char) : List Char := (s.dropWhile (!isLineEnd ·)).drop 1

/-- The bindings of a text, in order. The first argument bounds the number of lines. -/
def bindings : Nat → List Char → List Binding
  | 0, _ => []
  | fuel + 1, s =>
    match s.dropWhile Text.isBlank with
    | [] => []
    | s =>
      match binding s with
      | .error place => bindings fuel (skipLine place)
      | .ok (some b, rest) => b :: bindings fuel rest
      | .ok (none, rest) => bindings fuel rest

/-- The part of a reference after its opening brace: name, default and what follows it. -/
def reference? (s : List Char) : Option (List Char × List Char × List Char) :=
  let name := s.takeWhile fun c => c ≠ '\x7d' && c ≠ ':'
  match s.drop name.length with
  | ':' :: '-' :: rest =>
    let fallback := rest.takeWhile (· ≠ '\x7d')
    match rest.drop fallback.length with
    | _ :: after => some (name, fallback, after)
    | [] => none
  | '\x7d' :: after => some (name, [], after)
  | _ => none

/-- A value with its references resolved by the texts of the names that are known. The first argument
bounds the number of steps. -/
def resolve (known : String → Option String) : Nat → List Char → List Char
  | 0, s => s
  | fuel + 1, s =>
    match s with
    | [] => []
    | '$' :: '\x7b' :: rest =>
      match reference? rest with
      | some (name, fallback, after) =>
        let value := ((known (String.ofList name)).map String.toList).getD fallback
        value ++ resolve known fuel after
      | none => '$' :: resolve known fuel ('\x7b' :: rest)
    | c :: rest => c :: resolve known fuel rest

/-- The variables of a file, with their values if they have any. A later one stands before an earlier
one of the same name. -/
abbrev Variables := List (String × Option String)

/-- The text of a name for references: a variable of the environment goes before one of the file, and one
without a value is empty. -/
def textOf? (env : Environment) (seen : Variables) (name : String) : Option String :=
  env.get? name <|> (seen.lookup name).map (·.getD "")

/-- The variables of bindings, with the references in their values resolved. -/
def resolveAll (env : Environment) : Variables → List Binding → Variables
  | seen, [] => seen
  | seen, (name, value) :: rest =>
    let text := value.map fun value => String.ofList (resolve (textOf? env seen) value.length value)
    resolveAll env ((String.ofList name, text) :: seen) rest

def plainLines : List Char → List Char
  | '\r' :: '\n' :: rest => '\n' :: plainLines rest
  | '\r' :: rest => '\n' :: plainLines rest
  | c :: rest => c :: plainLines rest
  | [] => []

def read (env : Environment) (text : String) : Variables :=
  let s := plainLines text.toList
  resolveAll env [] (bindings s.length s)

/-- The value that the last binding of a name gives it, if that has one. -/
def Variables.value? (vars : Variables) (name : String) : Option String := (vars.lookup name).join

/-- The variables that have a value, in the order in which their names first appear. -/
def Variables.entries (vars : Variables) : List (String × String) :=
  (vars.map (·.1)).reverse.eraseDups.filterMap fun name => (vars.value? name).map (name, ·)

/-- The environment with those variables that were not set before. The first one that the environment does not take
ends it, after those before it were set. -/
def addAll (env : Environment) : List (String × String) → Outcome Unit × Environment
  | [] => (.ok (), env)
  | (name, text) :: rest =>
    if (env.get? name).isSome then addAll env rest
    else
      match env.assign name text with
      | .ok env => addAll env rest
      | .error fault => (.error fault, env)

/-- Takes the variables of a file into the environment: variables that were set before keep their values. -/
def load (env : Environment) (text : String) : Outcome Unit × Environment := addAll env (read env text).entries

end Cadence.Settings.VariableFile
