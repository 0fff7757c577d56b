import Cadence.Json.Reader
import Cadence.Number.Reading
import Cadence.Schema.Checked
import Cadence.Text.LowerCase

/-!
# Numbers and truth values in data

Numbers and truth values are also taken from texts, and from each other where nothing is lost.
-/

namespace Cadence.Schema

def isSpace (c : Char) : Bool := Text.isBlank c && !('\x1c' ≤ c && c ≤ '\x1f')

def trimmed (s : String) : List Char :=
  ((s.toList.dropWhile isSpace).reverse.dropWhile isSpace).reverse

def dropZeroFraction (s : List Char) : List Char :=
  match s.dropWhile (· ≠ '.') with
  | '.' :: zeros => if zeros.all (· = '0') then s.takeWhile (· ≠ '.') else s
  | _ => s

/-- The natural number that digits denote, with single underscores between them. -/
def digits? (s : List Char) : Option Nat :=
  match Binary64.dropUnderscores false s with
  | some digits =>
    if digits.isEmpty || !digits.all Text.isAsciiDigit then none else some (Text.decimalValue digits)
  | none => none

def integerOfText? (s : String) : Option Int :=
  match dropZeroFraction (trimmed s) with
  | '-' :: rest => (digits? rest).map fun n => -(n : Int)
  | '+' :: rest => (digits? rest).map fun n => (n : Int)
  | rest => (digits? rest).map fun n => (n : Int)

def isMachineSized (i : Int) : Bool := -Int.pow 2 63 < i && i < Int.pow 2 63

def integer : Json → Checked Int
  | .int i => .valid i
  | .bool b => .valid (if b then 1 else 0)
  | .float x =>
    match x.truncate? with
    | none => .complain .integerFinite
    | some i =>
      if !x.isWhole then .complain .integerFraction
      else if isMachineSized i then .valid i
      else .complain .integerSize
  | .str s =>
    if (trimmed s).length > Json.maxNumeralDigits then .complain .integerSize
    else
      match integerOfText? s with
      | some i => .valid i
      | none => .complain .integerText
  | _ => .complain .integer

def integerFrom (least : Int) (v : Json) : Checked Int :=
  (integer v).andThen fun i => if i < least then .complain (.atLeast least) else .valid i

/-- A floating-point number. Texts denote numbers with ASCII digits only, and no integer beyond the format is taken. -/
def number : Json → Checked Binary64
  | .float x => .valid x
  | .int i => if (Binary64.ofInt i).isFinite then .valid (.ofInt i) else .complain .number
  | .bool b => .valid (.ofInt (if b then 1 else 0))
  | .str s =>
    match (Binary64.dropUnderscores false (trimmed s)).bind Binary64.readSigned? with
    | some x => .valid x
    | none => .complain .numberText
  | _ => .complain .number

def truthOfText? (s : String) : Option Bool :=
  let word := String.ofList (s.toList.map Char.toLower)
  if ["1", "on", "t", "true", "y", "yes"].contains word then some true
  else if ["0", "off", "f", "false", "n", "no"].contains word then some false
  else none

def truthOfInt? (i : Int) : Option Bool :=
  if i = 0 then some false else if i = 1 then some true else none

/-- The truth value of a number, or a complaint. -/
def truthOfInt (i : Int) : Checked Bool :=
  match truthOfInt? i with
  | some b => .valid b
  | none => .complain .booleanText

def truth : Json → Checked Bool
  | .bool b => .valid b
  | .str s =>
    match truthOfText? s with
    | some b => .valid b
    | none => .complain .booleanText
  | .int i => if isMachineSized i || i = -Int.pow 2 63 then truthOfInt i else .complain .boolean
  | .float x =>
    match x.truncate? with
    | none => .complain .boolean
    | some i => if x.isWhole && isMachineSized i then truthOfInt i else .complain .boolean
  | _ => .complain .boolean

end Cadence.Schema
