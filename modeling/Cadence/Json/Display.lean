import Cadence.Json.Basic
import Cadence.Number.Shortest
import Cadence.Text.Printable

/-!
# The display form of values

Values of any kind can stand where a text is expected, such as a recipient given as a number. They
are then shown in their display form: a text as itself, and inside lists and objects as a quoted
literal.
-/

namespace Cadence

/-- The digits of a number in lower-case hexadecimal, at least `width` of them. -/
def hexDigits (width n : Nat) : List Char :=
  let digits := Nat.toDigits 16 n
  List.replicate (width - digits.length) '0' ++ digits

namespace Text

/-- A character inside a literal that is quoted by `quote`. -/
def quoteChar (quote c : Char) : List Char :=
  if c = quote ∨ c = '\\' then ['\\', c]
  else if c = '\t' then ['\\', 't']
  else if c = '\n' then ['\\', 'n']
  else if c = '\r' then ['\\', 'r']
  else if isPrintable c then [c]
  else if c.toNat < 0x100 then '\\' :: 'x' :: hexDigits 2 c.toNat
  else if c.toNat < 0x10000 then '\\' :: 'u' :: hexDigits 4 c.toNat
  else '\\' :: 'U' :: hexDigits 8 c.toNat

/-- The text as a literal: in single quotes, unless it holds single quotes and no double ones. -/
def quote (s : String) : String :=
  let chars := s.toList
  let mark := if chars.contains '\'' && !chars.contains '"' then '"' else '\''
  String.ofList (mark :: chars.flatMap (quoteChar mark) ++ [mark])

end Text

namespace Json

mutual

def literal : Json → String
  | null => "None"
  | bool true => "True"
  | bool false => "False"
  | int i => toString i
  | float x => x.text
  | str s => Text.quote s
  | arr items => "[" ++ literalItems items ++ "]"
  | obj members => "\x7b" ++ literalMembers members ++ "\x7d"

/-- The items of a list, separated by commas. -/
def literalItems : List Json → String
  | [] => ""
  | [v] => literal v
  | v :: w :: rest => literal v ++ ", " ++ literalItems (w :: rest)

/-- The members of an object, separated by commas. -/
def literalMembers : List (String × Json) → String
  | [] => ""
  | [(name, v)] => Text.quote name ++ ": " ++ literal v
  | (name, v) :: m :: rest => Text.quote name ++ ": " ++ literal v ++ ", " ++ literalMembers (m :: rest)

end

def display : Json → String
  | str s => s
  | v => v.literal

/-- The display form of a value that is given, and the empty text for one that is not. -/
def displayGiven (v : Json) : String := if v.isGiven then v.display else ""

def typeName : Json → String
  | null => "NoneType"
  | bool _ => "bool"
  | int _ => "int"
  | float _ => "float"
  | str _ => "str"
  | arr _ => "list"
  | obj _ => "dict"

end Json

end Cadence
