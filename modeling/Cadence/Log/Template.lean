import Cadence.Fault
import Cadence.Json.Equality
import Cadence.Json.Written
import Cadence.Number.Rounded
import Cadence.Number.Shortest
import Cadence.Text.Digit

/-!
# Message templates

A template has slots for values, each a percent sign with a conversion letter. Between the two there can
be a name in parentheses, flags, a least width and a precision, where an asterisk takes a number from
the values. Values are taken in order, or by name; a value by name is the only one left after it.
-/

namespace Cadence.Log.Template

/-- The values of a template: in order, or by name. -/
inductive Arguments where
  | listed (items : List Json)
  | named (members : Members)

structure Slot where
  flags : List Char := []
  width : Nat := 0
  precision : Option Nat := none

def Slot.has (s : Slot) (flag : Char) : Bool := s.flags.contains flag

def misfit (message : String) : Fault := .other "TypeError" message

def malformed (message : String) : Fault := .other "ValueError" message

def outOfRange (message : String) : Fault := .other "OverflowError" message

/-! ### Laying out values -/

/-- Text in a slot: filled up to the width. -/
def padText (s : Slot) (text : List Char) : List Char :=
  let fill := List.replicate (s.width - text.length) ' '
  if s.has '-' then text ++ fill else fill ++ text

/-- Text in a slot: cut to the precision and filled up to the width. -/
def cutText (s : Slot) (text : List Char) : List Char :=
  padText s (text.take (s.precision.getD text.length))

/-- A number in a slot: its sign, the mark of its base, and its digits filled up to the width. -/
def padNumber (s : Slot) (negative : Bool) (mark digits : List Char) : List Char :=
  let sign := if negative then ['-'] else if s.has '+' then ['+'] else if s.has ' ' then [' '] else []
  let head := sign ++ mark
  let fill := s.width - (head.length + digits.length)
  if s.has '-' then head ++ digits ++ List.replicate fill ' '
  else if s.has '0' then head ++ List.replicate fill '0' ++ digits
  else List.replicate fill ' ' ++ head ++ digits

def leastDigits (s : Slot) (digits : List Char) : List Char :=
  List.replicate (s.precision.getD 0 - digits.length) '0' ++ digits

def decimalText (s : Slot) (i : Int) : List Char :=
  padNumber s (i < 0) [] (leastDigits s (Nat.toDigits 10 i.natAbs))

/-- An octal or hexadecimal whole number in a slot. The base is marked if the slot has the flag for
it. -/
def basedText (s : Slot) (conversion : Char) (i : Int) : List Char :=
  let digits := Nat.toDigits (if conversion = 'o' then 8 else 16) i.natAbs
  padNumber s (i < 0) (if s.has '#' then ['0', conversion] else [])
    (leastDigits s (if conversion = 'X' then digits.map Char.toUpper else digits))

/-- The digits after a point; without digits there is a point only if it is kept. -/
def pointText (keep : Bool) (digits : List Char) : List Char :=
  if digits.isEmpty && !keep then [] else '.' :: digits

/-- A quotient with so many digits after the point, rounded to the even one of two. -/
def fixedText (keepPoint : Bool) (precision num den : Nat) : List Char :=
  let scaled := roundHalfEven (num * Nat.pow 10 precision) den
  let fraction := Nat.toDigits 10 (scaled % Nat.pow 10 precision)
  Nat.toDigits 10 (scaled / Nat.pow 10 precision) ++
    pointText keepPoint
      (if precision = 0 then [] else List.replicate (precision - fraction.length) '0' ++ fraction)

def exponentText (keepPoint : Bool) (digits : List Char) (power : Int) : List Char :=
  digits.take 1 ++ pointText keepPoint (digits.drop 1) ++ Rounded.exponent power

/-- So many digits of a quotient in scientific notation, or without an exponent if they can be read
without. Zeros at the end of the fraction are dropped unless the point is kept. -/
def generalText (keepPoint : Bool) (precision num den : Nat) : List Char :=
  let count := max precision 1
  let (digits, power) := Rounded.digits roundHalfEven count num den
  let shortened := if keepPoint then id else Rounded.withoutZeros
  if -4 ≤ power ∧ power < count then
    let (whole, fraction) := Rounded.aroundPoint digits power
    whole ++ pointText keepPoint (shortened fraction)
  else exponentText keepPoint (digits.take 1 ++ shortened (digits.drop 1)) power

def floatText (s : Slot) (conversion : Char) (x : Binary64) : List Char :=
  let precision := s.precision.getD 6
  let small := conversion.toLower
  let digits :=
    match x.ratio? with
    | none => if x = .nan then ['n', 'a', 'n'] else ['i', 'n', 'f']
    | some (num, den) =>
      let num := num.natAbs
      if small = 'f' then fixedText (s.has '#') precision num den
      else if small = 'e' then
        let (digits, power) := Rounded.digits roundHalfEven (precision + 1) num den
        exponentText (s.has '#') digits power
      else generalText (s.has '#') precision num den
  padNumber s x.isNegative [] (if conversion = small then digits else digits.map Char.toUpper)

def asciiLiteral (v : Json) : List Char :=
  v.literal.toList.flatMap fun c => if c.toNat < 128 then [c] else (Fault.escapedCharacter c).toList

def integer? : Json → Option Int
  | .int i => some i
  | .bool b => some (if b then 1 else 0)
  | _ => none

/-- The character that a value stands for: a text of one character, or a code point. -/
def character (v : Json) : Outcome Char :=
  let unfit := misfit "%c requires int or char"
  match v with
  | .str text =>
    match text.toList with
    | [c] => .ok c
    | _ => .error unfit
  | v =>
    match integer? v with
    | none => .error unfit
    | some i =>
      if 0 ≤ i ∧ i < 0x110000 then .ok (Char.ofNat i.toNat)
      else .error (outOfRange "%c arg not in range(0x110000)")

/-- A form of a value, unless the value has no text. -/
def ofWritable (v : Json) (form : List Char) : Outcome (List Char) :=
  if v.isWritable then .ok form else .error .integerTooLong

def convert (s : Slot) (conversion : Char) (position : Nat) (v : Json) : Outcome (List Char) :=
  let letter := conversion.toString
  if conversion = 's' then ofWritable v (cutText s v.display.toList)
  else if conversion = 'r' then ofWritable v (cutText s v.literal.toList)
  else if conversion = 'a' then ofWritable v (cutText s (asciiLiteral v))
  else if ['d', 'i', 'u'].contains conversion then
    match v.numeral? with
    | some (.whole i) => ofWritable v (decimalText s i)
    | some (.binary x) =>
      match x.truncate? with
      | some i => .ok (decimalText s i)
      | none =>
        if x = .nan then .error (malformed "cannot convert float NaN to integer")
        else .error (outOfRange "cannot convert float infinity to integer")
    | none => .error (misfit ("%" ++ letter ++ " format: a real number is required, not " ++ v.typeName))
  else if ['x', 'X', 'o'].contains conversion then
    match v.numeral? with
    | some (.whole i) => .ok (basedText s conversion i)
    | _ => .error (misfit ("%" ++ letter ++ " format: an integer is required, not " ++ v.typeName))
  else if ['e', 'E', 'f', 'F', 'g', 'G'].contains conversion then
    match v.numeral? with
    | some (.whole i) =>
      if (Binary64.ofInt i).isFinite then .ok (floatText s conversion (.ofInt i))
      else .error .numberTooLarge
    | some (.binary x) => .ok (floatText s conversion x)
    | none => .error (misfit ("must be real number, not " ++ v.typeName))
  else if conversion = 'c' then (character v).map fun c => padText s [c]
  else
    let shown := if 31 ≤ conversion.toNat ∧ conversion.toNat ≤ 126 then letter else "?"
    .error (malformed ("unsupported format character '" ++ shown ++ "' (0x" ++
      String.ofList (Nat.toDigits 16 conversion.toNat) ++ ") at index " ++ toString position))

/-! ### Reading slots -/

/-- The next value, and those after it. -/
def nextValue : List Json → Outcome (Json × List Json)
  | v :: left => .ok (v, left)
  | [] => .error (misfit "not enough arguments for format string")

/-- The name in parentheses at the head of a text, without its opening parenthesis, and what follows
it; the first argument counts the parentheses that are open. -/
def nameAtHead? : Nat → List Char → Option (List Char × List Char)
  | _, [] => none
  | depth, c :: rest =>
    if c = ')' ∧ depth = 0 then some ([], rest)
    else
      let depth := if c = '(' then depth + 1 else if c = ')' then depth - 1 else depth
      (nameAtHead? depth rest).map fun (name, after) => (c :: name, after)

/-- What is left of values and template after a name: the value of that name alone. -/
def enterName (args : Arguments) (left : List Json) : List Char → Outcome (List Json × List Char)
  | '(' :: rest =>
    match args with
    | .listed _ => .error (misfit "format requires a mapping")
    | .named members =>
      match nameAtHead? 0 rest with
      | none => .error (malformed "incomplete format key")
      | some (name, rest) =>
        let name := String.ofList name
        match members.get? name with
        | some v => .ok ([v], rest)
        | none => .error (.other "KeyError" (Text.quote name))
  | s => .ok (left, s)

/-- A measure of a slot: the bits that its number can have, and the names that errors use. -/
structure Measure where
  bits : Nat
  name : String
  machineType : String

def Measure.width : Measure := ⟨63, "width", "ssize_t"⟩

def Measure.precision : Measure := ⟨31, "precision", "int"⟩

/-- The number of a measure at the head of the template, if there is one, and what is left of values
and template. -/
def measureAtHead (m : Measure) (left : List Json) (s : List Char) :
    Outcome (Option Int × List Json × List Char) :=
  match s with
  | '*' :: rest => do
    let (v, left) ← nextValue left
    match integer? v with
    | none => throw (misfit "* wants int")
    | some i =>
      if -Int.pow 2 m.bits ≤ i ∧ i < Int.pow 2 m.bits then return (some i, left, rest)
      else throw (outOfRange ("Python int too large to convert to C " ++ m.machineType))
  | s =>
    let digits := s.takeWhile Text.isAsciiDigit
    let n := Text.decimalValue digits
    if digits.isEmpty then .ok (none, left, s)
    else if n < Nat.pow 2 m.bits then .ok (some n, left, s.drop digits.length)
    else .error (malformed (m.name ++ " too big"))

/-- The precision after a point; a negative one is none at all, and nothing after the point is zero. -/
def precisionAtHead (left : List Json) : List Char → Outcome (Option Nat × List Json × List Char)
  | '.' :: rest => do
    let (n, left, rest) ← measureAtHead .precision left rest
    return (some (n.getD 0).toNat, left, rest)
  | s => .ok (none, left, s)

def isFlag (c : Char) : Bool := ['-', '+', ' ', '#', '0'].contains c

/-- The template without a letter for the size of a number, which says nothing. -/
def dropSize : List Char → List Char
  | c :: rest => if ['h', 'l', 'L'].contains c then rest else c :: rest
  | [] => []

/-- The slot after a percent sign, and what is left of values and template. A negative width stands for
the flag of the left side. -/
def slotAtHead (args : Arguments) (left : List Json) (s : List Char) :
    Outcome (Slot × List Json × List Char) := do
  let (left, s) ← enterName args left s
  let flags := s.takeWhile isFlag
  let (width, left, s) ← measureAtHead .width left (s.drop flags.length)
  let (precision, left, s) ← precisionAtHead left s
  let width := width.getD 0
  let flags := if width < 0 then '-' :: flags else flags
  return (⟨flags, width.natAbs, precision⟩, left, dropSize s)

/-- The template with its values in place, and the values that are left. The number bounds the steps; the
length of the template is enough, and positions are counted by it. -/
def expand (args : Arguments) (total : Nat) :
    Nat → List Char → List Json → Outcome (List Char × List Json)
  | 0, _, left | _, [], left => .ok ([], left)
  | fuel + 1, '%' :: '%' :: rest, left => do
    let (text, left) ← expand args total fuel rest left
    return ('%' :: text, left)
  | fuel + 1, '%' :: rest, left => do
    let (slot, left, rest) ← slotAtHead args left rest
    match rest with
    | [] => throw (malformed "incomplete format")
    | conversion :: after =>
      let (v, left) ← nextValue left
      let shown ← convert slot conversion (total - rest.length) v
      let (text, left) ← expand args total fuel after left
      return (shown ++ text, left)
  | fuel + 1, c :: rest, left => do
    let (text, left) ← expand args total fuel rest left
    return (c :: text, left)

/-- The template with its values in place. Values in order have to be used up. -/
def fill (template : String) (args : Arguments) : Outcome String := do
  let chars := template.toList
  match args with
  | .listed items =>
    let (text, left) ← expand args chars.length chars.length chars items
    if left.isEmpty then return String.ofList text
    throw (misfit "not all arguments converted during string formatting")
  | .named members =>
    let (text, _) ← expand args chars.length chars.length chars [.obj members]
    return String.ofList text

/-! ### Templates of log lines -/

def dropAmount : List Char → List Char
  | '*' :: rest => rest
  | s => s.dropWhile Text.isAsciiDigit

/-- Whether a text has a slot for a value by name at its head, without its percent sign: the name is of
letters, digits and underscores, and there is no size. -/
def isNamedSlot : List Char → Bool
  | '(' :: rest =>
    let name := rest.takeWhile fun c => c.isAlphanum || c = '_'
    match rest.drop name.length with
    | ')' :: rest =>
      let rest := dropAmount (rest.dropWhile isFlag)
      let rest :=
        match rest with
        | '.' :: after => if (dropAmount after).length < after.length then dropAmount after else rest
        | rest => rest
      match rest with
      | conversion :: _ => !name.isEmpty && "diouxefgcrsa%".toList.contains conversion.toLower
      | [] => false
    | _ => false
  | _ => false

def hasNamedSlot : List Char → Bool
  | [] => false
  | c :: rest => (c = '%' && isNamedSlot rest) || hasNamedSlot rest

end Cadence.Log.Template
