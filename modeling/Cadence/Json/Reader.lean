import Cadence.Json.Basic
import Cadence.Number.Reading

/-!
# Reading JSON text

A reader for the JSON grammar, with the names `NaN`, `Infinity` and `-Infinity` as numbers besides.
A numeral with a fraction or an exponent is a floating-point number, any other a whole number. Of
members with one name the last value counts. What is refused is told with its position in the text. Lists
and objects are followed into each other up to a given depth.
-/

namespace Cadence.Json

inductive SyntaxError.Cause where
  | expectedValue
  | expectedName
  | expectedColon
  | expectedComma
  | extraData
  | unterminatedText
  | controlCharacter
  | badEscape
  | badCodePoint
  | numeralTooLong (digits : Nat)
  | listTooDeep
  | objectTooDeep
deriving DecidableEq, Repr

/-- A refused text: the cause and the number of characters before the place. -/
structure SyntaxError where
  cause : SyntaxError.Cause
  position : Nat
deriving DecidableEq, Repr

namespace Reader

/-- A step of the reader gives its result with the characters that follow, or fails at some of
them. -/
abbrev Step (α : Type) := Except (SyntaxError.Cause × List Char) (α × List Char)

def skipSpace : List Char → List Char
  | [] => []
  | c :: rest =>
    if c = ' ' ∨ c = '\t' ∨ c = '\n' ∨ c = '\r' then skipSpace rest else c :: rest

def codeUnit? (a b c d : Char) : Option Nat := do
  return 4096 * (← Text.hexValue? a) + 256 * (← Text.hexValue? b) + 16 * (← Text.hexValue? c) +
    (← Text.hexValue? d)

/-- The character of a code unit and the one after it, if they are a pair of surrogates. -/
def surrogatePair? (high : Nat) (next : Option Nat) : Option Char := do
  let low ← next
  if 0xD800 ≤ high ∧ high ≤ 0xDBFF ∧ 0xDC00 ≤ low ∧ low ≤ 0xDFFF then
    some (Char.ofNat (0x10000 + 0x400 * (high - 0xD800) + (low - 0xDC00)))
  else none

/-- The character of a single code unit; a lone surrogate stands for no character. -/
def unitChar (n : Nat) : Char :=
  if 0xD800 ≤ n ∧ n ≤ 0xDFFF then '\ufffd' else Char.ofNat n

def escape? (c : Char) : Option Char :=
  if c = '"' ∨ c = '\\' ∨ c = '/' then some c
  else if c = 'b' then some '\x08'
  else if c = 'f' then some '\x0c'
  else if c = 'n' then some '\n'
  else if c = 'r' then some '\r'
  else if c = 't' then some '\t'
  else none

/-- The rest of a text after its opening quote; `start` is the text from the quote on, and `read`
holds the characters so far in reverse. A code point escape has to be followed by something. -/
def textBody (start : List Char) (read : List Char) : List Char → Step String
  | [] => .error (.unterminatedText, start)
  | '"' :: rest => .ok (String.ofList read.reverse, rest)
  | '\\' :: 'u' :: a :: b :: c :: d :: '\\' :: 'u' :: e :: f :: g :: h :: rest =>
    match codeUnit? a b c d with
    | none => .error (.badCodePoint, 'u' :: a :: b :: c :: d :: '\\' :: 'u' :: e :: f :: g :: h :: rest)
    | some high =>
      match surrogatePair? high (codeUnit? e f g h) with
      | none => textBody start (unitChar high :: read) ('\\' :: 'u' :: e :: f :: g :: h :: rest)
      | some joined =>
        match rest with
        | [] => .error (.badCodePoint, ['u', e, f, g, h])
        | next :: rest => textBody start (joined :: read) (next :: rest)
  | '\\' :: 'u' :: a :: b :: c :: d :: rest =>
    match codeUnit? a b c d, rest with
    | none, _ | some _, [] => .error (.badCodePoint, 'u' :: a :: b :: c :: d :: rest)
    | some n, next :: rest => textBody start (unitChar n :: read) (next :: rest)
  | '\\' :: 'u' :: rest => .error (.badCodePoint, 'u' :: rest)
  | ['\\'] => .error (.unterminatedText, start)
  | '\\' :: c :: rest =>
    match escape? c with
    | some d => textBody start (d :: read) rest
    | none => .error (.badEscape, '\\' :: c :: rest)
  | c :: rest =>
    if c.toNat < 0x20 then .error (.controlCharacter, c :: rest)
    else textBody start (c :: read) rest
termination_by s => s.length

/-- A fraction `.digits` and what follows; nothing is taken if no digit follows the point. -/
def fraction : List Char → List Char × List Char
  | '.' :: rest =>
    let digits := rest.takeWhile Text.isAsciiDigit
    if digits.isEmpty then ([], '.' :: rest) else (digits, rest.dropWhile Text.isAsciiDigit)
  | rest => ([], rest)

/-- An exponent and what follows; nothing is taken if it has no digit. -/
def exponent : List Char → Option Int × List Char
  | e :: rest =>
    if e = 'e' ∨ e = 'E' then
      let (negative, after) :=
        match rest with
        | '-' :: r => (true, r)
        | '+' :: r => (false, r)
        | r => (false, r)
      let digits := after.takeWhile Text.isAsciiDigit
      if digits.isEmpty then (none, e :: rest)
      else
        let n : Int := Text.decimalValue digits
        (some (if negative then -n else n), after.dropWhile Text.isAsciiDigit)
    else (none, e :: rest)
  | [] => (none, [])

/-- A numeral; `start` is the text from its sign on. -/
def numeral (start : List Char) (negative : Bool) (s : List Char) : Step Json :=
  let (whole, rest) :=
    match s with
    | '0' :: r => (['0'], r)
    | r => (r.takeWhile Text.isAsciiDigit, r.dropWhile Text.isAsciiDigit)
  if whole.isEmpty then .error (.expectedValue, start)
  else
    let (frac, rest) := fraction rest
    let (power, rest) := exponent rest
    if frac.isEmpty && power.isNone then
      if whole.length > maxNumeralDigits then .error (.numeralTooLong whole.length, start)
      else
        let n : Int := Text.decimalValue whole
        .ok (int (if negative then -n else n), rest)
    else
      .ok (float (.ofDecimal negative (Text.decimalValue (whole ++ frac))
        (power.getD 0 - frac.length)), rest)

def scalar (s : List Char) : Step Json :=
  match s with
  | 'n' :: 'u' :: 'l' :: 'l' :: rest => .ok (null, rest)
  | 't' :: 'r' :: 'u' :: 'e' :: rest => .ok (bool true, rest)
  | 'f' :: 'a' :: 'l' :: 's' :: 'e' :: rest => .ok (bool false, rest)
  | 'N' :: 'a' :: 'N' :: rest => .ok (float .nan, rest)
  | 'I' :: 'n' :: 'f' :: 'i' :: 'n' :: 'i' :: 't' :: 'y' :: rest => .ok (float (.infinite false), rest)
  | '-' :: 'I' :: 'n' :: 'f' :: 'i' :: 'n' :: 'i' :: 't' :: 'y' :: rest =>
    .ok (float (.infinite true), rest)
  | '-' :: rest => numeral s true rest
  | s => numeral s false s

mutual

/-- A value at the head of the text, with at most `depth` lists and objects in each other. The first number
bounds the steps; twice the length of the text is enough. -/
def value : Nat → Nat → List Char → Step Json
  | 0, _, s => .error (.expectedValue, s)
  | fuel + 1, depth, s =>
    match s with
    | '"' :: rest => (textBody s [] rest).map fun (text, rest) => (str text, rest)
    | '[' :: rest =>
      match depth, skipSpace rest with
      | 0, _ => .error (.listTooDeep, s)
      | _ + 1, ']' :: rest => .ok (arr [], rest)
      | depth + 1, rest => items fuel depth [] rest
    | '{' :: rest =>
      match depth, skipSpace rest with
      | 0, _ => .error (.objectTooDeep, s)
      | _ + 1, '}' :: rest => .ok (obj [], rest)
      | depth + 1, rest => members fuel depth [] rest
    | s => scalar s

/-- The items of a list up to its closing bracket; `read` holds those so far in reverse. -/
def items : Nat → Nat → List Json → List Char → Step Json
  | 0, _, _, s => .error (.expectedValue, s)
  | fuel + 1, depth, read, s =>
    match value fuel depth s with
    | .error e => .error e
    | .ok (v, rest) =>
      match skipSpace rest with
      | ']' :: rest => .ok (arr (v :: read).reverse, rest)
      | ',' :: rest => items fuel depth (v :: read) (skipSpace rest)
      | rest => .error (.expectedComma, rest)

def members : Nat → Nat → Members → List Char → Step Json
  | 0, _, _, s => .error (.expectedValue, s)
  | fuel + 1, depth, read, s =>
    match s with
    | '"' :: rest =>
      match textBody s [] rest with
      | .error e => .error e
      | .ok (name, rest) =>
        match skipSpace rest with
        | ':' :: rest =>
          match value fuel depth (skipSpace rest) with
          | .error e => .error e
          | .ok (v, rest) =>
            match skipSpace rest with
            | '}' :: rest => .ok (obj (Members.set read name v), rest)
            | ',' :: rest => members fuel depth (Members.set read name v) (skipSpace rest)
            | rest => .error (.expectedComma, rest)
        | rest => .error (.expectedColon, rest)
    | s => .error (.expectedName, s)

end

end Reader

def Reader.document (depth : Nat) (s : List Char) : Except (SyntaxError.Cause × List Char) Json :=
  match Reader.value (2 * s.length + 2) depth (Reader.skipSpace s) with
  | .error e => .error e
  | .ok (v, rest) =>
    match Reader.skipSpace rest with
    | [] => .ok v
    | rest => .error (.extraData, rest)

/-- Reads a text with at most `depth` lists and objects in each other. -/
def readWithin (depth : Nat) (s : String) : Except SyntaxError Json :=
  (Reader.document depth s.toList).mapError fun (cause, rest) =>
    ⟨cause, s.toList.length - rest.length⟩

/-- Reads a text however deep it goes. -/
def read (s : String) : Except SyntaxError Json := readWithin s.toList.length s

end Cadence.Json
