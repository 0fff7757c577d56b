import Cadence.Calendar.Stamp
import Cadence.Text.Digit

/-!
# Reading ISO 8601 texts

Dates of the calendar or of the week, with or without dashes, and after them one character of any
kind, a time of day, with or without colons, and a distance from universal time. Minutes, seconds and
a fraction may be left out, and digits of a fraction after the sixth are dropped.
-/

namespace Cadence.Calendar.Iso

/-- A number of exactly two digits, and what follows. -/
def two? : List Char → Option (Nat × List Char)
  | a :: b :: rest => do return (10 * (← Text.asciiDigit? a) + (← Text.asciiDigit? b), rest)
  | _ => none

/-- A number of exactly four digits, and what follows. -/
def four? (s : List Char) : Option (Nat × List Char) := do
  let (high, rest) ← two? s
  let (low, rest) ← two? rest
  return (100 * high + low, rest)

def atEnd : List Char → Bool
  | [] => true
  | c :: _ => c = '\x00'

/-- Hours, minutes, seconds and microseconds as they were written, and whether characters were left
over after them. -/
structure Clock where
  hours : Nat
  minutes : Nat := 0
  seconds : Nat := 0
  micros : Nat := 0
  leftOver : Bool := false

def Clock.isValid (c : Clock) : Bool := c.hours < 24 && c.minutes < 60 && c.seconds < 60

def Clock.toMicros (c : Clock) : Nat :=
  (3600 * c.hours + 60 * c.minutes + c.seconds) * microsPerSecond + c.micros

/-- A fraction of a second: up to six digits count, and what follows the digits is left over. -/
def fraction? (c : Clock) (s : List Char) : Option Clock :=
  let digits := s.take 6
  if s.isEmpty || !digits.all Text.isAsciiDigit then none
  else some { c with
    micros := Text.decimalValue digits * Nat.pow 10 (6 - digits.length)
    leftOver := !atEnd ((s.drop 6).dropWhile Text.isAsciiDigit) }

/-- What follows a number of two digits: `next` reads what comes after the separator. One last ASCII
character of any kind is left over. -/
def afterPair (colons : Bool) (c : Clock) (next : List Char → Option Clock) :
    List Char → Option Clock
  | [] => some c
  | [d] => if d.toNat < 128 then some { c with leftOver := d ≠ '\x00' } else none
  | d :: rest =>
    if colons && d = ':' then next rest
    else if d = '.' ∨ d = ',' then fraction? c rest
    else if colons then none
    else next (d :: rest)

/-- A time of day. Whether the parts are separated is decided by the first separator. -/
def clock? (s : List Char) : Option Clock := do
  let (hours, rest) ← two? s
  let colons := rest.head? = some ':'
  afterPair colons { hours } (fun rest => do
    let (minutes, rest) ← two? rest
    afterPair colons { hours, minutes } (fun rest => do
      let (seconds, rest) ← two? rest
      let c : Clock := { hours, minutes, seconds }
      afterPair colons c (fraction? c) rest) rest) rest

/-- Whether a character begins the distance from universal time. -/
def beginsZone (c : Char) : Bool := c = '+' || c = '-' || c = 'Z'

/-- The distance from universal time, if one is given. A fraction of a second by itself is none. -/
def zone? (leftOver : Bool) : List Char → Option (Option Int)
  | [] => if leftOver then none else some none
  | 'Z' :: rest => if atEnd rest then some (some 0) else none
  | sign :: rest => do
    let z ← clock? rest
    let micros := if z.toMicros - z.micros = 0 then 0 else z.toMicros
    if !z.leftOver && micros < microsPerDay then
      some (some (if sign = '-' then -(micros : Int) else micros))
    else none

/-- A time of day with its distance from universal time, if one is given. -/
def time? (s : List Char) : Option (Nat × Option Int) := do
  let c ← clock? (s.takeWhile (!beginsZone ·))
  let offset ← zone? c.leftOver (s.dropWhile (!beginsZone ·))
  if c.isValid then some (c.toMicros, offset) else none

/-- The length of the date at the head of a text, which ends where the separator stands. -/
def dateLength (s : List Char) : Nat :=
  let digitAt (i : Nat) : Bool := (s[i]?.map Text.isAsciiDigit).getD false
  if s.length = 7 then 7
  else if s[4]? = some '-' then
    if s[5]? = some 'W' then
      if s[8]? = some '-' then (if digitAt 10 then 8 else 10) else 8
    else 10
  else if s[4]? = some 'W' then
    let digits := ((s.drop 7).takeWhile Text.isAsciiDigit).length
    if digits < 2 then 7 + digits else if digits % 2 = 1 then 7 else 8
  else 8

/-- What follows the dash, if the parts of the date are separated by dashes. -/
def afterDash (dashes : Bool) (s : List Char) : Option (List Char) :=
  if dashes then (if s.head? = some '-' then some (s.drop 1) else none) else some s

/-- A week of a year and, unless it is the first one, a day of the week. -/
def weekDate? (dashes : Bool) (year : Nat) (s : List Char) : Option Nat := do
  let (week, rest) ← two? s
  if rest.isEmpty then dayOfWeekDate? year week 1
  else
    match ← afterDash dashes rest with
    | [d] => dayOfWeekDate? year week (← Text.asciiDigit? d)
    | _ => none

/-- A month of a year and a day of the month. -/
def monthDate? (dashes : Bool) (year : Nat) (s : List Char) : Option Nat := do
  let (month, rest) ← two? s
  let (day, rest) ← two? (← afterDash dashes rest)
  let d : Date := ⟨year, month, day⟩
  if rest.isEmpty && d.isValid then some d.toDays else none

/-- A date. Whether its parts are separated is decided by what follows the year. -/
def date? (s : List Char) : Option Nat := do
  let (year, rest) ← four? s
  let dashes := rest.head? = some '-'
  match if dashes then rest.drop 1 else rest with
  | 'W' :: rest => weekDate? dashes year rest
  | rest => monthDate? dashes year rest

def stamp? (s : List Char) : Option Stamp := do
  let n := dateLength s
  let day ← date? (s.take n)
  match s.drop n with
  | [] => some ⟨(day * microsPerDay : Nat), none⟩
  | _ :: rest =>
    let (micros, offset) ← time? rest
    some ⟨(day * microsPerDay + micros : Nat), offset⟩

end Cadence.Calendar.Iso

namespace Cadence

def Stamp.ofText? (s : String) : Option Stamp := Calendar.Iso.stamp? s.toList

end Cadence
