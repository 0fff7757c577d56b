import Cadence.Calendar.Iso
import Cadence.Schema.Scalar

/-!
# Points in time in data

A stamp is written as a date, or as a date and a time with an optional distance from universal time, in
full and with separators, or else as the number of seconds since the start of 1970; numbers too great for
that are milliseconds.
-/

namespace Cadence.Schema

open Calendar

/-- A date at the head of a text, and what follows it. -/
def dateAtHead (s : List Char) : Except String (Date × List Char) :=
  if s.length < 10 then .error "input is too short"
  else
    match Iso.four? s with
    | none => .error "invalid character in year"
    | some (_, []) => .error "input is too short"
    | some (year, dash :: s) =>
      if dash ≠ '-' then .error "invalid date separator, expected \x60-\x60"
      else
        match Iso.two? s with
        | none => .error "invalid character in month"
        | some (_, []) => .error "input is too short"
        | some (month, dash :: s) =>
          if dash ≠ '-' then .error "invalid date separator, expected \x60-\x60"
          else
            match Iso.two? s with
            | none => .error "invalid character in day"
            | some (day, rest) =>
              if month = 0 ∨ 12 < month then .error "month value is outside expected range of 1-12"
              else if day = 0 ∨ monthDays year month < day then
                .error "day value is outside expected range"
              else .ok (⟨year, month, day⟩, rest)

/-- Hours and minutes within a day, as minutes, and what follows them. -/
def hoursAndMinutes? (colonNeeded : Bool) (s : List Char) : Option (Nat × List Char) := do
  let (hours, rest) ← Iso.two? s
  let rest ←
    match rest with
    | ':' :: rest => some rest
    | rest => if colonNeeded then none else some rest
  let (minutes, rest) ← Iso.two? rest
  if hours < 24 ∧ minutes < 60 then some (60 * hours + minutes, rest) else none

/-- The microseconds of a fraction of a second, and what follows it; digits after the sixth are
dropped. -/
def fractionAtHead? (s : List Char) : Option (Nat × List Char) :=
  match s with
  | sep :: rest =>
    if sep = '.' ∨ sep = ',' then
      let digits := rest.takeWhile Text.isAsciiDigit
      if digits.isEmpty then none
      else
        let kept := digits.take 6
        some (Text.decimalValue kept * Nat.pow 10 (6 - kept.length), rest.drop digits.length)
    else some (0, s)
  | [] => some (0, [])

/-- A time of day in microseconds, and what follows it. -/
def timeAtHead? (s : List Char) : Option (Nat × List Char) := do
  let (minutes, rest) ← hoursAndMinutes? true s
  match rest with
  | ':' :: rest =>
    let (seconds, rest) ← Iso.two? rest
    let (micros, rest) ← fractionAtHead? rest
    if seconds < 60 then some ((60 * minutes + seconds) * microsPerSecond + micros, rest) else none
  | rest => some (60 * minutes * microsPerSecond, rest)

def zone? : List Char → Option (Option Int)
  | [] => some none
  | ['Z'] | ['z'] => some (some 0)
  | sign :: rest =>
    match hoursAndMinutes? false rest with
    | some (minutes, []) =>
      let micros : Int := (60 * minutes * microsPerSecond : Nat)
      if sign = '+' then some (some micros)
      else if sign = '-' ∨ sign = '\u2212' then some (some (-micros))
      else none
    | _ => none

def fullStamp? (s : List Char) : Option Stamp := do
  let (date, rest) ← (dateAtHead s).toOption
  match rest with
  | sep :: rest =>
    if ['T', 't', ' ', '_'].contains sep then
      let (micros, rest) ← timeAtHead? rest
      some ⟨(date.toDays * microsPerDay + micros : Nat), ← zone? rest⟩
    else none
  | [] => none

def epoch : Instant := ⟨(daysBeforeYear 1970 * microsPerDay : Nat)⟩

def maxSeconds : Nat := 20000000000

/-- The stamp of a number of seconds, or of milliseconds, since 1970, and of microseconds more. -/
def stampOfSeconds (count : Int) (micros : Nat) : Except String Stamp :=
  let sinceEpoch : Int :=
    if count.natAbs ≤ maxSeconds then count * microsPerSecond + micros else count * 1000 + micros
  let wall := epoch.micros + sinceEpoch
  if wall < 0 then .error "dates before 0000 are not supported as unix timestamps"
  else if inRange wall then .ok ⟨wall, some 0⟩
  else .error "dates after 9999 are not supported as unix timestamps"

def stampOfNumber (x : Binary64) : Except String Stamp :=
  match x.ratio? with
  | none => .error "NaN values not permitted"
  | some (num, den) =>
    let count := num / (den : Int)
    let rest := (num - count * den).toNat
    stampOfSeconds count (roundHalfEven (rest * microsPerSecond) den)

def moment : Json → Checked Stamp
  | .str s =>
    match fullStamp? s.toList with
    | some stamp => .valid stamp
    | none =>
      let timestamp :=
        match integerOfText? s with
        | some i => (stampOfSeconds i 0).toOption
        | none => ((Binary64.readSigned? s.toList).bind fun x => (stampOfNumber x).toOption)
      match timestamp with
      | some stamp => .valid stamp
      | none =>
        match dateAtHead s.toList with
        | .ok (date, []) => .valid ⟨(date.toDays * microsPerDay : Nat), none⟩
        | .ok _ => .complain (.datetimeText "unexpected extra characters at the end of the input")
        | .error reason => .complain (.datetimeText reason)
  | .int i =>
    match stampOfSeconds i 0 with
    | .ok stamp => .valid stamp
    | .error reason => .complain (.datetimeNumber reason)
  | .float x =>
    match stampOfNumber x with
    | .ok stamp => .valid stamp
    | .error reason => .complain (.datetimeNumber reason)
  | _ => .complain .datetime

end Cadence.Schema
