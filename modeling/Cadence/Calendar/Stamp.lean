import Cadence.Calendar.Civil

/-!
# Points in time

An instant is counted in microseconds from the start of the year 1 in universal time. A stamp is
what a clock on the wall shows, with or without its distance from universal time.
-/

namespace Cadence

/-- A point in time, in microseconds from the start of the year 1 in universal time. -/
structure Instant where
  micros : Int
deriving DecidableEq, Repr, Inhabited

/-- A wall-clock reading in microseconds from the start of the year 1, with its distance from
universal time in microseconds, if it is known. -/
structure Stamp where
  wall : Int
  offset : Option Int := none
deriving DecidableEq, Repr, Inhabited

namespace Calendar

def microsPerSecond : Nat := 1000000

def microsPerDay : Nat := 86400000000

/-- Whether a wall clock can show a reading: it lies in the years 1 to 9999. -/
def inRange (micros : Int) : Bool := 0 ≤ micros && micros < totalDays * microsPerDay

/-- The least digits of a number, at least `width` of them. -/
def padded (width n : Nat) : String :=
  let digits := Nat.toDigits 10 n
  String.ofList (List.replicate (width - digits.length) '0' ++ digits)

/-- Hours, minutes, seconds and, unless there are none, microseconds, of a time of day. -/
def clockText (micros : Nat) : String :=
  let seconds := micros / microsPerSecond
  let fraction := micros % microsPerSecond
  padded 2 (seconds / 3600) ++ ":" ++ padded 2 (seconds / 60 % 60) ++ ":" ++ padded 2 (seconds % 60) ++
    (if fraction = 0 then "" else "." ++ padded 6 fraction)

/-- A distance from universal time; seconds are left out where there are none. -/
def offsetText (offset : Int) : String :=
  let micros := offset.natAbs
  let seconds := micros / microsPerSecond
  let fraction := micros % microsPerSecond
  (if offset < 0 then "-" else "+") ++ padded 2 (seconds / 3600) ++ ":" ++
    padded 2 (seconds / 60 % 60) ++
    (if seconds % 60 = 0 ∧ fraction = 0 then "" else ":" ++ padded 2 (seconds % 60)) ++
    (if fraction = 0 then "" else "." ++ padded 6 fraction)

/-- Year, month and day of a date. -/
def dateText (d : Date) : String :=
  padded 4 d.year ++ "-" ++ padded 2 d.month ++ "-" ++ padded 2 d.day

end Calendar

open Calendar

def Stamp.text (s : Stamp) : String :=
  let micros := s.wall.toNat
  dateText (.ofDays (micros / microsPerDay)) ++ "T" ++ clockText (micros % microsPerDay) ++
    (match s.offset with
      | some offset => offsetText offset
      | none => "")

namespace Instant

def toStamp (t : Instant) : Stamp := ⟨t.micros, some 0⟩

def toNaive (t : Instant) : Stamp := ⟨t.micros, none⟩

def text (t : Instant) : String := t.toStamp.text

end Instant

/-- The instant of a stamp; a stamp without a zone shows universal time. There is none if universal
time is outside the calendar then. -/
def Stamp.toInstant? (s : Stamp) : Option Instant :=
  match s.offset with
  | none => some ⟨s.wall⟩
  | some offset => if inRange (s.wall - offset) then some ⟨s.wall - offset⟩ else none

end Cadence
