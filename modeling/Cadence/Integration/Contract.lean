import Cadence.Calendar.Duration
import Cadence.Calendar.Iso
import Cadence.Fault
import Cadence.Number.Numeral
import Cadence.Text.Blank

/-!
# The readiness contract of an integration

An integration is ready if its credentials are there and the latest live verification passed and is
fresh enough. A verification whose time is unknown is never fresh.
-/

namespace Cadence.Integration

/-- A point in time as it may be stored: not at all, as a text, or as a stamp. -/
inductive TimeSource where
  | absent
  | text (s : String)
  | stamp (s : Stamp)
deriving DecidableEq, Repr

/-- The stamp of a source. A trailing `Z` of either case stands for universal time. -/
def TimeSource.stamp? : TimeSource → Option Stamp
  | absent => none
  | stamp s => some s
  | text s =>
    let chars := Text.stripChars s.toList
    match chars.reverse with
    | [] => none
    | last :: rest =>
      if last = 'Z' ∨ last = 'z' then
        Calendar.Iso.stamp? (rest.reverse ++ ['+', '0', '0', ':', '0', '0'])
      else Calendar.Iso.stamp? chars

/-- The instant of a source, if it tells one. An instant outside of the calendar is a fault. -/
def parseTimestamp (source : TimeSource) : Outcome (Option Instant) :=
  match source.stamp? with
  | none => .ok none
  | some s =>
    match s.toInstant? with
    | some t => .ok (some t)
    | none => .error .instantOutOfRange

def defaultMaxAgeDays : Nat := 30

def daysToMicros (days : Numeral) : Int := Calendar.durationMicros [(days, Calendar.microsPerDay)]

def maxDurationDays : Nat := 999999999

/-- How long a verification stays fresh, in microseconds: the given days, thirty if none or zero are
given, and one day at least. -/
def maxAgeMicros (days : Option Numeral) : Outcome Int :=
  let days :=
    match days with
    | some d => if d.isZero then .whole defaultMaxAgeDays else d
    | none => .whole defaultMaxAgeDays
  let micros := daysToMicros ((Numeral.whole 1).greatest days)
  let whole := micros / Calendar.microsPerDay
  if whole ≥ Int.pow 2 31 then .error .daysTooMany
  else if whole > maxDurationDays then .error (.durationTooLong whole)
  else .ok micros

structure Contract where
  connected : Bool
  verified : Bool
  testSendPassed : Bool
  stale : Bool
  ready : Bool
deriving DecidableEq, Repr

/-- What the readiness of an integration is judged by. -/
structure Evidence where
  hasAccessToken : Bool
  hasPhoneNumberId : Bool
  latestOk : Bool
  latestAt : TimeSource

def Contract.judge (e : Evidence) (verifiedAt : Option Instant) (maxAge : Int) (now : Instant) :
    Contract :=
  let stale :=
    match verifiedAt with
    | none => true
    | some t => decide (now.micros - t.micros > maxAge)
  let passed := e.latestOk && !stale
  { connected := e.hasAccessToken
    verified := e.hasPhoneNumberId
    testSendPassed := passed
    stale := stale
    ready := e.hasAccessToken && e.hasPhoneNumberId && passed }

/-- The contract at the time that `now` tells, or else at the time of the clock. -/
def Contract.evaluate (e : Evidence) (maxAgeDays : Option Numeral) (now : TimeSource)
    (clock : Instant) : Outcome Contract := do
  let verifiedAt ← parseTimestamp e.latestAt
  let maxAge ← maxAgeMicros maxAgeDays
  let current ← parseTimestamp now
  return .judge e verifiedAt maxAge (current.getD clock)

def Contract.toJson (c : Contract) : Json :=
  .obj [("connected", .bool c.connected), ("verified", .bool c.verified),
    ("test_send_passed", .bool c.testSendPassed), ("stale", .bool c.stale), ("ready", .bool c.ready)]

end Cadence.Integration
