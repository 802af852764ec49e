import ContractLens.Calendar.Timestamp
import ContractLens.Platform
/-!
# Clocks

A clock shows seconds since the start of 1970, as a whole or a binary number. A fraction is rounded
to microseconds, a half going to the even one. A clock may show a moment that no calendar date has,
or none at all.

A point in time without a zone is shown by the local clock, which is some seconds ahead of universal
time. The moment is found by trying how far it is ahead around then, and cannot be found where the
calendar ends.
-/

namespace ContractLens

/-- The seconds that a clock shows. -/
inductive Clock where
  /-- Whole seconds. -/
  | whole (seconds : Int)
  /-- Seconds with a fraction. -/
  | binary (seconds : Binary64)
  deriving DecidableEq

/-- Why what a clock shows is no moment. -/
inductive ClockFault where
  /-- It is not a number. -/
  | notNumber
  /-- It has more seconds than a clock counts. -/
  | tooFar
  /-- Its year cannot be counted. -/
  | uncountable
  /-- Its year is none of the calendar. -/
  | year (year : Int)
  deriving DecidableEq

namespace ClockFault

/-- What is said about a fault. -/
def message : ClockFault → String
  | notNumber => "Invalid value NaN (not a number)"
  | tooFar => "timestamp out of range for platform time_t"
  | uncountable => "[Errno 75] Value too large for defined data type"
  | year y => s!"year {intText y} is out of range"

end ClockFault

namespace Clock

/-- The whole seconds and microseconds of a finite number. The fraction is a binary number times a
million, rounded before it is brought to whole microseconds. -/
def split (negative : Bool) (mantissa : Nat) (exponent : Int) : Int × Nat :=
  let (num, den) := Binary64.magnitude mantissa exponent
  let whole : Int := (num / den : Nat)
  let micros : Int := ((Binary64.ofRatio false (num % den * 1000000) den).round?).getD 0
  let (whole, micros) := if negative then (-whole, -micros) else (whole, micros)
  let (whole, micros) :=
    if 1000000 ≤ micros then (whole + 1, micros - 1000000)
    else if micros < 0 then (whole - 1, micros + 1000000)
    else (whole, micros)
  (whole, micros.toNat)

/-- The seconds and microseconds that a clock shows. -/
def read : Clock → Except ClockFault (Int × Nat)
  | whole seconds => .ok (seconds, 0)
  | binary .nan => .error .notNumber
  | binary (.infinite _) => .error .tooFar
  | binary (.finite negative mantissa exponent) => .ok (split negative mantissa exponent)

/-- Whether a number of seconds can be counted. -/
def isCounted (seconds : Int) : Bool := -Int.pow 2 63 ≤ seconds && seconds < Int.pow 2 63

/-- Whether a year, less 1900, is a word of 32 bits. -/
def isWordYear (year : Int) : Bool :=
  -Int.pow 2 31 ≤ year - 1900 && year - 1900 < Int.pow 2 31

/-- The moment in universal time that a clock shows. -/
def moment (clock : Clock) : Except ClockFault Timestamp := do
  let (seconds, micros) ← clock.read
  if !isCounted seconds then throw .tooFar
  match Timestamp.ofMicroseconds? (seconds * 1000000 + micros) with
  | some moment => return moment
  | none =>
    let (year, _, _) := dateOfDays (Int.fdiv seconds 86400)
    throw (if isWordYear year then .year (Int.bmod year (Nat.pow 2 32)) else .uncountable)

end Clock

namespace Timestamp

section Local

variable [Platform]

/-- The local time, as seconds, so many seconds after the start of 1970. -/
def localTime (u : Int) : Except ClockFault Int :=
  let shown := u + Platform.ahead u
  let (year, _, _) := dateOfDays (Int.fdiv shown 86400)
  if 1 ≤ year ∧ year ≤ 9999 then .ok shown else .error (.year year)

/-- The seconds since the start of 1970 at which the local clock shows the given time. Of two
moments the earlier one is meant; a time that the clock passes over is taken by the later offset. -/
def ofLocal (t : Int) : Except ClockFault Int := do
  let ahead := (← localTime t) - t
  let first := t - ahead
  let shown ← localTime first
  let before := first - 86400
  let aheadBefore := (← if shown == t then localTime before else pure shown) -
    (if shown == t then before else first)
  if shown == t && aheadBefore == ahead then return first
  let second := t - aheadBefore
  let shownSecond ← localTime second
  return if shownSecond == t then second else if shown == t then first else max first second

/-- The seconds since the start of 1970 as a binary number. Without a zone the whole seconds and
the fraction are rounded one after the other. -/
def seconds (t : Timestamp) : Except ClockFault Binary64 :=
  let micros := t.microseconds
  match t.zone with
  | some _ => .ok (.ofRatio (micros < 0) micros.natAbs 1000000)
  | none => do
    let whole ← ofLocal (Int.fdiv micros 1000000)
    return Binary64.add (.ofInt whole) (.ofRatio false t.time.micro 1000000)

end Local

/-- The text of a moment in universal time, with its offset as hours and minutes. -/
def universalText (t : Timestamp) : String := String.ofList <|
  dateText t.date.year t.date.month t.date.day ++ 'T' ::
    (clockText t.time.hour t.time.minute t.time.second ++ fractionText t.time.micro ++
      "+00:00".toList)

/-- The hours, minutes and seconds of a moment. -/
def timeText (t : Timestamp) : String :=
  String.ofList (clockText t.time.hour t.time.minute t.time.second)

end Timestamp

end ContractLens
