import ContractLens.Number.Decimal
/-!
# Points in time

A point in time is a date of the years 1 to 9999 and a time of day with microseconds, read in a time
zone some minutes east of the universal time, or in none. Dates are counted in days from 1970-01-01
by the civil calendar (`daysOfDate`, `dateOfDays`).
-/

namespace ContractLens

/-- Whether a year has 366 days. -/
def isLeapYear (year : Nat) : Bool := year % 4 == 0 && (year % 100 != 0 || year % 400 == 0)

/-- The days of a month. -/
def daysInMonth (year month : Nat) : Nat :=
  if month == 2 then if isLeapYear year then 29 else 28
  else if month == 4 || month == 6 || month == 9 || month == 11 then 30
  else 31

/-- A date of the civil calendar. -/
structure Date where
  /-- The year, 1 to 9999. -/
  year : Nat
  /-- The month, 1 to 12. -/
  month : Nat
  /-- The day of the month. -/
  day : Nat
  /-- The date is one of the calendar. -/
  valid : 1 ≤ year ∧ year ≤ 9999 ∧ 1 ≤ month ∧ month ≤ 12 ∧ 1 ≤ day ∧ day ≤ daysInMonth year month
  deriving DecidableEq

/-- The date with the given numbers, if it is one of the calendar. -/
def Date.of? (year month day : Nat) : Option Date :=
  if h : 1 ≤ year ∧ year ≤ 9999 ∧ 1 ≤ month ∧ month ≤ 12 ∧ 1 ≤ day ∧ day ≤ daysInMonth year month
  then some ⟨year, month, day, h⟩ else none

/-- The days from 1970-01-01 to a date. The year is taken to start in March, so that the leap day
comes last in it. -/
def daysOfDate (year month day : Int) : Int :=
  let y := if month ≤ 2 then year - 1 else year
  let era := Int.fdiv y 400
  let yearOfEra := y - era * 400
  let dayOfYear := Int.fdiv (153 * (month + (if month > 2 then -3 else 9)) + 2) 5 + day - 1
  let dayOfEra := yearOfEra * 365 + Int.fdiv yearOfEra 4 - Int.fdiv yearOfEra 100 + dayOfYear
  era * 146097 + dayOfEra - 719468

/-- The year, month and day that lie so many days after 1970-01-01. -/
def dateOfDays (days : Int) : Int × Nat × Nat :=
  let z := days + 719468
  let era := Int.fdiv z 146097
  let dayOfEra := z - era * 146097
  let yearOfEra := (dayOfEra - dayOfEra / 1460 + dayOfEra / 36524 - dayOfEra / 146096) / 365
  let dayOfYear := dayOfEra - (365 * yearOfEra + yearOfEra / 4 - yearOfEra / 100)
  let shifted := (5 * dayOfYear + 2) / 153
  let day := dayOfYear - (153 * shifted + 2) / 5 + 1
  let month := if shifted < 10 then shifted + 3 else shifted - 9
  (yearOfEra + era * 400 + (if month ≤ 2 then 1 else 0), month.toNat, day.toNat)

/-- A time of day. -/
structure TimeOfDay where
  /-- The hour, 0 to 23. -/
  hour : Nat
  /-- The minute, 0 to 59. -/
  minute : Nat
  /-- The second, 0 to 59. -/
  second : Nat
  /-- The microsecond, 0 to 999999. -/
  micro : Nat
  /-- The numbers lie in their ranges. -/
  valid : hour < 24 ∧ minute < 60 ∧ second < 60 ∧ micro < 1000000
  deriving DecidableEq

/-- The time of day with the given numbers, if they lie in their ranges. -/
def TimeOfDay.of? (hour minute second micro : Nat) : Option TimeOfDay :=
  if h : hour < 24 ∧ minute < 60 ∧ second < 60 ∧ micro < 1000000
  then some ⟨hour, minute, second, micro, h⟩ else none

/-- The first moment of a day. -/
def TimeOfDay.midnight : TimeOfDay := ⟨0, 0, 0, 0, by decide⟩

/-- The minutes by which a zone lies east of the universal time; less than a day either way. -/
structure Zone where
  /-- The minutes, negative to the west. -/
  minutes : Int
  /-- The zone lies less than a day away. -/
  valid : minutes.natAbs < 1440
  deriving DecidableEq

/-- The zone of the universal time. -/
def Zone.universal : Zone := ⟨0, by decide⟩

/-- A point in time. -/
structure Timestamp where
  /-- The date in the zone. -/
  date : Date
  /-- The time of day in the zone. -/
  time : TimeOfDay
  /-- The zone, if one is known. -/
  zone : Option Zone
  deriving DecidableEq

namespace Timestamp

/-- The first moment of 1970 in universal time. -/
def epoch : Timestamp := ⟨⟨1970, 1, 1, by decide⟩, .midnight, some .universal⟩

instance : Inhabited Timestamp := ⟨epoch⟩

/-- A zone as text: a letter for the universal time, else hours and minutes. -/
def zoneText (zone : Zone) : List Char :=
  if zone.minutes == 0 then ['Z']
  else
    (if zone.minutes < 0 then '-' else '+') :: (padZeros 2 (natDigits (zone.minutes.natAbs / 60)) ++
      ':' :: padZeros 2 (natDigits (zone.minutes.natAbs % 60)))

/-- The fraction of a second, absent when it is zero. -/
def fractionText (micro : Nat) : List Char :=
  if micro == 0 then [] else '.' :: padZeros 6 (natDigits micro)

/-- A date as text. -/
def dateText (year month day : Nat) : List Char :=
  padZeros 4 (natDigits year) ++ '-' :: (padZeros 2 (natDigits month) ++
    '-' :: padZeros 2 (natDigits day))

/-- Hours, minutes and seconds as text. -/
def clockText (hour minute second : Nat) : List Char :=
  padZeros 2 (natDigits hour) ++ ':' :: (padZeros 2 (natDigits minute) ++
    ':' :: padZeros 2 (natDigits second))

/-- The text of a point in time. -/
def toText (t : Timestamp) : List Char :=
  dateText t.date.year t.date.month t.date.day ++ 'T' ::
    (clockText t.time.hour t.time.minute t.time.second ++ fractionText t.time.micro ++
      (match t.zone with
        | some zone => zoneText zone
        | none => []))

/-- The microseconds since the start of 1970; without a zone the universal time is meant. -/
def microseconds (t : Timestamp) : Int :=
  let days := daysOfDate t.date.year t.date.month t.date.day
  let seconds : Int := days * 86400 + t.time.hour * 3600 + t.time.minute * 60 + t.time.second -
    (match t.zone with
      | some zone => zone.minutes * 60
      | none => 0)
  seconds * 1000000 + t.time.micro

/-- The point in universal time that lies so many microseconds after the start of 1970. -/
def ofMicroseconds? (micros : Int) : Option Timestamp :=
  let seconds := Int.fdiv micros 1000000
  let days := Int.fdiv seconds 86400
  let (year, month, day) := dateOfDays days
  let rest := (seconds - days * 86400).toNat
  match Date.of? year.toNat month day,
      TimeOfDay.of? (rest / 3600) (rest / 60 % 60) (rest % 60)
        (micros - seconds * 1000000).toNat with
  | some date, some time => if year < 1 then none else some ⟨date, time, some .universal⟩
  | _, _ => none

end Timestamp

end ContractLens
