import ContractLens.Calendar.Timestamp
import ContractLens.Schema.Read
/-!
# Reading points in time

A point in time is written as a date, a separator, a time of day to the minute, the second or a
fraction of it, and optionally a zone. A date alone means its first moment. A number, or a text that
holds one, counts seconds since the start of 1970 in universal time, or milliseconds when it is
large. Digits beyond the microsecond are dropped.
-/

namespace ContractLens.Schema

/-- Why a text is no date. -/
inductive DateFault where
  /-- The text ends inside the date. -/
  | short
  /-- The year holds a character that is no digit. -/
  | yearCharacter
  /-- The month holds a character that is no digit. -/
  | monthCharacter
  /-- The day holds a character that is no digit. -/
  | dayCharacter
  /-- The parts of the date are separated otherwise. -/
  | separator
  /-- There is no such month. -/
  | month
  /-- The month has no such day. -/
  | day
  /-- Text follows the date. -/
  | extra

/-- The words of a date fault. -/
def DateFault.words : DateFault → String
  | short => "input is too short"
  | yearCharacter => "invalid character in year"
  | monthCharacter => "invalid character in month"
  | dayCharacter => "invalid character in day"
  | separator => "invalid date separator, expected \x60-\x60"
  | month => "month value is outside expected range of 1-12"
  | day => "day value is outside expected range"
  | extra => "unexpected extra characters at the end of the input"

/-- The number written by two digits. -/
def twoDigits? (a b : Char) : Option Nat :=
  if a.isDigit && b.isDigit then some (Nat.ofDigitChars 10 [a, b] 0) else none

/-- Reads a date at the start of a text. -/
def readDate : List Char → Except DateFault (Nat × Nat × Nat × List Char)
  | y1 :: y2 :: y3 :: y4 :: s1 :: m1 :: m2 :: s2 :: d1 :: d2 :: rest =>
    if !([y1, y2, y3, y4].all Char.isDigit) then .error .yearCharacter
    else if s1 != '-' then .error .separator
    else match twoDigits? m1 m2 with
      | none => .error .monthCharacter
      | some month =>
        if s2 != '-' then .error .separator
        else match twoDigits? d1 d2 with
          | none => .error .dayCharacter
          | some day =>
            let year := Nat.ofDigitChars 10 [y1, y2, y3, y4] 0
            if month < 1 || 12 < month then .error .month
            else if day < 1 || daysInMonth year month < day then .error .day
            else .ok (year, month, day, rest)
  | _ => .error .short

/-- The microseconds written by the digits of a fraction; further digits are dropped. -/
def fractionMicros (digits : List Char) : Nat :=
  Nat.ofDigitChars 10 ((digits ++ List.replicate 6 '0').take 6) 0

/-- Reads the seconds of a time of day, if they are written. -/
def readSeconds? : List Char → Option (Nat × Nat × List Char)
  | ':' :: a :: b :: rest => do
    let second ← twoDigits? a b
    match rest with
    | mark :: more =>
      if mark == '.' || mark == ',' then
        match more.span Char.isDigit with
        | ([], _) => none
        | (digits, rest) =>
          if 9 < digits.length then none else some (second, fractionMicros digits, rest)
      else some (second, 0, rest)
    | [] => some (second, 0, [])
  | ':' :: _ => none
  | rest => some (0, 0, rest)

/-- Reads a zone, which ends the text. -/
def readZone? : List Char → Option (Option Zone)
  | [] => some none
  | [letter] => if letter == 'Z' || letter == 'z' then some (some .universal) else none
  | sign :: a :: b :: rest => do
    let east ← if sign == '+' then some true else if sign == '-' then some false else none
    let hours ← twoDigits? a b
    let minutes ← match rest with
      | [':', c, d] => twoDigits? c d
      | [c, d] => twoDigits? c d
      | _ => none
    if 59 < minutes then none
    else
      let total : Int := hours * 60 + minutes
      let signed := if east then total else -total
      if h : signed.natAbs < 1440 then some (some ⟨signed, h⟩) else none
  | _ => none

/-- Reads a time of day and a zone, which end the text. -/
def readTime? : List Char → Option (TimeOfDay × Option Zone)
  | a :: b :: ':' :: c :: d :: rest => do
    let hour ← twoDigits? a b
    let minute ← twoDigits? c d
    let (second, micro, rest) ← readSeconds? rest
    let time ← TimeOfDay.of? hour minute second micro
    let zone ← readZone? rest
    return (time, zone)
  | _ => none

/-- Reads a date with a time of day. -/
def readMoment? (cs : List Char) : Option Timestamp :=
  match readDate cs with
  | .ok (year, month, day, separator :: rest) => do
    if separator == 'T' || separator == 't' || separator == ' ' || separator == '_' then
      let date ← Date.of? year month day
      let (time, zone) ← readTime? rest
      return ⟨date, time, zone⟩
    else none
  | _ => none

/-- The point in time that a count of seconds or, beyond a bound, of milliseconds stands for. -/
def momentOfCount? (x : Binary64) : Option Timestamp :=
  match x with
  | .finite negative mantissa exponent =>
    let (n, d) := Binary64.magnitude mantissa exponent
    let perUnit := if d * 20000000000 < n then 1000 else 1000000
    let micros : Int := roundDiv (n * perUnit) d
    Timestamp.ofMicroseconds? (if negative then -micros else micros)
  | _ => none

/-- Reads a point in time from a text. -/
def readTimeText (s : String) : Except DateFault Timestamp :=
  let cs := Text.trimBy Text.isWhiteSpace s.toList
  match readMoment? cs with
  | some moment => .ok moment
  | none =>
    match (parsePlainNumber? cs).bind momentOfCount? with
    | some moment => .ok moment
    | none =>
      match readDate cs with
      | .error fault => .error fault
      | .ok (_, _, _, _ :: _) => .error .extra
      | .ok (year, month, day, []) =>
        match Date.of? year month day with
        | some date => .ok ⟨date, .midnight, none⟩
        | none => .error .yearCharacter

/-- Reads a point in time. -/
def timestamp : Reader Timestamp
  | .text s =>
    match readTimeText s with
    | .ok moment => .accepted moment
    | .error fault => .refuse (.timeText fault.words) (.text s)
  | .int n =>
    match momentOfCount? (.ofInt n) with
    | some moment => .accepted moment
    | none => .refuse (.timeText DateFault.extra.words) (.int n)
  | .float x =>
    match momentOfCount? x with
    | some moment => .accepted moment
    | none => .refuse (.timeText DateFault.extra.words) (.float x)
  | input => .refuse .notTime input

end ContractLens.Schema
