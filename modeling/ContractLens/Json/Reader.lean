import ContractLens.Json.Basic
import ContractLens.Platform
import ContractLens.Number.Decimal
import ContractLens.Text.Scan
/-!
# Reading JSON text

A reader over the characters of a text. It refuses at the first fault, saying what it missed and
where; the place is found from what was left to read. Besides the standard numbers it knows `NaN`,
`Infinity` and `-Infinity`. A whole number of more than 4300 digits is refused, and so is nesting
beyond a given depth. An escape of half a pair of units is read as the character that stands for it.

Nothing but space, tab, line feed and carriage return stands between tokens.
-/

namespace ContractLens.Json

/-- What the reader missed. -/
inductive Complaint where
  /-- No value starts here. -/
  | value
  /-- A name in quotation marks was due. -/
  | memberName
  /-- A colon was due. -/
  | colon
  /-- A comma or a closing bracket was due. -/
  | comma
  /-- A text has no closing mark. -/
  | unterminated
  /-- A control character stands inside a text. -/
  | control
  /-- A backslash is followed by no known escape. -/
  | escape
  /-- A UTF-16 escape lacks one of its four digits. -/
  | unicodeEscape
  /-- Text follows the value. -/
  | extra
  /-- The text starts with a byte order mark. -/
  | byteOrderMark
  deriving DecidableEq

/-- The words of a complaint. -/
def Complaint.words : Complaint → String
  | value => "Expecting value"
  | memberName => "Expecting property name enclosed in double quotes"
  | colon => "Expecting ':' delimiter"
  | comma => "Expecting ',' delimiter"
  | unterminated => "Unterminated string starting at"
  | control => "Invalid control character at"
  | escape => "Invalid \\escape"
  | unicodeEscape => "Invalid \\uXXXX escape"
  | extra => "Extra data"
  | byteOrderMark => "Unexpected UTF-8 BOM (decode using utf-8-sig)"

/-- Why a text was refused. -/
inductive ReadFailure where
  /-- The text is no JSON: what was missed, at which line, column and index. -/
  | malformed (complaint : Complaint) (line column index : Nat)
  /-- A whole number has too many digits. -/
  | hugeInteger (digits : Nat)
  /-- The nesting is too deep. -/
  | tooDeep
  deriving DecidableEq

/-- The most digits that a whole number may have. -/
def maxIntegerDigits : Nat := 4300

/-- A whole number of no more digits than the reader takes. -/
def Short (n : Int) : Prop := (natDigits n.natAbs).length ≤ maxIntegerDigits

instance (n : Int) : Decidable (Short n) := inferInstanceAs (Decidable (_ ≤ _))

/-- What is said about a whole number with too many digits. -/
def hugeIntegerText (digits : Nat) : String :=
  s!"Exceeds the limit ({maxIntegerDigits} digits) for integer string conversion: value has " ++
      s!"{digits} digits; use sys.set_int_max_str_digits() to increase the limit"

/-- The words of a refusal. -/
def ReadFailure.message : ReadFailure → String
  | malformed complaint line column index =>
    s!"{complaint.words}: line {line} column {column} (char {index})"
  | hugeInteger digits => hugeIntegerText digits
  | tooDeep => "maximum recursion depth exceeded"

/-- A fault inside the text: a complaint with the count of characters from its place on. -/
inductive Fault where
  /-- The text is malformed where so many characters are left. -/
  | at (complaint : Complaint) (left : Nat)
  /-- A whole number has too many digits. -/
  | hugeInteger (digits : Nat)
  /-- The nesting is too deep. -/
  | tooDeep

/-- A blank between tokens. -/
def isSpace (c : Char) : Bool := c == ' ' || c == '\n' || c == '\t' || c == '\r'

/-- The text after its leading blanks. -/
def dropSpaces (cs : List Char) : List Char := cs.dropWhile isSpace

/-- The value of a base sixteen digit. -/
def hexValue? (c : Char) : Option Nat :=
  if '0' ≤ c && c ≤ '9' then some (c.toNat - 48)
  else if 'a' ≤ c && c ≤ 'f' then some (c.toNat - 87)
  else if 'A' ≤ c && c ≤ 'F' then some (c.toNat - 55)
  else none

/-- The UTF-16 unit written by four digits at the start of a text; a character has to follow. -/
def readUnit? : List Char → Option (Nat × List Char)
  | a :: b :: c :: d :: e :: rest => do
    let a ← hexValue? a
    let b ← hexValue? b
    let c ← hexValue? c
    let d ← hexValue? d
    return (((a * 16 + b) * 16 + c) * 16 + d, e :: rest)
  | _ => none

/-- A unit that has to be followed by a second one. -/
def isHighSurrogate (unit : Nat) : Bool := 0xD800 ≤ unit && unit ≤ 0xDBFF

/-- A unit that has to follow a first one. -/
def isLowSurrogate (unit : Nat) : Bool := 0xDC00 ≤ unit && unit ≤ 0xDFFF

variable [Platform]

/-- The character of a single unit. -/
def unitChar (unit : Nat) : Char :=
  if 0xD800 ≤ unit && unit ≤ 0xDFFF then Platform.half unit else Char.ofNat unit

/-- Reads the character of a UTF-16 escape after its `u`. -/
def readUnicodeEscape (cs : List Char) : Except Fault (Char × List Char) :=
  match readUnit? cs with
  | none => .error (.at .unicodeEscape (cs.length + 1))
  | some (unit, rest) =>
    match isHighSurrogate unit, rest with
    | true, '\\' :: 'u' :: after =>
      if after.length ≤ 4 then .ok (unitChar unit, rest)
      else match readUnit? after with
        | none => .error (.at .unicodeEscape (after.length + 1))
        | some (second, after) =>
          if isLowSurrogate second then
            .ok (Char.ofNat (0x10000 + (unit - 0xD800) * 0x400 + (second - 0xDC00)), after)
          else .ok (unitChar unit, rest)
    | _, _ => .ok (unitChar unit, rest)

/-- The character named by the letter of a short escape. -/
def shortEscape? : Char → Option Char
  | '\x22' => some '\x22'
  | '\\' => some '\\'
  | '/' => some '/'
  | 'b' => some '\x08'
  | 'f' => some '\x0c'
  | 'n' => some '\n'
  | 'r' => some '\r'
  | 't' => some '\t'
  | _ => none

/-- Reads the rest of a text after its opening mark; `start` characters were left at the mark, and
`done` holds the characters read so far, the last one first. -/
def readText (start : Nat) :
    (fuel : Nat) → (done : List Char) → List Char → Except Fault (List Char × List Char)
  | 0, _, _ => .error (.at .unterminated start)
  | _ + 1, _, [] => .error (.at .unterminated start)
  | fuel + 1, done, c :: rest =>
    if c == '\x22' then .ok (done.reverse, rest)
    else if c == '\\' then
      match rest with
      | [] => .error (.at .unterminated start)
      | e :: after =>
        if e == 'u' then
          match readUnicodeEscape after with
          | .ok (d, after) => readText start fuel (d :: done) after
          | .error fault => .error fault
        else match shortEscape? e with
          | some d => readText start fuel (d :: done) after
          | none => .error (.at .escape (rest.length + 1))
    else if c.toNat < 0x20 then .error (.at .control (rest.length + 1))
    else readText start fuel (c :: done) rest

/-- A run of digits at the start of a text, and the rest. -/
def takeDigits (cs : List Char) : List Char × List Char := cs.span Char.isDigit

/-- The digits before the point of a number: a zero, or digits that start with another one. -/
def takeWhole? : List Char → Option (List Char × List Char)
  | '0' :: rest => some (['0'], rest)
  | c :: rest => if c.isDigit then some (takeDigits (c :: rest)) else none
  | [] => none

/-- The digits after the point of a number; without any the point is not part of it. -/
def takeFraction (cs : List Char) : List Char × List Char :=
  match cs with
  | '.' :: rest =>
    match takeDigits rest with
    | ([], _) => ([], cs)
    | found => found
  | _ => ([], cs)

/-- The power of ten of a number, if one is written; without digits its mark is not part of it. -/
def takeExponent (cs : List Char) : Option Int × List Char :=
  match cs with
  | mark :: rest =>
    if mark == 'e' || mark == 'E' then
      let (negative, digits) := match rest with
        | '-' :: digits => (true, digits)
        | '+' :: digits => (false, digits)
        | digits => (false, digits)
      match takeDigits digits with
      | ([], _) => (none, cs)
      | (digits, rest) =>
        let power : Int := Nat.ofDigitChars 10 digits 0
        (some (if negative then -power else power), rest)
    else (none, cs)
  | [] => (none, cs)

/-- Reads a number. -/
def readNumber (cs : List Char) : Except Fault (Json × List Char) :=
  let (negative, body) := match cs with
    | '-' :: body => (true, body)
    | body => (false, body)
  match takeWhole? body with
  | none => .error (.at .value cs.length)
  | some (whole, rest) =>
    let (fraction, rest) := takeFraction rest
    let (exponent, rest) := takeExponent rest
    if fraction.isEmpty && exponent.isNone then
      if maxIntegerDigits < whole.length then .error (.hugeInteger whole.length)
      else
        let n : Int := Nat.ofDigitChars 10 whole 0
        .ok (int (if negative then -n else n), rest)
    else
      let digits := Nat.ofDigitChars 10 (whole ++ fraction) 0
      .ok (float (.ofDecimal negative digits (exponent.getD 0 - fraction.length)), rest)

/-- The values that are written as words. -/
def words : List (List Char × Json) := [
  ("null".toList, null), ("true".toList, bool true), ("false".toList, bool false),
  ("NaN".toList, float .nan), ("Infinity".toList, float (.infinite false)),
  ("-Infinity".toList, float (.infinite true))]

/-- Reads a value that is written as a word. -/
def readWord? (cs : List Char) : Option (Json × List Char) :=
  words.findSome? fun (word, value) => (Text.dropStart? word cs).map fun rest => (value, rest)

mutual

/-- Reads a value; `depth` levels of nesting are still allowed. -/
def readValue : (fuel depth : Nat) → List Char → Except Fault (Json × List Char)
  | 0, _, cs => .error (.at .value cs.length)
  | fuel + 1, depth, cs =>
    match cs with
    | '\x22' :: rest =>
      match readText cs.length (rest.length + 1) [] rest with
      | .ok (chars, rest) => .ok (text (String.ofList chars), rest)
      | .error fault => .error fault
    | '[' :: rest =>
      match depth with
      | 0 => .error .tooDeep
      | depth + 1 =>
        match dropSpaces rest with
        | ']' :: rest => .ok (list [], rest)
        | rest => readItems fuel depth [] rest
    | '\x7b' :: rest =>
      match depth with
      | 0 => .error .tooDeep
      | depth + 1 =>
        match dropSpaces rest with
        | '\x7d' :: rest => .ok (object [], rest)
        | rest => readMembers fuel depth [] rest
    | _ =>
      match readWord? cs with
      | some found => .ok found
      | none => readNumber cs

/-- Reads the items of a list up to its closing bracket. -/
def readItems : (fuel depth : Nat) → (done : List Json) → List Char →
    Except Fault (Json × List Char)
  | 0, _, _, cs => .error (.at .value cs.length)
  | fuel + 1, depth, done, cs =>
    match readValue fuel depth cs with
    | .error fault => .error fault
    | .ok (item, rest) =>
      match dropSpaces rest with
      | ']' :: rest => .ok (list (item :: done).reverse, rest)
      | ',' :: rest => readItems fuel depth (item :: done) (dropSpaces rest)
      | rest => .error (.at .comma rest.length)

/-- Reads the members of an object up to its closing brace. -/
def readMembers : (fuel depth : Nat) → (done : List (String × Json)) → List Char →
    Except Fault (Json × List Char)
  | 0, _, _, cs => .error (.at .memberName cs.length)
  | fuel + 1, depth, done, cs =>
    match cs with
    | '\x22' :: rest =>
      match readText cs.length (rest.length + 1) [] rest with
      | .error fault => .error fault
      | .ok (name, rest) =>
        match dropSpaces rest with
        | ':' :: rest =>
          match readValue fuel depth (dropSpaces rest) with
          | .error fault => .error fault
          | .ok (value, rest) =>
            let done := (String.ofList name, value) :: done
            match dropSpaces rest with
            | '\x7d' :: rest => .ok (object (Table.ofEntries done.reverse), rest)
            | ',' :: rest => readMembers fuel depth done (dropSpaces rest)
            | rest => .error (.at .comma rest.length)
        | rest => .error (.at .colon rest.length)
    | _ => .error (.at .memberName cs.length)

end

/-- The place of a fault as line, column and index. -/
def place (cs : List Char) (index : Nat) : Nat × Nat × Nat :=
  let before := cs.take index
  let line := before.count '\n' + 1
  let column := (before.reverse.takeWhile (· != '\n')).length + 1
  (line, column, index)

/-- The refusal of a text for a fault in it. -/
def Fault.toFailure (cs : List Char) : Fault → ReadFailure
  | .at complaint left =>
    let (line, column, index) := place cs (cs.length - left)
    .malformed complaint line column index
  | .hugeInteger digits => .hugeInteger digits
  | .tooDeep => .tooDeep

/-- Reads a text that holds one value nested at most `depth` levels deep. -/
def readWithin (depth : Nat) (cs : List Char) : Except ReadFailure Json :=
  let body := dropSpaces cs
  match readValue (cs.length + 1) depth body with
  | .error fault => .error (fault.toFailure cs)
  | .ok (value, rest) =>
    match dropSpaces rest with
    | [] => .ok value
    | rest => .error ((Fault.at .extra rest.length).toFailure cs)

/-- Reads a text that holds one value. A byte order mark in front of it is a fault. -/
def read (s : String) : Except ReadFailure Json :=
  let cs := s.toList
  if cs.head? == some (Char.ofNat 0xFEFF) then
    .error ((Fault.at .byteOrderMark cs.length).toFailure cs)
  else readWithin Platform.levels cs

end ContractLens.Json
