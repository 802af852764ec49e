import ContractLens.Json.Reader
import ContractLens.Text.Blank
/-!
# Numbers given as text

Settings and records accept a number in quotes. A whole number may have a sign, zeros in front,
single underscores between digits and a point followed by nothing but zeros; a binary number may
also have a fraction, an exponent, or be a word for an infinity or for no number. White space at
both ends is dropped.
-/

namespace ContractLens.Schema

/-- A text without its single underscores; `none` if they stand at an end or side by side. -/
def dropUnderscores? (cs : List Char) : Option (List Char) :=
  let rec go (afterMark : Bool) : List Char → Option (List Char)
    | [] => if afterMark then none else some []
    | c :: rest =>
      if c == '_' then if afterMark then none else go true rest
      else (go false rest).map (c :: ·)
  go true cs

/-- A sign and what follows it. -/
def splitSign : List Char → Bool × List Char
  | '-' :: rest => (true, rest)
  | '+' :: rest => (false, rest)
  | cs => (false, cs)

/-- How a text fails to be a whole number. -/
inductive IntegerFault where
  /-- It is written otherwise. -/
  | malformed
  /-- It has too many digits. -/
  | tooLong

/-- The whole number written by a text. -/
def parseInteger (cs : List Char) : Except IntegerFault Int :=
  let (negative, body) := splitSign (Text.trimBy Text.isWhiteSpace cs)
  let whole := body.takeWhile (· != '.')
  let tail := body.drop whole.length
  if !(tail.drop 1).all (· == '0') then .error .malformed
  else match dropUnderscores? whole with
    | none => .error .malformed
    | some digits =>
      if digits.isEmpty || !digits.all Char.isDigit then .error .malformed
      else
        let digits := digits.dropWhile (· == '0')
        if Json.maxIntegerDigits < digits.length then .error .tooLong
        else
          let n : Int := Nat.ofDigitChars 10 digits 0
          .ok (if negative then -n else n)

/-- The words for numbers that are not finite. -/
def specialWord? (word : String) : Option (Bool → Binary64) :=
  if word == "inf" || word == "infinity" then some .infinite
  else if word == "nan" then some fun _ => .nan
  else none

/-- The number written by digits with an optional fraction and exponent. -/
def parseDigits? (negative : Bool) (cs : List Char) : Option Binary64 :=
  let (whole, rest) := Json.takeDigits cs
  let (fraction, rest) := match rest with
    | '.' :: rest => Json.takeDigits rest
    | rest => ([], rest)
  let (exponent, rest) := Json.takeExponent rest
  if whole.isEmpty && fraction.isEmpty || !rest.isEmpty then none
  else some (.ofDecimal negative (Nat.ofDigitChars 10 (whole ++ fraction) 0)
    (exponent.getD 0 - fraction.length))

/-- The binary number written by a text without underscores. -/
def parsePlainNumber? (cs : List Char) : Option Binary64 :=
  let (negative, body) := splitSign cs
  match specialWord? (String.ofList (body.map Char.toLower)) with
  | some special => some (special negative)
  | none => parseDigits? negative body

/-- The binary number written by a text. -/
def parseNumber? (cs : List Char) : Option Binary64 :=
  let body := Text.trimBy Text.isWhiteSpace cs
  match parsePlainNumber? body with
  | some number => some number
  | none => if body.contains '_' then (dropUnderscores? body).bind parsePlainNumber? else none

end ContractLens.Schema
