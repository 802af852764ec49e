import ContractLens.Number.Binary64
/-!
# Decimal text of numbers

Whole numbers are written in base ten. A binary number is written with the fewest digits that read
back to it, or with a fixed count of places or of significant digits, both exact with ties going to
the even digit.
-/

namespace ContractLens

/-- A natural number in base ten. -/
def natDigits (n : Nat) : List Char := Nat.toDigits 10 n

/-- A whole number in base ten, with a minus sign when negative. -/
def intDigits (n : Int) : List Char :=
  if n < 0 then '-' :: natDigits n.natAbs else natDigits n.natAbs

/-- A natural number in base ten. -/
def natText (n : Nat) : String := String.ofList (natDigits n)

/-- A whole number in base ten, with a minus sign when negative. -/
def intText (n : Int) : String := String.ofList (intDigits n)

/-- Zeros in front of digits up to the given width. -/
def padZeros (width : Nat) (digits : List Char) : List Char :=
  List.replicate (width - digits.length) '0' ++ digits

/-- A natural number in lower-case base sixteen, at least `width` digits wide. -/
def hexDigits (width n : Nat) : List Char := padZeros width (Nat.toDigits 16 n)

namespace Binary64

/-- The ratio times a power of ten, as a ratio. -/
def timesTen (num den : Nat) (power : Int) : Nat × Nat :=
  match power with
  | .ofNat p => (num * Nat.pow 10 p, den)
  | .negSucc p => (num, den * Nat.pow 10 (p + 1))

/-- The place of the leading digit of a positive ratio: the least `k` with `num / den < 10 ^ k`.
The search starts from an estimate that is at most one too low. -/
def leadingPlace (num den : Nat) : Int :=
  let bits : Int := (num.log2 : Int) - den.log2
  let guess : Int := (bits - 1) * 30103 / 100000
  let below (k : Int) : Bool := let (n, d) := timesTen num den (-k); n < d
  if below guess then guess
  else if below (guess + 1) then guess + 1
  else if below (guess + 2) then guess + 2
  else guess + 3

/-- The digits of the nearest decimal with `count` significant digits that reads back to the
number, and the place of their point, if there is one. -/
def shortestAt? (mantissa : Nat) (exponent : Int) (count : Nat) : Option (Nat × Int) :=
  let (num, den) := magnitude mantissa exponent
  let place := leadingPlace num den
  let power : Int := place - count
  let (n, d) := timesTen num den (-power)
  let low := n / d
  let reads (digits : Nat) : Bool :=
    ofDecimal false digits power == finite false mantissa exponent
  let lowReads := reads low
  let highReads := reads (low + 1)
  let twice := 2 * (n % d)
  let nearest := if twice < d || (twice == d && low % 2 == 0) then low else low + 1
  if lowReads && highReads then some (nearest, power)
  else if lowReads then some (low, power)
  else if highReads then some (low + 1, power)
  else none

/-- The fewest digits that read back to a positive number `mantissa * 2 ^ exponent`, with the
power of ten of the last one. -/
def shortest (mantissa : Nat) (exponent : Int) : Nat × Int :=
  ((List.range 17).findSome? fun k => shortestAt? mantissa exponent (k + 1)).getD (0, 0)

/-- Digits without the zeros at their end. -/
def dropLastZeros (digits : List Char) : List Char := (digits.reverse.dropWhile (· == '0')).reverse

/-- An exponent with its sign and at least two digits. -/
def exponentText (power : Int) : List Char :=
  (if power < 0 then '-' else '+') :: padZeros 2 (natDigits power.natAbs)

/-- Significant digits with the point after the first `place` of them: positional for places from
-3 to 16, otherwise with an exponent. A whole number keeps one zero after the point. -/
def layout (digits : List Char) (place : Int) : List Char :=
  if -4 < place && place ≤ 16 then
    if place ≤ 0 then
      '0' :: '.' :: (List.replicate place.natAbs '0' ++ digits)
    else if digits.length ≤ place.toNat then
      digits ++ List.replicate (place.toNat - digits.length) '0' ++ ['.', '0']
    else digits.take place.toNat ++ '.' :: digits.drop place.toNat
  else
    let rest := digits.drop 1
    digits.take 1 ++ (if rest.isEmpty then [] else '.' :: rest) ++ 'e' :: exponentText (place - 1)

/-- A minus sign for a negative number. -/
def signText (negative : Bool) : List Char := if negative then ['-'] else []

/-- The shortest decimal text that reads back to the number. -/
def toText : Binary64 → List Char
  | finite negative mantissa exponent =>
    signText negative ++
      if mantissa == 0 then ['0', '.', '0']
      else
        let (number, power) := shortest mantissa exponent
        let all := natDigits number
        layout (dropLastZeros all) (power + all.length)
  | infinite negative => signText negative ++ "inf".toList
  | nan => "nan".toList

/-- A magnitude with a fixed count of places after the point. -/
def fixedDigits (num den places : Nat) : List Char :=
  let digits := padZeros (places + 1) (natDigits (roundDiv (num * Nat.pow 10 places) den))
  let whole := digits.length - places
  if places == 0 then digits else digits.take whole ++ '.' :: digits.drop whole

/-- The number with a fixed count of places after the point. -/
def toFixed (places : Nat) : Binary64 → List Char
  | finite negative mantissa exponent =>
    let (num, den) := magnitude mantissa exponent
    signText negative ++ fixedDigits num den places
  | infinite negative => signText negative ++ "inf".toList
  | nan => "nan".toList

/-- The number rounded to `count` significant digits (at least one), with the power of ten of the
leading one. -/
def significant (num den count : Nat) : List Char × Int :=
  if num == 0 then (List.replicate count '0', 0)
  else
    let place := leadingPlace num den
    let (n, d) := timesTen num den (count - place)
    let digits := natDigits (roundDiv n d)
    if digits.length == count then (digits, place - 1) else (digits.take count, place)

end Binary64

end ContractLens
