/-!
# Binary floating point with 53 digits

A number is a sign, a natural mantissa and a power of two, or an infinity, or not a number. All
arithmetic is exact on ratios of natural numbers and rounds once at the end, to the nearest
representable number and to the even mantissa at a tie, so that what a number is can be read off
its fields.
-/

namespace ContractLens

/-- The quotient rounded to the nearest whole number, a half going to the even neighbour. -/
def roundDiv (num den : Nat) : Nat :=
  let whole := num / den
  let twice := 2 * (num % den)
  if twice < den then whole
  else if den < twice then whole + 1
  else if whole % 2 == 0 then whole else whole + 1

/-- A number `± mantissa * 2 ^ exponent` with a mantissa below `2 ^ 53`, or a special value. -/
inductive Binary64 where
  /-- A finite number; the sign of zero is kept. -/
  | finite (negative : Bool) (mantissa : Nat) (exponent : Int)
  /-- A number beyond the largest finite one. -/
  | infinite (negative : Bool)
  /-- The result of an operation that has none. -/
  | nan
  deriving DecidableEq, Inhabited

namespace Binary64

/-- The least exponent of a finite number. -/
def minExponent : Int := -1074

/-- The greatest exponent of a finite number. -/
def maxExponent : Int := 971

/-- A ratio divided by a power of two, as a ratio. -/
def scaled (num den : Nat) (exponent : Int) : Nat × Nat :=
  match exponent with
  | .ofNat e => (num, den * Nat.pow 2 e)
  | .negSucc e => (num * Nat.pow 2 (e + 1), den)

/-- The representable number nearest to a ratio of natural numbers, with the given sign. -/
def ofRatio (negative : Bool) (num den : Nat) : Binary64 :=
  if num == 0 then finite negative 0 0
  else
    let guess : Int := (num.log2 : Int) - den.log2 - 53
    let (n, d) := scaled num den guess
    let normal := if Nat.pow 2 53 ≤ n / d then guess + 1 else guess
    let exponent := max normal minExponent
    let (n, d) := scaled num den exponent
    let mantissa := roundDiv n d
    let (mantissa, exponent) :=
      if mantissa == Nat.pow 2 53 then (Nat.pow 2 52, exponent + 1) else (mantissa, exponent)
    if maxExponent < exponent then infinite negative
    else if mantissa == 0 then finite negative 0 0
    else finite negative mantissa exponent

/-- The representable number nearest to a whole number. -/
def ofInt (n : Int) : Binary64 := ofRatio (n < 0) n.natAbs 1

/-- The representable number nearest to `digits * 10 ^ power`. -/
def ofDecimal (negative : Bool) (digits : Nat) (power : Int) : Binary64 :=
  let size : Int := (Nat.toDigits 10 digits).length
  if digits == 0 then finite negative 0 0
  else if 310 < size + power then infinite negative
  else if size + power < -330 then finite negative 0 0
  else match power with
    | .ofNat p => ofRatio negative (digits * Nat.pow 10 p) 1
    | .negSucc p => ofRatio negative digits (Nat.pow 10 (p + 1))

/-- The magnitude of a finite number as a ratio. -/
def magnitude (mantissa : Nat) (exponent : Int) : Nat × Nat :=
  match exponent with
  | .ofNat e => (mantissa * Nat.pow 2 e, 1)
  | .negSucc e => (mantissa, Nat.pow 2 (e + 1))

/-- The whole number nearest towards zero, if the number is finite. -/
def truncate? : Binary64 → Option Int
  | finite negative mantissa exponent =>
    let (n, d) := magnitude mantissa exponent
    some (if negative then -((n / d : Nat) : Int) else ((n / d : Nat) : Int))
  | _ => none

/-- Whether a number is finite and whole. -/
def isWhole : Binary64 → Bool
  | finite _ mantissa exponent => let (n, d) := magnitude mantissa exponent; n % d == 0
  | _ => false

/-- Whether a number has a finite value. -/
def isFinite : Binary64 → Bool
  | finite .. => true
  | _ => false

/-- Whether a number is zero, of either sign. -/
def isZero : Binary64 → Bool
  | finite _ mantissa _ => mantissa == 0
  | _ => false

/-- A finite number as a signed numerator and a denominator. -/
def signedRatio (negative : Bool) (mantissa : Nat) (exponent : Int) : Int × Nat :=
  let (n, d) := magnitude mantissa exponent
  (if negative then -(n : Int) else n, d)

/-- The sum of two numbers. -/
def add : Binary64 → Binary64 → Binary64
  | finite s m e, finite t n f =>
    let (a, b) := signedRatio s m e
    let (c, d) := signedRatio t n f
    let sum := a * d + c * b
    if sum == 0 then finite (s && t) 0 0 else ofRatio (sum < 0) sum.natAbs (b * d)
  | infinite s, infinite t => if s == t then infinite s else nan
  | infinite s, finite .. => infinite s
  | finite .., infinite t => infinite t
  | _, _ => nan

/-- The number times a whole number. -/
def scale : Binary64 → Nat → Binary64
  | finite s m e, k => let (n, d) := magnitude m e; ofRatio s (n * k) d
  | infinite s, k => if k == 0 then nan else infinite s
  | nan, _ => nan

/-- Whether the first number lies below the second; never for `nan`. -/
def lt : Binary64 → Binary64 → Bool
  | finite s m e, finite t n f =>
    let (a, b) := signedRatio s m e
    let (c, d) := signedRatio t n f
    a * d < c * b
  | infinite s, infinite t => s && !t
  | infinite s, finite .. => s
  | finite .., infinite t => !t
  | _, _ => false

/-- Whether two numbers have the same value; zero equals zero of either sign. -/
def eqv (x y : Binary64) : Bool :=
  match x, y with
  | nan, _ | _, nan => false
  | _, _ => !lt x y && !lt y x

/-- The whole number nearest to a number, a half going to the even neighbour. -/
def round? : Binary64 → Option Int
  | finite negative mantissa exponent =>
    let (n, d) := magnitude mantissa exponent
    let whole : Int := roundDiv n d
    some (if negative then -whole else whole)
  | _ => none

end Binary64

end ContractLens
