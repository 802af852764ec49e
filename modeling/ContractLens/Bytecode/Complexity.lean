import ContractLens.Number.Binary64
/-!
# Complexity of deployed code

A score from 0 to 100: a point for every hundred instructions and five for every function, added and
rounded in binary floating point.
-/

namespace ContractLens.Complexity

/-- Why a score cannot be computed. -/
inductive Fault where
  /-- The hundredth part of the instructions is beyond all binary numbers. -/
  | quotient
  /-- The points for functions are beyond all binary numbers. -/
  | points
  /-- Both are binary numbers, and their sum is beyond all of them. -/
  | sum
  deriving DecidableEq

/-- The words of a fault. -/
def Fault.message : Fault → String
  | quotient => "integer division result too large for a float"
  | points => "int too large to convert to float"
  | sum => "cannot convert float infinity to integer"

/-- A number cut to the range from 0 to 100. -/
def clamp (n : Int) : Int := max 0 (min 100 n)

/-- The score of so many instructions and functions. -/
def score (instructions functions : Int) : Except Fault Int :=
  match Binary64.ofRatio (instructions < 0) instructions.natAbs 100 with
  | .finite negative mantissa exponent =>
    match Binary64.ofInt (functions * 5) with
    | .finite s m e =>
      match (Binary64.add (.finite negative mantissa exponent) (.finite s m e)).round? with
      | some rounded => .ok (clamp rounded)
      | none => .error .sum
    | _ => .error .points
  | _ => .error .quotient

end ContractLens.Complexity
