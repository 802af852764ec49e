import ContractLens.Bytecode.Selector
import ContractLens.Failure
/-!
# Risks of deployed code

Five signals, each contributing at most one finding with its recommendation; the count of findings
decides the severity. How often a contract can destroy itself changes the words of that finding
only. Many times are named in them, and a number that is too long to be written ends the assessment.
-/

namespace ContractLens

open Schema

/-- How severe the findings are together. -/
inductive Severity where
  /-- At most one finding. -/
  | low
  /-- Two findings. -/
  | medium
  /-- Three findings or more. -/
  | high
  /-- Beyond what the signals alone decide. -/
  | critical
  deriving DecidableEq, Inhabited

/-- The word for a severity. -/
def Severity.word : Severity → String
  | low => "low"
  | medium => "medium"
  | high => "high"
  | critical => "critical"

/-- The severities by their words. -/
def Severity.table : List (String × Severity) :=
  [low, medium, high, critical].map fun s => (s.word, s)

/-- Reads a severity. -/
def Severity.read : Reader Severity := oneOf Severity.table .notMember

/-- The severity of so many findings. -/
def Severity.ofCount (count : Int) : Severity :=
  if 3 ≤ count then high else if count == 2 then medium else low

/-- Findings with recommendations. -/
structure RiskAssessment where
  /-- How severe the findings are together. -/
  severity : Severity
  /-- What was found. -/
  risks : List String
  /-- What to do about it, finding by finding. -/
  recommendations : List String
  deriving DecidableEq, Inhabited

namespace RiskAssessment

/-- No findings. -/
def none : RiskAssessment := ⟨.low, [], []⟩

/-- Reads findings. -/
def read : Reader RiskAssessment := record "RiskAssessment" fun o =>
  RiskAssessment.mk <$> defaulted o Names.severity Severity.read .low
    <*> defaulted o Names.risks (list text) []
    <*> defaulted o Names.recommendations (list text) []

/-- Findings as a value. -/
def toJson (naming : Naming) (r : RiskAssessment) : Json := .object [
  (naming.of Names.severity, .text r.severity.word),
  (naming.of Names.risks, .texts r.risks),
  (naming.of Names.recommendations, .texts r.recommendations)]

end RiskAssessment

/-- From when on counts are reported in stronger words, or at all. -/
structure Thresholds where
  /-- More self-destructions than this are many. -/
  selfDestructHigh : Int := 10
  /-- More self-destructions than this are excessive. -/
  selfDestructCritical : Int := 100
  /-- With more functions than this, control of access is expected. -/
  accessControlFunctions : Int := 5

namespace Risk

/-- What a signal found, and what to do about it. -/
structure Finding where
  /-- What was found. -/
  risk : String
  /-- What to do about it. -/
  recommendation : String

/-- How often an instruction was counted. -/
def countOf (counts : Table Int) (name : String) : Int := (counts.get? name).getD 0

/-- The finding on self-destruction. -/
def selfDestruction (thresholds : Thresholds) (count : Int) : Option Finding :=
  if thresholds.selfDestructCritical < count then some {
    risk := s!"CRITICAL: Excessive SELFDESTRUCT opcodes ({count}) - likely malicious contract"
    recommendation := "DO NOT INTERACT: contract can be destroyed from many code paths" }
  else if thresholds.selfDestructHigh < count then some {
    risk := s!"HIGH: Multiple SELFDESTRUCT opcodes ({count}) - verify destruction paths"
    recommendation := "Verify who can trigger contract destruction" }
  else if count != 0 then some {
    risk := "Contract can self-destruct"
    recommendation := "Verify self-destruct functionality is intentional" }
  else none

/-- A finding that is there when its signal is. -/
def signal (present : Bool) (finding : Finding) : Option Finding :=
  if present then some finding else none

/-- Whether an instruction was counted. -/
def counted (counts : Table Int) (name : String) : Bool := countOf counts name != 0

/-- Whether one of the functions shows some control of access. -/
def controlsAccess (selectors : List Selector) : Bool :=
  selectors.any fun s => Selector.accessControlGroup.contains s.selector

/-- The findings of all signals. -/
def findings (thresholds : Thresholds) (counts : Table Int) (selectors : List Selector) :
    List Finding :=
  [ selfDestruction thresholds (countOf counts "SELFDESTRUCT"),
    signal (counted counts "DELEGATECALL")
      ⟨"Contract uses delegatecall - potential proxy pattern",
        "Verify delegatecall usage is secure"⟩,
    signal (counted counts "CREATE" || counted counts "CREATE2")
      ⟨"Contract can create new contracts", "Verify contract creation logic"⟩,
    signal (counted counts "CALL" && counted counts "SSTORE")
      ⟨"Potential reentrancy vulnerability", "Implement reentrancy guards"⟩,
    signal (thresholds.accessControlFunctions < selectors.length && !controlsAccess selectors)
      ⟨"No apparent access control mechanisms", "Add access control to privileged functions"⟩
  ].filterMap id

/-- What the findings come to. -/
def rate (thresholds : Thresholds) (counts : Table Int) (selectors : List Selector) :
    RiskAssessment :=
  let found := findings thresholds counts selectors
  { severity := .ofCount found.length
    risks := found.map (·.risk)
    recommendations := found.map (·.recommendation) }

/-- The count of self-destructions, if the finding on them names it. -/
def named? (thresholds : Thresholds) (counts : Table Int) : Option Int :=
  let count := countOf counts "SELFDESTRUCT"
  if thresholds.selfDestructCritical < count ∨ thresholds.selfDestructHigh < count then some count
  else none

/-- The assessment of a code's counts and functions. -/
def assess (thresholds : Thresholds) (counts : Table Int) (selectors : List Selector) :
    Except Failure RiskAssessment :=
  match (named? thresholds counts).map numberText with
  | some (.error failure) => .error failure
  | _ => .ok (rate thresholds counts selectors)

end Risk

end ContractLens
