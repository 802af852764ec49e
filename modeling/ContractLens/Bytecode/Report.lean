import ContractLens.Bytecode.Archetype
import ContractLens.Bytecode.Code
import ContractLens.Bytecode.Complexity
import ContractLens.Bytecode.Opcode
import ContractLens.Bytecode.Risk
import ContractLens.Log.Entry
/-!
# Reports on deployed code

What the code of a contract shows: how often each instruction occurs, the functions it answers to,
the kind of contract, the risks and a score for its complexity. Code of less than a byte is no
contract.
-/

namespace ContractLens

open Schema

/-- What the code of a contract shows. -/
structure BytecodeReport where
  /-- The address of the contract. -/
  address : String
  /-- The code as it was given. -/
  bytecode : String
  /-- Whether there is any code. -/
  isContract : Bool
  /-- The known functions in the order of first occurrence. -/
  functionSelectors : List Selector
  /-- How often each instruction occurs. -/
  opcodeCounters : Table Int
  /-- The kind of contract. -/
  contractType : String
  /-- The risks found. -/
  riskAssessment : RiskAssessment
  /-- The score for complexity, 0 to 100. -/
  estimatedComplexity : Int
  deriving DecidableEq

namespace BytecodeReport

/-- Reads a report on code. -/
def read : Reader BytecodeReport := record "BytecodeAnalysisResult" fun o =>
  BytecodeReport.mk <$> defaulted o Names.address text ""
    <*> defaulted o Names.bytecode text "0x" <*> defaulted o Names.isContract bool false
    <*> defaulted o Names.functionSelectors (list Selector.read) []
    <*> defaulted o Names.opcodeCounters (map integer) []
    <*> defaulted o Names.contractType text Archetype.custom.words
    <*> defaulted o Names.riskAssessment RiskAssessment.read .none
    <*> defaulted o Names.estimatedComplexity (integerBetween 0 100) 0

/-- A report on code as a value. -/
def toJson (naming : Naming) (r : BytecodeReport) : Json := .object [
  (naming.of Names.address, .text r.address),
  (naming.of Names.bytecode, .text r.bytecode),
  (naming.of Names.isContract, .bool r.isContract),
  (naming.of Names.functionSelectors, .list (r.functionSelectors.map (Selector.toJson naming))),
  (naming.of Names.opcodeCounters, .object (r.opcodeCounters.map fun (name, n) => (name, .int n))),
  (naming.of Names.contractType, .text r.contractType),
  (naming.of Names.riskAssessment, r.riskAssessment.toJson naming),
  (naming.of Names.estimatedComplexity, .int r.estimatedComplexity)]

/-- The report on an address without code. -/
def empty (address bytecode : String) : BytecodeReport where
  address := address
  bytecode := bytecode
  isContract := false
  functionSelectors := []
  opcodeCounters := []
  contractType := Archetype.custom.words
  riskAssessment := .none
  estimatedComplexity := 0

/-- The report on code in normal form. Its risks can be written: no code has as many bytes as make a
count too long. -/
def ofCode (thresholds : Thresholds) (address bytecode : String) (code : List Char) :
    BytecodeReport :=
  let counts := Opcode.count code
  let selectors := Selector.extract code
  { address := address
    bytecode := bytecode
    isContract := true
    functionSelectors := selectors
    opcodeCounters := counts
    contractType := (Archetype.ofSelectors (selectors.map (·.selector))).words
    riskAssessment := Risk.rate thresholds counts selectors
    estimatedComplexity :=
      let size := counts.foldl (fun size entry => size + entry.2) 0
      ((Complexity.score size selectors.length).toOption).getD 0 }

/-- The report on a code text. -/
def ofText (thresholds : Thresholds) (address bytecode : String) : BytecodeReport :=
  let code := Code.normalize bytecode.toList
  let shown := if bytecode.isEmpty then "0x" else bytecode
  if code.length < 2 then empty address shown else ofCode thresholds address shown code

/-- The log entry on a finished report; code of less than a byte has none. -/
def entry? (report : BytecodeReport) : Option Log.Entry :=
  if report.isContract then
    let bytes := (Code.normalize report.bytecode.toList).length / 2
    some {
      level := .info
      component := .bytecode
      message := s!"Bytecode analysis complete: {bytes} bytes, " ++
      s!"{report.functionSelectors.length} selectors, type={report.contractType}, " ++
      s!"severity={report.riskAssessment.severity.word}"
      context := { address := some report.address } }
  else none

end BytecodeReport

/-- Whether the code, or one of its functions, shows that it can be replaced behind its address. -/
def Code.isUpgradeable (code : List Char) (selectors : List Selector) : Bool :=
  Risk.counted (Opcode.count (Code.normalize code)) "DELEGATECALL" ||
    selectors.any fun s => Selector.proxyAdminGroup.contains s.selector

end ContractLens
