import ContractLens.Analysis.Input
import ContractLens.Analysis.Record
import ContractLens.Import.Resolve
import ContractLens.Settings
import ContractLens.Source.Upgradeable
/-!
# Analysing a contract

Verified source is parsed, its imports are resolved, its features are collected and its text is
searched for signs of upgradeability. Deployed code is taken apart into instructions and functions.
Either way the record may be remembered exactly when the contract is not upgradeable.
-/

namespace ContractLens

/-- What an analysis works with. -/
structure Workbench where
  /-- All settings. -/
  settings : Settings
  /-- How the network answers. -/
  net : Http.Network
  /-- Where imports are looked up, if not where the settings say. -/
  library : Option Library
  /-- When the analysis is made. -/
  now : Timestamp

namespace Workbench

/-- Where the settings say that imports are looked up: in the built-in bodies, and then among the
public packages if that is allowed. -/
def libraryOf (settings : Settings) : Library :=
  if settings.importCdnEnabled then .chain [.standard, .remote settings.importCdnUrl]
  else .standard

/-- The record of verified source, given what was found in it. -/
def verifiedRecord (bench : Workbench) (id : String) (input : VerifiedInput)
    (parsed : ParsedSources) (imports : Resolution) : AnalysisRecord :=
  let upgradeable := Upgradeable.inSource (SourceFile.combine input.files)
  let main := parsed.mainContract.getD ""
  { address := input.address
    chainId := input.chainId
    verified := true
    contractName := if input.contractName.isEmpty then main else input.contractName
    parsed := some parsed
    imports := some imports
    dependencyGraph := Import.resolvedGraph input.files imports
    features := some (Features.ofFiles input.files (some parsed))
    bytecodeAnalysis := none
    proxy := ⟨false⟩
    isUpgradeable := upgradeable
    cacheEligible := !upgradeable
    analyzedAt := bench.now
    analysisId := id }

/-- Analyses verified source. -/
def analyzeVerified (bench : Workbench) (id : String) (input : VerifiedInput) :
    Traced AnalysisRecord := do
  let parsed := ParsedSources.ofFiles input.files
  Traced.note parsed.entry
  let imports ← Import.resolveWith bench.net (bench.library.getD (libraryOf bench.settings))
    (.ofSeconds bench.settings.importTimeoutSeconds) input.files
  return bench.verifiedRecord id input parsed imports

/-- The record of deployed code, given what it shows. -/
def bytecodeRecord (bench : Workbench) (id : String) (input : BytecodeInput)
    (report : BytecodeReport) : AnalysisRecord :=
  let code := input.bytecodeHex.toList
  let minimal := Code.isMinimalProxy code
  let upgradeable := minimal || Code.isUpgradeable code report.functionSelectors
  { address := input.address
    chainId := input.chainId
    verified := false
    contractName := ""
    parsed := none
    imports := none
    dependencyGraph := []
    features := none
    bytecodeAnalysis := some report
    proxy := ⟨minimal⟩
    isUpgradeable := upgradeable
    cacheEligible := !upgradeable
    analyzedAt := bench.now
    analysisId := id }

/-- Analyses deployed code. -/
def analyzeBytecode (bench : Workbench) (id : String) (input : BytecodeInput) :
    Traced AnalysisRecord := do
  let report := BytecodeReport.ofText bench.settings.thresholds input.address input.bytecodeHex
  Traced.noteAll report.entry?.toList
  return bench.bytecodeRecord id input report

/-- The report on a finished analysis. -/
def doneEntry (record : AnalysisRecord) : Log.Entry where
  level := .info
  component := .engine
  message :=
    let verified := (Json.bool record.verified).display
    let upgradeable := (Json.bool record.isUpgradeable).display
    s!"Analysis complete: verified={verified} upgradeable={upgradeable}"
  context := { address := some record.address, chainId := some record.chainId }

/-- Analyses an input under the given name. -/
def analyze (bench : Workbench) (id : String) (input : AnalysisInput) : Traced AnalysisRecord := do
  let record ← match input with
    | .verified input => bench.analyzeVerified id input
    | .bytecode input => bench.analyzeBytecode id input
  Traced.note (doneEntry record)
  return record

end Workbench

end ContractLens
