import ContractLens.Analysis.Record
import ContractLens.Cli.Help
import ContractLens.Cli.Paint
import ContractLens.Json.Shown
import ContractLens.Settings
/-!
# Results for people

A record is shown as coloured lines: what its source holds and what became of its imports, or what
its code shows, and in the end whether the contract can be replaced. A quiet result leaves out what
can be looked up in the full one.
-/

namespace ContractLens.Cli

/-- The version of the program. -/
def version : String := "0.1.0"

/-- What is shown when the program starts. -/
def banner : List String := [
  "",
  Ink.bold.code ++ Ink.cyan.code ++ "  ___  _    _ ___  ___ _____",
  " / _ \\| |  | |   \\|_ _|_   _|",
  "| (_) | |/\\| | |) || |  | |",
  " \\___/|__/\\__|___/|___| |_|" ++ plainCode,
  "  " ++ paint [.faint] ("Smart Contract Static Analysis - v" ++ version),
  ""]

/-- A count. -/
def count {α : Type} (l : List α) : String := natText l.length

/-- Lines that a quiet result leaves out. -/
def unlessQuiet (quiet : Bool) (ls : List String) : List String := if quiet then [] else ls

/-! ## The end of a result -/

/-- Whether the contract can be replaced behind its address. -/
def upgradeLines (record : AnalysisRecord) : List String :=
  if record.isUpgradeable then
    let proxy := if record.proxy.minimal then " (EIP-1167 minimal proxy)" else ""
    [paint [.yellow]
      ("\n  Upgradeable or proxy pattern detected" ++ proxy ++ " - result not cached."), ""]
  else [paint [.green] "\n  No upgradeability pattern detected.", ""]

/-! ## Verified source -/

/-- What the source holds in all. -/
def summaryLines (parsed : ParsedSources) : List String := [
  "\n" ++ paint [.bold] "Analysis complete" ++ " - main contract: " ++
    paint [.cyan] (((parsed.mainContract.filter (!·.isEmpty))).getD "(none)"),
  "  Contracts: " ++ count parsed.contracts ++
    "  |  Functions: " ++ intText parsed.totalFunctions ++
    "  |  Events: " ++ intText parsed.totalEvents ++ "  |  Lines: " ++ intText parsed.totalLines ++
    "\n"]

/-- A contract. -/
def contractLines (quiet : Bool) (contract : Contract) : List String :=
  let tag := if contract.isAbstract then paint [.faint] " abstract" else ""
  let bases := if contract.inherits.isEmpty then ""
    else paint [.faint] (" is " ++ ", ".intercalate contract.inherits)
  ("  " ++ paint [.bold] contract.name ++ bases ++ tag ++ "  " ++ paint [.faint] contract.path) ::
    unlessQuiet quiet ["       " ++ paint [.faint]
      (count contract.functions ++ " functions, " ++ count contract.events ++ " events, " ++
        count contract.modifiers ++ " modifiers, " ++ intText contract.lineCount ++ " lines")]

/-- What became of the imports. -/
def importLines (quiet : Bool) (imports : Resolution) : List String :=
  let ink := if imports.missing.isEmpty then Ink.green else .yellow
  ("\n  Imports: " ++ paint [.green] (count imports.resolved) ++ " resolved (" ++
      count imports.autoFetched ++ " auto-fetched), " ++ paint [ink] (count imports.missing) ++
      " missing") ::
    unlessQuiet quiet (imports.missing.map fun missing =>
      "       " ++ paint [.faint] (missing.path ++ ": " ++ missing.error))

/-- The record of verified source. -/
def verifiedLines (quiet : Bool) (record : AnalysisRecord) : List String :=
  match record.parsed, record.imports with
  | some parsed, some imports =>
    unlessQuiet quiet (summaryLines parsed) ++ parsed.contracts.flatMap (contractLines quiet) ++
      importLines quiet imports ++ upgradeLines record
  | _, _ => []

/-! ## Deployed code -/

/-- The ink for a severity. -/
def severityInk : Severity → Ink
  | .critical => .red
  | .high => .orange
  | .medium => .yellow
  | .low => .cyan

/-- What the code shows in all. -/
def codeSummaryLines (report : BytecodeReport) : List String :=
  let severity := report.riskAssessment.severity
  let badge := paint [severityInk severity, .bold] (" " ++ severity.word.toUpper ++ " ")
  ["\n" ++ paint [.bold] "Bytecode analysis complete" ++ " - " ++
      paint [.cyan] report.contractType ++ " " ++ badge,
    "  Selectors: " ++ count report.functionSelectors ++ "  |  Complexity: " ++
      intText report.estimatedComplexity ++ "/100\n"]

/-- The functions of the code, and an empty line after them. -/
def selectorLines (selectors : List Selector) : List String :=
  selectors.map (fun selector =>
    "  " ++ paint [.faint] selector.selector ++ "  " ++ selector.signature) ++
  (if selectors.isEmpty then [] else [""])

/-- The risks of the code. -/
def riskLines (assessment : RiskAssessment) : List String :=
  if assessment.risks.isEmpty then [paint [.green] "  No risk signals found."]
  else assessment.risks.map (fun risk => "  " ++ paint [.red] "!" ++ " " ++ risk) ++
    assessment.recommendations.map fun advice => "    " ++ paint [.faint] ("-> " ++ advice)

/-- The record of deployed code. -/
def bytecodeLines (quiet : Bool) (record : AnalysisRecord) : List String :=
  match record.bytecodeAnalysis with
  | none => []
  | some report =>
    if !report.isContract then [paint [.yellow] "  No contract code at this address."]
    else codeSummaryLines report ++ unlessQuiet quiet (selectorLines report.functionSelectors) ++
      riskLines report.riskAssessment ++ upgradeLines record

/-- A record. -/
def recordLines (quiet : Bool) (record : AnalysisRecord) : List String :=
  if record.verified then verifiedLines quiet record else bytecodeLines quiet record

/-! ## Settings -/

/-- Whether a setting is kept secret. -/
def isSecret (name : String) : Bool := ["password", "secret", "key", "token"].any fun word =>
  Text.contains word.toList name.toList

/-- A setting's value; a secret one only shows whether it is set. -/
def settingText (name : String) (value : Json) : String :=
  if isSecret name then if value.isVoid then "(not set)" else "****"
  else value.display

/-- The nodes to ask instead of the usual ones, by chain. -/
def nodesText (nodes : NodeTable) : String :=
  "\x7b" ++ ", ".intercalate (nodes.map fun (chain, url) =>
    intText chain ++ ": " ++ Text.quotedString url) ++ "\x7d"

/-- The values of the settings by name, the node table as text. -/
def settingValues (settings : Settings) : Table Json :=
  Table.update settings.toMembers Settings.nodesName fun _ =>
    .text (nodesText settings.rpcOverrides)

/-- The settings, by name in alphabetical order. -/
def settingLines (settings : Settings) : List String :=
  let sorted := (settingValues settings).mergeSort fun x y => x.1 ≤ y.1
  ["\n" ++ paint [.bold] "Owdit Configuration" ++ "\n"] ++
    sorted.map (fun (name, value) =>
      "  " ++ paint [.faint] (name ++ ":") ++ "  " ++ settingText name value) ++ [""]

end ContractLens.Cli
