import ContractLens.Log.Entry
import ContractLens.Number.Decimal
import ContractLens.Source.CallGraph
import ContractLens.Source.File
import ContractLens.Source.MainContract
/-!
# Parsed source sets

All contracts of a set, who creates whom, the main one, and totals.
-/

namespace ContractLens

open Schema

/-- What was found in a source set. -/
structure ParsedSources where
  /-- The contracts, file by file. -/
  contracts : List Contract
  /-- Who creates whom. -/
  callGraph : CallGraph
  /-- The name of the main contract. -/
  mainContract : Option String
  /-- The count of lines of all files. -/
  totalLines : Int
  /-- The count of functions of all contracts. -/
  totalFunctions : Int
  /-- The count of events of all contracts. -/
  totalEvents : Int
  deriving DecidableEq

namespace ParsedSources

/-- Reads what was found in a source set. -/
def read : Reader ParsedSources := record "ParsedFiles" fun o =>
  ParsedSources.mk <$> defaulted o Names.contracts (list Contract.read) []
    <*> defaulted o Names.callGraph CallGraph.read []
    <*> defaulted o Names.mainContract (optional text) none
    <*> defaulted o Names.totalLines integer 0 <*> defaulted o Names.totalFunctions integer 0
    <*> defaulted o Names.totalEvents integer 0

/-- What was found in a source set as a value. -/
def toJson (naming : Naming) (parsed : ParsedSources) : Json := .object [
  (naming.of Names.contracts, .list (parsed.contracts.map (Contract.toJson naming))),
  (naming.of Names.callGraph, parsed.callGraph.toJson naming),
  (naming.of Names.mainContract, .optionalText parsed.mainContract),
  (naming.of Names.totalLines, .int parsed.totalLines),
  (naming.of Names.totalFunctions, .int parsed.totalFunctions),
  (naming.of Names.totalEvents, .int parsed.totalEvents)]

/-- The contracts of all files, in order. -/
def scanFiles (files : List SourceFile) : List ScannedContract :=
  files.flatMap fun file => Source.scanFile file.path file.content

/-- The sum of a count over a list. -/
def total {α : Type} (count : α → Nat) : List α → Nat
  | [] => 0
  | item :: items => count item + total count items

/-- Parses a source set. -/
def ofFiles (files : List SourceFile) : ParsedSources :=
  let scanned := scanFiles files
  let contracts := scanned.map (·.contract)
  let graph := CallGraph.ofContracts scanned
  { contracts := contracts
    callGraph := graph
    mainContract := mainContract? contracts graph
    totalLines := total (·.lines.length) files
    totalFunctions := total (·.functions.length) contracts
    totalEvents := total (·.events.length) contracts }

/-- The report on a parsed set. -/
def entry (parsed : ParsedSources) : Log.Entry where
  level := .debug
  component := .parser
  message :=
    let main := parsed.mainContract.getD "None"
    s!"Parsed {parsed.contracts.length} contracts ({parsed.totalLines} lines), main={main}"

end ParsedSources

end ContractLens
