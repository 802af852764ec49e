import ContractLens.Bytecode.Report
import ContractLens.Calendar.Reader
import ContractLens.Failure
import ContractLens.Import.Graph
import ContractLens.Source.Features
/-!
# Analysis records

The finished analysis of one contract, from source or from code. It is written member by member in a
fixed order, and read back from the same members (under either of their names).
-/

namespace ContractLens

open Schema

/-- What the layout of deployed code says about a proxy. -/
structure ProxySigns where
  /-- The code is a minimal proxy. -/
  minimal : Bool
  deriving DecidableEq, Inhabited

/-- Reads the signs of a proxy. -/
def ProxySigns.read : Reader ProxySigns := record "ProxyInfo" fun o =>
  ProxySigns.mk <$> defaulted o Names.eip1167 bool false

/-- The signs of a proxy as a value. -/
def ProxySigns.toJson (naming : Naming) (p : ProxySigns) : Json :=
  .object [(naming.of Names.eip1167, .bool p.minimal)]

/-- The finished analysis of one contract. -/
structure AnalysisRecord where
  /-- The address of the contract. -/
  address : String
  /-- The chain it is deployed on. -/
  chainId : Int
  /-- Whether it was analysed from verified source. -/
  verified : Bool
  /-- The contract's name. -/
  contractName : String
  /-- What was found in its source. -/
  parsed : Option ParsedSources
  /-- What became of its imports. -/
  imports : Option Resolution
  /-- Which file imports what. -/
  dependencyGraph : Import.DependencyGraph
  /-- The features of its source. -/
  features : Option Features
  /-- What its code shows. -/
  bytecodeAnalysis : Option BytecodeReport
  /-- What the layout of its code says about a proxy. -/
  proxy : ProxySigns
  /-- Whether its code can be replaced behind its address. -/
  isUpgradeable : Bool
  /-- Whether the analysis may be remembered. -/
  cacheEligible : Bool
  /-- When it was analysed. -/
  analyzedAt : Timestamp
  /-- The analysis it came from. -/
  analysisId : String
  deriving DecidableEq, Inhabited

namespace AnalysisRecord

/-- The name of the kind of record. -/
def model : String := "AnalysisRecord"

/-- Reads a record; without a time of its own it is taken to be made now. -/
def read (now : Timestamp) : Reader AnalysisRecord := record model fun o =>
  AnalysisRecord.mk <$> required o Names.address text <*> required o Names.chainId integer
    <*> required o Names.verified bool <*> defaulted o Names.contractName text ""
    <*> defaulted o Names.parsed (optional ParsedSources.read) none
    <*> defaulted o Names.imports (optional Resolution.read) none
    <*> defaulted o Names.dependencyGraph Import.DependencyGraph.read []
    <*> defaulted o Names.features (optional Features.read) none
    <*> defaulted o Names.bytecodeAnalysis (optional BytecodeReport.read) none
    <*> defaulted o Names.proxy ProxySigns.read ⟨false⟩
    <*> defaulted o Names.isUpgradeable bool false <*> defaulted o Names.cacheEligible bool true
    <*> defaulted o Names.analyzedAt timestamp now <*> defaulted o Names.analysisId text ""

/-- A part that may be absent, as a value. -/
def optionalJson {α : Type} (toJson : α → Json) : Option α → Json
  | some part => toJson part
  | none => .null

/-- A record as a value. -/
def toJson (naming : Naming) (r : AnalysisRecord) : Json := .object [
  (naming.of Names.address, .text r.address),
  (naming.of Names.chainId, .int r.chainId),
  (naming.of Names.verified, .bool r.verified),
  (naming.of Names.contractName, .text r.contractName),
  (naming.of Names.parsed, optionalJson (ParsedSources.toJson naming) r.parsed),
  (naming.of Names.imports, optionalJson (Resolution.toJson naming) r.imports),
  (naming.of Names.dependencyGraph, r.dependencyGraph.toJson),
  (naming.of Names.features, optionalJson (Features.toJson naming) r.features),
  (naming.of Names.bytecodeAnalysis,
    optionalJson (BytecodeReport.toJson naming) r.bytecodeAnalysis),
  (naming.of Names.proxy, r.proxy.toJson naming),
  (naming.of Names.isUpgradeable, .bool r.isUpgradeable),
  (naming.of Names.cacheEligible, .bool r.cacheEligible),
  (naming.of Names.analyzedAt, .text (String.ofList r.analyzedAt.toText)),
  (naming.of Names.analysisId, .text r.analysisId)]

/-- A record as compact text. -/
def encode (r : AnalysisRecord) : String := (r.toJson .wire).write .compact

variable [Platform]

/-- The text under which a record is stored, unless one of its texts has no UTF-8. -/
def encoded (r : AnalysisRecord) : Except String String :=
  match (r.toJson .wire).unwritable? with
  | some reason => .error ("Error serializing to JSON: UnicodeEncodeError: " ++ reason)
  | none => .ok r.encode

/-- Reads a stored text back. -/
def decode (now : Timestamp) (s : String) : Except Failure AnalysisRecord :=
  match Json.read s with
  | .error reason => .error (.unreadable reason)
  | .ok value =>
    match read now value with
    | .accepted record => .ok record
    | .refused problems => .error (.refused model problems)

end AnalysisRecord

end ContractLens
