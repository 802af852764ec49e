import ContractLens.Source.File
/-!
# What is analysed

Either the verified source of a contract, or the code that is deployed at an address. A value says
by its member `kind` which of the two it is.
-/

namespace ContractLens

open Schema

/-- The verified source of a contract. -/
structure VerifiedInput where
  /-- The address of the contract. -/
  address : String
  /-- The chain it is deployed on. -/
  chainId : Int
  /-- The contract's name. -/
  contractName : String
  /-- The compiler's version. -/
  compilerVersion : String
  /-- The files of its source. -/
  files : List SourceFile
  /-- The descriptions of its functions and events. -/
  abi : List Json
  deriving Inhabited

/-- The code deployed at an address. -/
structure BytecodeInput where
  /-- The address of the contract. -/
  address : String
  /-- The chain it is deployed on. -/
  chainId : Int
  /-- The code in base sixteen. -/
  bytecodeHex : String
  deriving DecidableEq, Inhabited

/-- What is analysed. -/
inductive AnalysisInput where
  /-- Verified source. -/
  | verified (input : VerifiedInput)
  /-- Deployed code. -/
  | bytecode (input : BytecodeInput)

/-- The kind of verified source. -/
def VerifiedInput.kind : String := "verified"

/-- Reads verified source. -/
def VerifiedInput.read : Reader VerifiedInput := record "VerifiedInput" fun o =>
  (fun _ address chainId contractName compilerVersion files abi =>
      VerifiedInput.mk address chainId contractName compilerVersion files abi)
    <$> defaulted o Names.kind (literalText kind) () <*> defaulted o Names.address text ""
    <*> defaulted o Names.chainId integer 1 <*> defaulted o Names.contractName text ""
    <*> defaulted o Names.compilerVersion text ""
    <*> defaulted o Names.files (list SourceFile.read) []
    <*> defaulted o Names.abi (list object) []

/-- Verified source as a value. -/
def VerifiedInput.toJson (naming : Naming) (v : VerifiedInput) : Json := .object [
  (naming.of Names.kind, .text kind),
  (naming.of Names.address, .text v.address),
  (naming.of Names.chainId, .int v.chainId),
  (naming.of Names.contractName, .text v.contractName),
  (naming.of Names.compilerVersion, .text v.compilerVersion),
  (naming.of Names.files, .list (v.files.map (SourceFile.toJson naming))),
  (naming.of Names.abi, .list v.abi)]

/-- The kind of deployed code. -/
def BytecodeInput.kind : String := "bytecode"

/-- Reads deployed code. -/
def BytecodeInput.read : Reader BytecodeInput := record "BytecodeInput" fun o =>
  (fun _ address chainId bytecodeHex => BytecodeInput.mk address chainId bytecodeHex)
    <$> defaulted o Names.kind (literalText kind) () <*> defaulted o Names.address text ""
    <*> defaulted o Names.chainId integer 1 <*> defaulted o Names.bytecodeHex text "0x"

/-- Deployed code as a value. -/
def BytecodeInput.toJson (naming : Naming) (b : BytecodeInput) : Json := .object [
  (naming.of Names.kind, .text kind),
  (naming.of Names.address, .text b.address),
  (naming.of Names.chainId, .int b.chainId),
  (naming.of Names.bytecodeHex, .text b.bytecodeHex)]

namespace AnalysisInput

/-- Reads an input by the kind it names. The problems of a kind stand under its name. -/
def read : Reader AnalysisInput := fun input =>
  match input with
  | .object members =>
    match find? members Names.kind with
    | none => .refuse .tagMissing input
    | some (_, .text kind) =>
      if kind == VerifiedInput.kind then
        .under (.name VerifiedInput.kind) (.map verified (VerifiedInput.read input))
      else if kind == BytecodeInput.kind then
        .under (.name BytecodeInput.kind) (.map bytecode (BytecodeInput.read input))
      else .refuse .tagUnknown input
    | some _ => .refuse .tagUnknown input
  | _ => .refuse .notTagged input

/-- An input as a value. -/
def toJson (naming : Naming) : AnalysisInput → Json
  | verified v => v.toJson naming
  | bytecode b => b.toJson naming

/-- The name of the kind of record. -/
def model : AnalysisInput → String
  | verified _ => "VerifiedInput"
  | bytecode _ => "BytecodeInput"

end AnalysisInput

end ContractLens
