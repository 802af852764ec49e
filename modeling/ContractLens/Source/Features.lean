import ContractLens.Source.Parsed
/-!
# Features of a source set

Counts over the combined text of a set, and flags that say whether a telling word occurs in it.
-/

namespace ContractLens

open Schema Text

/-- Counts and flags over the combined text of a source set. -/
structure Features where
  /-- The count of files. -/
  fileCount : Int
  /-- The count of contracts, zero for a set that was not parsed. -/
  contractCount : Int
  /-- The count of lines of the combined text. -/
  lineCount : Int
  /-- The count of functions of the combined text. -/
  functionCount : Int
  /-- Modifiers are mentioned. -/
  hasModifiers : Bool
  /-- Events are mentioned. -/
  hasEvents : Bool
  /-- Structures are mentioned. -/
  hasStructs : Bool
  /-- Enumerations are mentioned. -/
  hasEnums : Bool
  /-- Libraries are mentioned. -/
  hasLibraries : Bool
  /-- Interfaces are mentioned. -/
  hasInterfaces : Bool
  /-- Calls in the caller's context are mentioned. -/
  hasDelegateCall : Bool
  /-- Self-destruction is mentioned. -/
  hasSelfDestruct : Bool
  /-- Assembly is mentioned. -/
  hasAssembly : Bool
  /-- Unchecked arithmetic is mentioned. -/
  hasUnchecked : Bool
  /-- A low-level call is made. -/
  hasLowLevelCall : Bool
  /-- Value is transferred. -/
  hasTransfer : Bool
  /-- A guard against reentrancy is mentioned. -/
  hasReentrancyGuard : Bool
  /-- An owner is mentioned. -/
  hasOwnable : Bool
  /-- Pausing is mentioned. -/
  hasPausable : Bool
  deriving DecidableEq

namespace Features

/-- Reads features. -/
def read : Reader Features := record "SourceFeatures" fun o =>
  let count (field : FieldName) := defaulted o field integer 0
  let flag (field : FieldName) := defaulted o field bool false
  Features.mk <$> count Names.fileCount <*> count Names.contractCount <*> count Names.lineCount
    <*> count Names.functionCount <*> flag Names.hasModifiers <*> flag Names.hasEvents
    <*> flag Names.hasStructs <*> flag Names.hasEnums <*> flag Names.hasLibraries
    <*> flag Names.hasInterfaces <*> flag Names.hasDelegateCall <*> flag Names.hasSelfDestruct
    <*> flag Names.hasAssembly <*> flag Names.hasUnchecked <*> flag Names.hasLowLevelCall
    <*> flag Names.hasTransfer <*> flag Names.hasReentrancyGuard <*> flag Names.hasOwnable
    <*> flag Names.hasPausable

/-- Features as a value. -/
def toJson (naming : Naming) (f : Features) : Json := .object [
  (naming.of Names.fileCount, .int f.fileCount),
  (naming.of Names.contractCount, .int f.contractCount),
  (naming.of Names.lineCount, .int f.lineCount),
  (naming.of Names.functionCount, .int f.functionCount),
  (naming.of Names.hasModifiers, .bool f.hasModifiers),
  (naming.of Names.hasEvents, .bool f.hasEvents),
  (naming.of Names.hasStructs, .bool f.hasStructs),
  (naming.of Names.hasEnums, .bool f.hasEnums),
  (naming.of Names.hasLibraries, .bool f.hasLibraries),
  (naming.of Names.hasInterfaces, .bool f.hasInterfaces),
  (naming.of Names.hasDelegateCall, .bool f.hasDelegateCall),
  (naming.of Names.hasSelfDestruct, .bool f.hasSelfDestruct),
  (naming.of Names.hasAssembly, .bool f.hasAssembly),
  (naming.of Names.hasUnchecked, .bool f.hasUnchecked),
  (naming.of Names.hasLowLevelCall, .bool f.hasLowLevelCall),
  (naming.of Names.hasTransfer, .bool f.hasTransfer),
  (naming.of Names.hasReentrancyGuard, .bool f.hasReentrancyGuard),
  (naming.of Names.hasOwnable, .bool f.hasOwnable),
  (naming.of Names.hasPausable, .bool f.hasPausable)]

/-- Reads a dot, a member's name, blanks and one of some opening brackets. -/
def memberCall (member : String) (openings : List Char) : Recogniser Unit := fun _ cs => do
  let rest ← dropStart? ('.' :: member.toList) cs
  match rest.dropWhile isBlank with
  | c :: rest => if openings.contains c then some ((), rest) else none
  | [] => none

/-- Reads a low-level call. -/
def lowLevelCall : Recogniser Unit := memberCall "call" ['(', '\x7b']

/-- Reads a transfer of value. -/
def valueTransfer : Recogniser Unit := fun afterWord cs =>
  match memberCall "transfer" ['('] afterWord cs with
  | some found => some found
  | none => memberCall "send" ['('] afterWord cs

/-- The features of a combined text, given the counts of files and of contracts. -/
def ofText (fileCount contractCount : Nat) (code : List Char) : Features :=
  let mentions (word : String) : Bool := contains word.toList code
  { fileCount := fileCount
    contractCount := contractCount
    lineCount := (splitLines code).length
    functionCount := (findAll Declaration.functionName code).length
    hasModifiers := mentions "modifier"
    hasEvents := mentions "event"
    hasStructs := mentions "struct"
    hasEnums := mentions "enum"
    hasLibraries := mentions "library"
    hasInterfaces := mentions "interface"
    hasDelegateCall := mentions "delegatecall"
    hasSelfDestruct := mentions "selfdestruct"
    hasAssembly := mentions "assembly"
    hasUnchecked := mentions "unchecked"
    hasLowLevelCall := occurs lowLevelCall code
    hasTransfer := occurs valueTransfer code
    hasReentrancyGuard := mentions "nonReentrant" || mentions "ReentrancyGuard"
    hasOwnable := mentions "Ownable" || mentions "onlyOwner"
    hasPausable := mentions "Pausable" || mentions "whenNotPaused" }

/-- The features of a source set, with its contracts counted if it was parsed. -/
def ofFiles (files : List SourceFile) (parsed : Option ParsedSources) : Features :=
  ofText files.length ((parsed.map (·.contracts.length)).getD 0) (SourceFile.combine files)

end Features

end ContractLens
