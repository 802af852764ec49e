import ContractLens.Schema.Names
import ContractLens.Text.Scan
/-!
# Records of imports

Where an import comes from, and what became of it: resolved with its content, or missing with the
reason.
-/

namespace ContractLens

open Schema

/-- Where an import's content would come from. -/
inductive Provenance where
  /-- A file of the set, named relative to the importing one. -/
  | relative
  /-- A package of a library. -/
  | npm
  /-- A file of a code host. -/
  | github
  /-- Nowhere known. -/
  | unknown
  deriving DecidableEq, Inhabited

namespace Provenance

/-- The word for a provenance. -/
def word : Provenance → String
  | relative => "relative"
  | npm => "npm"
  | github => "github"
  | unknown => "unknown"

/-- The provenances by their words. -/
def table : List (String × Provenance) := [relative, npm, github, unknown].map fun p => (p.word, p)

/-- Reads a provenance. -/
def read : Reader Provenance := oneOf table .notMember

/-- The beginnings of package paths. -/
def packageStarts : List String := [
  "@openzeppelin/", "@chainlink/", "@uniswap/", "@aave/", "hardhat/", "forge-std/", "ds-test/",
  "solmate/", "solady/"]

/-- The code hosts. -/
def hosts : List String := ["github.com/", "raw.githubusercontent.com/"]

/-- Whether a text starts with a part. -/
def startsWith (part : String) (cs : List Char) : Bool := (Text.dropStart? part.toList cs).isSome

/-- Where the import with the given path would come from. -/
def ofPath (path : String) : Provenance :=
  let cs := path.toList
  if startsWith "./" cs || startsWith "../" cs then relative
  else if packageStarts.any (startsWith · cs) then npm
  else if hosts.any (fun host => Text.contains host.toList cs) then github
  else unknown

end Provenance

/-- An import whose content was found. -/
structure ResolvedImport where
  /-- The path as it is imported. -/
  path : String
  /-- Where the content comes from. -/
  type : Provenance
  /-- The content. -/
  content : String
  deriving DecidableEq, Inhabited

/-- Reads a resolved import. -/
def ResolvedImport.read : Reader ResolvedImport := record "ResolvedImport" fun o =>
  (fun path type _ content => ResolvedImport.mk path type content)
    <$> required o Names.path text <*> required o Names.type Provenance.read
    <*> defaulted o Names.resolved (literalBool true) () <*> required o Names.content text

/-- A resolved import as a value. -/
def ResolvedImport.toJson (naming : Naming) (r : ResolvedImport) : Json := .object [
  (naming.of Names.path, .text r.path), (naming.of Names.type, .text r.type.word),
  (naming.of Names.resolved, .bool true), (naming.of Names.content, .text r.content)]

/-- An import that was not found, with the reason. -/
structure MissingImport where
  /-- The path as it is imported. -/
  path : String
  /-- Where the content would come from. -/
  type : Provenance
  /-- Why there is none. -/
  error : String
  deriving DecidableEq, Inhabited

/-- Reads a missing import. -/
def MissingImport.read : Reader MissingImport := record "MissingImport" fun o =>
  (fun path type _ error => MissingImport.mk path type error)
    <$> required o Names.path text <*> required o Names.type Provenance.read
    <*> defaulted o Names.resolved (literalBool false) () <*> required o Names.error text

/-- A missing import as a value. -/
def MissingImport.toJson (naming : Naming) (m : MissingImport) : Json := .object [
  (naming.of Names.path, .text m.path), (naming.of Names.type, .text m.type.word),
  (naming.of Names.resolved, .bool false), (naming.of Names.error, .text m.error)]

/-- What became of all imports of a set. -/
structure Resolution where
  /-- Those whose content was found. -/
  resolved : List ResolvedImport
  /-- Those that were not found. -/
  missing : List MissingImport
  /-- Those of the first whose content came from a library. -/
  autoFetched : List ResolvedImport
  deriving DecidableEq, Inhabited

/-- Reads what became of imports. -/
def Resolution.read : Reader Resolution := record "ResolvedImports" fun o =>
  Resolution.mk <$> defaulted o Names.resolved (list ResolvedImport.read) []
    <*> defaulted o Names.missing (list MissingImport.read) []
    <*> defaulted o Names.autoFetched (list ResolvedImport.read) []

/-- What became of imports as a value. -/
def Resolution.toJson (naming : Naming) (r : Resolution) : Json := .object [
  (naming.of Names.resolved, .list (r.resolved.map (ResolvedImport.toJson naming))),
  (naming.of Names.missing, .list (r.missing.map (MissingImport.toJson naming))),
  (naming.of Names.autoFetched, .list (r.autoFetched.map (ResolvedImport.toJson naming)))]

end ContractLens
