import ContractLens.Source.Declaration
import ContractLens.Text.Case
/-!
# Signs of upgradeability in source text

A contract whose code can be replaced behind its address must not be remembered. The text is lowered
and searched for five signs: a call in the caller's context, the functions of an upgrade
administrator, an import from an upgradeable library, a base with a telling name, and a contract
named like a proxy.
-/

namespace ContractLens.Upgradeable

open Text

/-- The beginnings of an administrator's functions. -/
def functionMarks : List String := [
  "function upgradeto(", "function upgradetoandcall(", "function changeadmin(",
  "function implementation()"]

/-- The libraries whose import is a sign. -/
def importMarks : List String := [
  "@openzeppelin/contracts-upgradeable/", "@openzeppelin/contracts/proxy/", "hardhat/upgradeable/"]

/-- The words that mark a base. -/
def baseMarks : List String := [
  "upgradeable", "uups", "diamond", "beacon", "proxy", "transparent", "factory"]

/-- The words that mark a contract's name. -/
def nameMarks : List String := ["upgradeable", "proxy"]

/-- Whether a text holds one of some words. -/
def holdsAny (words : List String) (cs : List Char) : Bool :=
  words.any fun word => contains word.toList cs

/-- The first quoted text before the next semicolon. -/
def firstQuoted? : List Char → Option (List Char × List Char)
  | [] => none
  | c :: rest =>
    match readQuoted? (c :: rest) with
    | some found => some found
    | none => if c == ';' then none else firstQuoted? rest

/-- Reads the word `import` and the first quoted text after it that starts before a semicolon. -/
def importedPath : Recogniser (List Char) := fun afterWord cs => do
  let (_, rest) ← wholeWord "import" afterWord cs
  firstQuoted? rest

/-- Reads a contract or interface with its list of bases, which is not empty, and its brace. -/
def inheritance : Recogniser (List Char) := fun afterWord cs => do
  let (_, rest) ← match keyword "contract" afterWord cs with
    | some found => some found
    | none => keyword "interface" afterWord cs
  let rest ← dropBlanks? rest
  let (_, rest) ← takeWord? rest
  let (bases, after) ← Declaration.readBases? rest
  return (bases, after.drop 1)

/-- Whether a lowered text imports from an upgradeable library. -/
def importsMarked (lowered : List Char) : Bool :=
  (findAll importedPath lowered).any fun path =>
    importMarks.any fun mark => mark.toList.isPrefixOf path

/-- Whether a lowered text names a base with a telling name. -/
def inheritsMarked (lowered : List Char) : Bool :=
  (findAll inheritance lowered).any fun bases =>
    (splitAt ',' bases).any (holdsAny baseMarks)

/-- Whether a lowered text declares a contract named like a proxy. -/
def declaresMarked (lowered : List Char) : Bool :=
  (findAll (keywordThenName "contract") lowered).any fun name => holdsAny nameMarks name.toList

/-- Whether a source text shows signs of upgradeability. -/
def inSource (source : List Char) : Bool :=
  if source.all isBlank then false
  else
    let lowered := lower source
    contains "delegatecall".toList lowered || holdsAny functionMarks lowered ||
      importsMarked lowered || inheritsMarked lowered || declaresMarked lowered

end ContractLens.Upgradeable
