import ContractLens.Source.Contract
import ContractLens.Text.Case
import ContractLens.Text.Scan
/-!
# The main contract

The contract that a set is most likely about: a single one is it; else the first with a telling
name; else the one created by most others; else the one with most functions. Among equals the
earliest is taken.
-/

namespace ContractLens

/-- The words that mark a main contract's name. -/
def mainKeywords : List String := ["main", "primary", "core", "master", "factory"]

/-- Whether a name holds one of the telling words, in any case. -/
def hasMainKeyword (name : String) : Bool :=
  let small := Text.lower name.toList
  mainKeywords.any fun word => Text.contains word.toList small

/-- The first item with the greatest weight. -/
def firstGreatest {α : Type} (weight : α → Nat) : α → List α → α
  | best, [] => best
  | best, item :: rest =>
    firstGreatest weight (if weight best < weight item then item else best) rest

/-- How many contracts create a contract. -/
def references (graph : CallGraph) (contract : Contract) : Nat :=
  ((Table.get? graph contract.name).getD .isolated).calledBy.size

/-- The name of the main contract of a set. -/
def mainContract? (contracts : List Contract) (graph : CallGraph) : Option String :=
  match contracts with
  | [] => none
  | [only] => some only.name
  | first :: rest =>
    match contracts.find? fun contract => hasMainKeyword contract.name with
    | some contract => some contract.name
    | none =>
      let referenced := firstGreatest (references graph) first rest
      if 0 < references graph referenced then some referenced.name
      else some (firstGreatest (·.functions.length) first rest).name

end ContractLens
