import ContractLens.Schema.Names
import ContractLens.NameSet
/-!
# Contracts and their calls

What is known of a contract from its declaration and body, and which contracts create which others.
-/

namespace ContractLens

open Schema

/-- A contract found in a file. -/
structure Contract where
  /-- The declared name. -/
  name : String
  /-- The path of the file. -/
  path : String
  /-- The names of its functions in order. -/
  functions : List String
  /-- The names of its events in order. -/
  events : List String
  /-- The names of its modifiers in order. -/
  modifiers : List String
  /-- Whether it is marked abstract. -/
  isAbstract : Bool
  /-- The bases it names in order. -/
  inherits : List String
  /-- The count of its lines. -/
  lineCount : Int
  deriving DecidableEq, Inhabited

/-- Reads a contract. -/
def Contract.read : Reader Contract := record "ContractInfo" fun o =>
  Contract.mk <$> required o Names.name text <*> required o Names.path text
    <*> defaulted o Names.functions (list text) [] <*> defaulted o Names.events (list text) []
    <*> defaulted o Names.modifiers (list text) [] <*> defaulted o Names.isAbstract bool false
    <*> defaulted o Names.inherits (list text) [] <*> defaulted o Names.lineCount integer 0

/-- A contract as a value. -/
def Contract.toJson (naming : Naming) (contract : Contract) : Json := .object [
  (naming.of Names.name, .text contract.name),
  (naming.of Names.path, .text contract.path),
  (naming.of Names.functions, .texts contract.functions),
  (naming.of Names.events, .texts contract.events),
  (naming.of Names.modifiers, .texts contract.modifiers),
  (naming.of Names.isAbstract, .bool contract.isAbstract),
  (naming.of Names.inherits, .texts contract.inherits),
  (naming.of Names.lineCount, .int contract.lineCount)]

/-- The contracts that a contract creates, and those that create it. -/
structure CallNode where
  /-- The contracts it creates. -/
  calls : NameSet
  /-- The contracts that create it. -/
  calledBy : NameSet
  deriving DecidableEq, Inhabited

/-- A contract that creates none and is created by none. -/
def CallNode.isolated : CallNode := ⟨∅, ∅⟩

/-- Reads the calls of a contract. -/
def CallNode.read : Reader CallNode := record "CallGraphNode" fun o =>
  CallNode.mk <$> defaulted o Names.calls nameSet ∅ <*> defaulted o Names.calledBy nameSet ∅

/-- The calls of a contract as a value. -/
def CallNode.toJson (naming : Naming) (node : CallNode) : Json := .object [
  (naming.of Names.calls, .texts node.calls.names),
  (naming.of Names.calledBy, .texts node.calledBy.names)]

/-- The calls of every contract by name. -/
abbrev CallGraph := Table CallNode

/-- Reads a call graph. -/
def CallGraph.read : Reader CallGraph := map CallNode.read

/-- A call graph as a value. -/
def CallGraph.toJson (naming : Naming) (graph : CallGraph) : Json :=
  .object (graph.map fun (name, node) => (name, node.toJson naming))

end ContractLens
