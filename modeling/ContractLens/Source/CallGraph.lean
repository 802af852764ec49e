import ContractLens.Source.Scan
/-!
# Which contract creates which

A body that says `new` and the name of another contract of the same set makes an edge between the
two: the creator calls, the created one is called by. Both sides of an edge are set together.
-/

namespace ContractLens

namespace CallGraph

/-- Every name of a list with no calls. -/
def ofNames (names : List String) : CallGraph :=
  names.foldl (fun graph name =>
    if (Table.get? graph name).isSome then graph else graph ++ [(name, .isolated)]) []

/-- Adds an edge; an edge to an unknown contract or to itself is none. -/
def addCall (graph : CallGraph) (caller callee : String) : CallGraph :=
  if callee == caller || (Table.get? graph callee).isNone then graph
  else
    let outgoing := Table.update graph caller fun node =>
      { node with calls := node.calls.insert callee }
    Table.update outgoing callee fun node => { node with calledBy := node.calledBy.insert caller }

/-- The contracts that a body creates, in order. -/
def created (scanned : ScannedContract) : List String :=
  Text.findAll Declaration.createdName scanned.bodyText

/-- The call graph of the contracts of a set. -/
def ofContracts (scanned : List ScannedContract) : CallGraph :=
  scanned.foldl
    (fun graph entry => (created entry).foldl (fun graph callee =>
      addCall graph entry.contract.name callee) graph)
    (ofNames (scanned.map (·.contract.name)))

end CallGraph

end ContractLens
