import ContractLens.Import.Record
import ContractLens.Import.Statement
import ContractLens.Source.File
/-!
# Dependency graphs

Which paths each file imports: all of them, or those that were resolved. Of files that share a path
the last one counts.
-/

namespace ContractLens.Import

/-- The imports of each file by its path. -/
abbrev DependencyGraph := Table (List String)

/-- The imports of each file, resolved or not. -/
def declaredGraph (files : List SourceFile) : DependencyGraph :=
  Table.ofEntries (files.map fun file => (file.path, extract file.content))

/-- The imports of each file that were resolved. -/
def resolvedGraph (files : List SourceFile) (resolution : Resolution) : DependencyGraph :=
  let known := resolution.resolved.map (·.path)
  Table.ofEntries (files.map fun file =>
    (file.path, (extract file.content).filter known.contains))

/-- Reads a dependency graph. -/
def DependencyGraph.read : Schema.Reader DependencyGraph := Schema.map (Schema.list Schema.text)

/-- A dependency graph as a value. -/
def DependencyGraph.toJson (graph : DependencyGraph) : Json :=
  .object (graph.map fun (path, imports) => (path, .texts imports))

end ContractLens.Import
