import ContractLens.Files.Tree
import ContractLens.Source.File
/-!
# Collecting source files

A path that is to be analysed is a file, which is taken whatever its name, or a directory, which is
searched at every depth for names that end as source files do. A file is known by its name alone, a
found one by the names that lead to it from the directory.
-/

namespace ContractLens.Source

/-- The ending of a source file's name. -/
def extension : String := ".sol"

/-- Whether a name is that of a source file. -/
def isSourceName (name : String) : Bool := extension.toList.isSuffixOf name.toList

/-- The source files that a directory holds at any depth. -/
def collectBelow (tree : Tree) (path place : Path) : Except FileFault (List SourceFile) :=
  let found := (tree.descendants place).filter fun parts => parts.getLast?.any isSourceName
  found.mapM fun parts => do
    return ⟨"/".intercalate parts, ← tree.looseText? (path.join parts)⟩

/-- The source files at a path. -/
def collectAt (tree : Tree) (path : Path) : Except FileFault (List SourceFile) :=
  if Tree.hasNull path then .error (.absent path)
  else match tree.place? path with
    | .error .tooLong => .error (.tooLong path)
    | .error _ => .error (.absent path)
    | .ok place =>
      if (tree.bytes? place).isSome then do return [⟨path.name, ← tree.looseText? path⟩]
      else if tree.isDirectory place then collectBelow tree path place
      else .error (.absent path)

/-- The source files at paths, in order. -/
def collect (tree : Tree) (paths : List String) : Except FileFault (List SourceFile) := do
  return (← paths.mapM fun s => collectAt tree (.ofText s)).flatten

end ContractLens.Source
