import ContractLens.Text.Scan
/-!
# Import statements

A file imports another by its path in quotes, alone or with an alias, under a name for all of it, or
with a list of names in braces.
-/

namespace ContractLens.Import

open Text

/-- Blanks, `as`, blanks and a name. -/
def dropAlias? (cs : List Char) : Option (List Char) := do
  let rest ← dropBlanks? cs
  let rest ← dropStart? ['a', 's'] rest
  let rest ← dropBlanks? rest
  let (_, rest) ← takeWord? rest
  return rest

/-- Blanks, `from`, blanks and a path in quotes. -/
def readFrom? (cs : List Char) : Option (List Char × List Char) := do
  let rest ← dropBlanks? cs
  let rest ← dropStart? ['f', 'r', 'o', 'm'] rest
  let rest ← dropBlanks? rest
  readQuoted? rest

/-- A path in quotes, with an alias or without. -/
def readPlain? (cs : List Char) : Option (List Char × List Char) := do
  let (path, rest) ← readQuoted? cs
  return (path, (dropAlias? rest).getD rest)

/-- A star with a name for all of a file, and its path. -/
def readStar? : List Char → Option (List Char × List Char)
  | '*' :: rest => do
    let rest ← dropAlias? rest
    readFrom? rest
  | _ => none

/-- A list of names in braces, and the path they come from. -/
def readNames? : List Char → Option (List Char × List Char)
  | '\x7b' :: rest =>
    match rest.dropWhile (· != '\x7d') with
    | _ :: after => readFrom? after
    | [] => none
  | _ => none

/-- Reads an import statement: the path is the value. -/
def statement : Recogniser String := fun afterWord cs => do
  let (_, rest) ← keyword "import" afterWord cs
  let rest ← dropBlanks? rest
  let (path, rest) ← match readPlain? rest with
    | some found => some found
    | none => match readStar? rest with
      | some found => some found
      | none => readNames? rest
  return (String.ofList path, rest)

/-- The members of a list once each, in the order of their first appearance. -/
def distinct (items : List String) : List String :=
  items.foldl (fun all item => if all.contains item then all else all ++ [item]) []

/-- The paths that a text imports, each once, in the order of first appearance. -/
def extract (content : String) : List String := distinct (findAll statement content.toList)

end ContractLens.Import
