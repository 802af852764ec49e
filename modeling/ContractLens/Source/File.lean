import ContractLens.Json.Shown
import ContractLens.Schema.Names
import ContractLens.Text.Scan
/-!
# Source files

A file of a source set has a path and a content. Sets arrive in loose shapes: entries may be
objects, pairs, or anything else, and what cannot be taken for a file is dropped.
-/

namespace ContractLens

open Schema

/-- One file of a source set. -/
structure SourceFile where
  /-- The path by which imports name the file. -/
  path : String
  /-- The text of the file. -/
  content : String
  deriving DecidableEq, Inhabited

namespace SourceFile

/-- Reads a file. -/
def read : Reader SourceFile := record "SourceFile" fun o =>
  SourceFile.mk <$> required o Names.path text <*> defaulted o Names.content text ""

/-- A file as a value. -/
def toJson (naming : Naming) (file : SourceFile) : Json :=
  .object [(naming.of Names.path, .text file.path), (naming.of Names.content, .text file.content)]

/-- The lines of a file. -/
def lines (file : SourceFile) : List (List Char) := Text.splitLines file.content.toList

/-- A value taken for a text, one that counts as nothing being the empty text. -/
def looseText (value : Option Json) : String :=
  match value.bind Json.filled? with
  | some value => value.display
  | none => ""

/-- An entry taken for a file: an object with a path and a content, or a pair of them. -/
def ofEntry? : Json → Option SourceFile
  | .object members =>
    some ⟨looseText (Table.get? members "path"), looseText (Table.get? members "content")⟩
  | .list [path, content] => some ⟨path.display, looseText (some content)⟩
  | _ => none

/-- The files of a loose set; `none` if the value has no entries to go through. A text and an object
have entries, but none is a file. -/
def ofLoose? : Json → Option (List SourceFile)
  | .list items => some (items.filterMap ofEntry?)
  | .object _ | .text _ => some []
  | value => if value.isVoid then some [] else none

/-- A file after a line that announces it. -/
def announced (file : SourceFile) : List Char :=
  "\n// ===== FILE: ".toList ++ (file.path.toList ++ (" =====\n".toList ++
    (file.content.toList ++ ['\n', '\n'])))

/-- The files of a set as one text. -/
def combine (files : List SourceFile) : List Char := files.flatMap announced

end SourceFile

end ContractLens
