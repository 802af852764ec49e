import ContractLens.Text.Scan
/-!
# Paths

A path is a list of names from a root or from the working directory. Empty names and those of the
directory itself say nothing and are left out; a name of the directory above stays, because what it
means depends on what is there.
-/

namespace ContractLens

/-- A path. -/
structure Path where
  /-- The slashes of the root it starts from; none for the working directory. -/
  root : String
  /-- The names, none of them empty or a single dot. -/
  parts : List String
  deriving DecidableEq

namespace Path

/-- The path of the working directory. -/
def here : Path := ⟨"", []⟩

/-- The name of the directory above. -/
def above : String := ".."

/-- The root that a text starts from: two slashes are a root of their own, more are the same as
one. -/
def rootOf (cs : List Char) : String :=
  match (cs.takeWhile (· == '/')).length with
  | 0 => ""
  | 2 => "//"
  | _ => "/"

/-- The path written by a text. -/
def ofText (s : String) : Path where
  root := rootOf s.toList
  parts := ((Text.splitAt '/' s.toList).map String.ofList).filter fun part =>
    !part.isEmpty && part != "."

/-- A path as text; the working directory is a dot. -/
def toText (path : Path) : String :=
  if path.root.isEmpty && path.parts.isEmpty then "."
  else path.root ++ "/".intercalate path.parts

/-- The last name of a path. -/
def name (path : Path) : String := path.parts.getLast?.getD ""

/-- The path followed by further names. -/
def join (path : Path) (parts : List String) : Path := { path with parts := path.parts ++ parts }

end Path

end ContractLens
