import ContractLens.Files.Path
import ContractLens.Text.Quoted
import ContractLens.Text.Utf8
/-!
# The files of a run

The files that a run can see, by the places they stand at. A place is a path without names of the
directory above, as far as those can be followed; it holds a file, or it is a directory because it
is said to be one or because something stands below it. A path leads to a place name by name, and
every name but the last has to be that of a directory.
-/

namespace ContractLens

/-- Why a file cannot be used. -/
inductive FileFault where
  /-- There is nothing at a path that was to be analysed. -/
  | absent (path : Path)
  /-- There is no file at a path. -/
  | missing (path : Path)
  /-- There is a directory at a path. -/
  | directory (path : Path)
  /-- A path leads through a file. -/
  | throughFile (path : Path)
  /-- A path, or a name in it, is too long. -/
  | tooLong (path : Path)
  /-- A path has a character that none can have. -/
  | nullCharacter
  /-- A file is no text. -/
  | undecodable (fault : Utf8.Fault)
  deriving DecidableEq

namespace FileFault

/-- What the system says about a path. -/
def system (code : Nat) (words : String) (path : Path) : String :=
  "[Errno " ++ natText code ++ "] " ++ words ++ ": " ++ Text.quotedString path.toText

/-- What is said about a fault. -/
def message : FileFault → String
  | absent path => s!"path '{path.toText}' does not exist"
  | missing path => system 2 "No such file or directory" path
  | directory path => system 21 "Is a directory" path
  | throughFile path => system 20 "Not a directory" path
  | tooLong path => system 36 "File name too long" path
  | nullCharacter => "embedded null byte"
  | undecodable fault => fault.message

end FileFault

/-- The files that a run can see. -/
structure Tree where
  /-- The files by their places. -/
  files : List (Path × List UInt8) := []
  /-- The places that are directories whatever stands below them. -/
  directories : List Path := []

namespace Tree

/-- The bytes at a place. -/
def bytes? (tree : Tree) (place : Path) : Option (List UInt8) :=
  (tree.files.find? (·.1 == place)).map (·.2)

/-- The names that lead from a place to another one at or below it. -/
def below? (place other : Path) : Option (List String) :=
  if place.root == other.root && place.parts.isPrefixOf other.parts then
    some (other.parts.drop place.parts.length)
  else none

/-- Whether a place is a directory. A root is one, and so are the working directory and those above
it. -/
def isDirectory (tree : Tree) (place : Path) : Bool :=
  place.parts.all (· == Path.above) ||
    tree.directories.any (fun other => (below? place other).isSome) ||
    tree.files.any fun (other, _) => (below? place other).any (!·.isEmpty)

/-- The place that a name leads to from a directory. Nothing lies above a root; above the working
directory the names of the directories above add up. -/
def step (place : Path) (part : String) : Path :=
  if part != Path.above then place.join [part]
  else if !place.root.isEmpty || place.parts.getLast?.any (· != Path.above) then
    { place with parts := place.parts.dropLast }
  else place.join [part]

/-- The most bytes of a name. -/
def maxName : Nat := 255

/-- The most bytes of a path. -/
def maxPath : Nat := 4095

/-- Why a path leads nowhere. -/
inductive Lost where
  /-- Nothing has the name. -/
  | missing
  /-- The path leads through a file. -/
  | throughFile
  /-- A name is too long. -/
  | tooLong
  deriving DecidableEq

/-- The place that names lead to from a place; the last one need not have anything at it. -/
def follow (tree : Tree) (place : Path) : List String → Except Lost Path
  | [] => .ok place
  | part :: rest =>
    if (tree.bytes? place).isSome then .error .throughFile
    else if !tree.isDirectory place then .error .missing
    else if maxName < part.utf8ByteSize then .error .tooLong
    else follow tree (step place part) rest

/-- The place that a path leads to. -/
def place? (tree : Tree) (path : Path) : Except Lost Path :=
  if maxPath < path.toText.utf8ByteSize then .error .tooLong
  else follow tree ⟨path.root, []⟩ path.parts

/-- Whether a path has a character that none can have. -/
def hasNull (path : Path) : Bool := path.parts.any fun part => part.toList.contains '\x00'

/-- A path that leads nowhere, as a fault. -/
def Lost.fault (path : Path) : Lost → FileFault
  | missing => .missing path
  | throughFile => .throughFile path
  | tooLong => .tooLong path

/-- The bytes of the file at a path. -/
def open? (tree : Tree) (path : Path) : Except FileFault (List UInt8) :=
  if hasNull path then .error .nullCharacter
  else match tree.place? path with
    | .error lost => .error (lost.fault path)
    | .ok place =>
      match tree.bytes? place with
      | some bytes => .ok bytes
      | none => .error (if tree.isDirectory place then .directory path else .missing path)

/-- The text of the file at a path. -/
def text? (tree : Tree) (path : Path) : Except FileFault String := do
  match Utf8.decode (← tree.open? path) with
  | .ok cs => return String.ofList (Utf8.unifyLines cs)
  | .error fault => throw (.undecodable fault)

/-- The text of the file at a path, with replacements for what is no text. -/
def looseText? (tree : Tree) (path : Path) : Except FileFault String := do
  return String.ofList (Utf8.unifyLines (Utf8.decodeReplacing (← tree.open? path)))

/-- The tree with a file at a path. -/
def write (tree : Tree) (path : Path) (bytes : List UInt8) : Except FileFault Tree :=
  if hasNull path then .error .nullCharacter
  else match tree.place? path with
    | .error lost => .error (lost.fault path)
    | .ok place =>
      if tree.isDirectory place then .error (.directory path)
      else .ok { tree with files := tree.files.filter (·.1 != place) ++ [(place, bytes)] }

/-! ## Searching directories -/

/-- The places that names lead through, themselves included. -/
def prefixes (parts : List String) : List (List String) :=
  (List.range parts.length).map fun k => parts.take (k + 1)

/-- The names that lead from a directory to all that stands below it, in the order of the names,
each once. -/
def descendants (tree : Tree) (place : Path) : List (List String) :=
  let leaves := tree.files.map (·.1) ++ tree.directories
  let found := (leaves.filterMap (below? place)).flatMap prefixes
  (found.mergeSort fun x y => !decide (y < x)).eraseReps

end Tree

end ContractLens
