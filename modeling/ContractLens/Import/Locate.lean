import ContractLens.Source.File
/-!
# Relative imports

A relative import is looked for first where the importing files' directories put it, then under its
own path, then as the end of some file's path at a slash.
-/

namespace ContractLens.Import

open Text

/-- The directory of a path: what stands before the last slash, without slashes at its end unless it
is made of nothing else. -/
def directory (path : List Char) : List Char :=
  let head := (path.reverse.dropWhile (· != '/')).reverse
  if head.all (· == '/') then head else (head.reverse.dropWhile (· == '/')).reverse

/-- A path put behind a directory. -/
def join (dir path : List Char) : List Char :=
  if path.head? == some '/' || dir.isEmpty then path
  else if dir.getLast? == some '/' then dir ++ path
  else dir ++ '/' :: path

/-- The components of a path with single dots and empty ones left out and double dots taken back
where there is something to take back; from the root nothing is above. -/
def reduce (rooted : Bool) (done : List (List Char)) : List (List Char) → List (List Char)
  | [] => done
  | part :: rest =>
    if part.isEmpty || part == ['.'] then reduce rooted done rest
    else if part != ['.', '.'] then reduce rooted (done ++ [part]) rest
    else match done.getLast? with
      | none => reduce rooted (if rooted then done else done ++ [part]) rest
      | some last =>
        reduce rooted (if last == ['.', '.'] then done ++ [part] else done.dropLast) rest

/-- The slashes a path starts with: exactly two stay two, more are one. -/
def rootOf (path : List Char) : List Char :=
  match (path.takeWhile (· == '/')).length with
  | 0 => []
  | 2 => ['/', '/']
  | _ => ['/']

/-- A path in normal form; the empty one is a dot. -/
def normalize (path : List Char) : List Char :=
  let root := rootOf path
  match root ++ List.intercalate ['/'] (reduce (!root.isEmpty) [] (splitAt '/' path)) with
  | [] => ['.']
  | normal => normal

/-- The path that an import names when it stands in the given file. -/
def target (importer path : String) : String :=
  String.ofList (normalize (join (directory importer.toList) path.toList))

/-- The last file with a path. -/
def lastAt? (files : List SourceFile) (path : String) : Option SourceFile :=
  files.reverse.find? (·.path == path)

/-- A path without the dot components it starts with. -/
def dropDots (fuel : Nat) (cs : List Char) : List Char :=
  match fuel, cs with
  | fuel + 1, '.' :: '/' :: rest => dropDots fuel rest
  | fuel + 1, '.' :: '.' :: '/' :: rest => dropDots fuel rest
  | _, cs => cs

/-- Whether a path is a tail, or ends with a slash and the tail. -/
def endsAt (tail path : List Char) : Bool :=
  path == tail || ('/' :: tail).isSuffixOf path

/-- The file that a relative import means. -/
def locate? (path : String) (importers : List String) (files : List SourceFile) :
    Option SourceFile :=
  match importers.findSome? fun importer => lastAt? files (target importer path) with
  | some file => some file
  | none =>
    match lastAt? files path with
    | some file => some file
    | none =>
      let tail := dropDots path.length path.toList
      if tail.isEmpty then none else files.find? fun file => endsAt tail file.path.toList

end ContractLens.Import
