import ContractLens.Failure
import ContractLens.Source.File
/-!
# Sources in one JSON text

An explorer gives the files of a contract as one JSON object with a member `sources`, sometimes with
a second pair of braces around it. A text that holds no such object holds no files.
-/

namespace ContractLens.StandardJson

open Text

/-- A text without the outer of two pairs of braces. -/
def unwrap (cs : List Char) : List Char :=
  if (dropStart? ['\x7b', '\x7b'] cs).isSome && ['\x7d', '\x7d'].isSuffixOf cs then
    (cs.drop 1).dropLast
  else cs

/-- The content of a source entry: its member, an empty text without one. -/
def contentOf : Json → Except Failure Json
  | .object members => .ok ((Table.get? members "content").getD (.text ""))
  | value => if value.isVoid then .ok (.text "") else .error .noMembers

/-- A file with a content that has to be a text. -/
def fileOf (path : String) : Json → Except Failure SourceFile
  | .text content => .ok ⟨path, content⟩
  | content => .error (.refused "SourceFile" [⟨.notText, [.name "content"], content⟩])

/-- The files of an object of sources. -/
def filesOf (sources : List (String × Json)) : Except Failure (List SourceFile) :=
  sources.mapM fun (path, source) => do fileOf path (← contentOf source)

variable [Platform]

/-- The files in a text; a text that is no JSON, or has no sources, holds none. -/
def parse? (source : String) : Except Failure (Option (List SourceFile)) :=
  match Json.read (String.ofList (unwrap (trim source.toList))) with
  | .error (.malformed ..) => .ok none
  | .error reason => .error (.unreadable reason)
  | .ok value =>
    match value.member? "sources" with
    | some (.object sources) => (filesOf sources).map some
    | _ => .ok none

end ContractLens.StandardJson
