import ContractLens.Source.Contract
import ContractLens.Source.Declaration
/-!
# Contracts of a file

A file is read line by line, each line trimmed. A line with a declaration starts a contract; the
contract goes on until as many braces are closed as were opened, or until the next declaration, or
to the end of the file. What a contract holds is collected from its lines one by one, the first of
them taken after its opening brace.

`scanLines` looks for declarations on every line; `extent` says which of the following lines belong
to one. A contract is counted from the line of its declaration to its last line (`lastLine`), which
are the lines of its body (`lineCount_contractOf`).
-/

namespace ContractLens

open Text

/-- A contract with the lines of its body. -/
structure ScannedContract where
  /-- What was found. -/
  contract : Contract
  /-- The lines of the body, the first one after the opening brace. -/
  body : List (List Char)

/-- The text of a body. -/
def ScannedContract.bodyText (scanned : ScannedContract) : List Char :=
  List.intercalate ['\n'] scanned.body

namespace Source

/-- The opening braces of a line less its closing ones. -/
def braceBalance (line : List Char) : Int :=
  (line.count '\x7b' : Int) - line.count '\x7d'

/-- The first declaration of a line. -/
def headOf? (line : List Char) : Option (Found Declaration.Head) :=
  findFirst? Declaration.head line

/-- The lines that belong to a contract with so many open braces before them. -/
def extent (depth : Int) : List (List Char) → List (List Char)
  | [] => []
  | line :: rest =>
    if depth ≤ 0 then []
    else if (headOf? line).isSome then []
    else line :: extent (depth + braceBalance line) rest

/-- The number of the last line of a contract with so many open braces after line `last`. -/
def lastLine (depth : Int) (last : Nat) : List (List Char) → Nat
  | [] => last
  | line :: rest =>
    if depth ≤ 0 then last
    else if (headOf? line).isSome then last
    else lastLine (depth + braceBalance line) (last + 1) rest

/-- The contract that a declaration on line `start` starts, given the lines after it. -/
def contractOf (path : String) (start : Nat) (found : Found Declaration.Head)
    (following : List (List Char)) : ScannedContract :=
  let balance := braceBalance found.after
  let body := found.after.drop 1 :: extent balance following
  let collect (read : Recogniser String) : List String := body.flatMap (findAll read)
  { contract := {
      name := String.ofList found.value.name
      path := path
      functions := collect Declaration.functionName
      events := collect Declaration.eventName
      modifiers := collect Declaration.modifierName
      isAbstract := occurs Declaration.abstractMark found.before ||
        body.any (occurs Declaration.abstractMark)
      inherits := (found.value.bases.map Declaration.baseNames).getD []
      lineCount := max ((lastLine balance start following : Int) - start + 1) 1 }
    body := body }

/-- The contracts declared on trimmed lines, of which the first has the number `start`, in order. -/
def scanLines (path : String) (start : Nat) : List (List Char) → List ScannedContract
  | [] => []
  | line :: rest =>
    match headOf? line with
    | some found => contractOf path start found rest :: scanLines path (start + 1) rest
    | none => scanLines path (start + 1) rest

/-- The contracts of a file, in order. -/
def scanFile (path : String) (content : String) : List ScannedContract :=
  scanLines path 0 ((splitLines content.toList).map trim)

theorem lastLine_eq (depth : Int) (last : Nat) (lines : List (List Char)) :
    lastLine depth last lines = last + (extent depth lines).length := by
  induction lines generalizing depth last with
  | nil => rfl
  | cons line rest ih =>
    rw [lastLine, extent]
    split
    · rfl
    · split
      · rfl
      · rw [ih, List.length_cons, Nat.add_right_comm, Nat.add_assoc]

/-- A contract has as many lines as its body. -/
theorem lineCount_contractOf (path : String) (start : Nat) (found : Found Declaration.Head)
    (following : List (List Char)) :
    (contractOf path start found following).contract.lineCount =
      (contractOf path start found following).body.length := by
  simp only [contractOf, lastLine_eq, List.length_cons]
  omega

/-- An extent is a beginning of the lines it is taken from. -/
theorem extent_prefix {depth : Int} {lines : List (List Char)} : extent depth lines <+: lines := by
  induction lines generalizing depth with
  | nil => simp [extent]
  | cons line rest ih =>
    unfold extent
    split
    · simp
    · split
      · simp
      · exact List.cons_prefix_cons.2 ⟨rfl, ih⟩

end Source

end ContractLens
