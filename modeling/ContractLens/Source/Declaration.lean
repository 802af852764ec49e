import ContractLens.Text.Scan
/-!
# Declarations

The forms by which a contract, its members and the contracts it creates are recognised in a text.
They ask only for keywords, blanks and names, and know neither comments nor strings.
-/

namespace ContractLens.Declaration

open Text

/-- A declaration: the name and the text that lists the bases, if there is one. -/
structure Head where
  /-- The declared name. -/
  name : List Char
  /-- The text between `is` and the brace. -/
  bases : Option (List Char)

/-- Reads blanks, `is`, blanks and a list of bases up to the opening brace. A list made of blanks
alone is the last of them, and there have to be two. -/
def readBases? (cs : List Char) : Option (List Char × List Char) := do
  let rest ← dropBlanks? cs
  let rest ← dropStart? ['i', 's'] rest
  let blanks := rest.takeWhile isBlank
  let body := rest.dropWhile isBlank
  let bases := body.takeWhile (· != '\x7b')
  let after := body.dropWhile (· != '\x7b')
  if blanks.isEmpty || after.isEmpty then none
  else if !bases.isEmpty then some (bases, after)
  else if 2 ≤ blanks.length then (blanks.getLast?).map fun last => ([last], after)
  else none

/-- Reads the head of a contract up to its opening brace, which is left. -/
def head : Recogniser Head := fun afterWord cs => do
  let (_, rest) ← keyword "contract" afterWord cs
  let rest ← dropBlanks? rest
  let (name, rest) ← takeWord? rest
  match readBases? rest with
  | some (bases, after) => some (⟨name, some bases⟩, after)
  | none =>
    match rest.dropWhile isBlank with
    | '\x7b' :: after => some (⟨name, none⟩, '\x7b' :: after)
    | _ => none

/-- The names in a list of bases: the parts between commas that are not blank. -/
def baseNames (bases : List Char) : List String :=
  ((splitAt ',' bases).map trim).filterMap fun base =>
    if base.isEmpty then none else some (String.ofList base)

/-- Reads `function` and a name. -/
def functionName : Recogniser String := keywordThenName "function"

/-- Reads `event` and a name. -/
def eventName : Recogniser String := keywordThenName "event"

/-- Reads `modifier` and a name. -/
def modifierName : Recogniser String := keywordThenName "modifier"

/-- Reads `new` and the name of a contract that is created. -/
def createdName : Recogniser String := keywordThenName "new"

/-- Reads the word `abstract`. -/
def abstractMark : Recogniser Unit := wholeWord "abstract"

end ContractLens.Declaration
