import ContractLens.Text.Blank
import ContractLens.Text.Word
/-!
# Scanning text

A recogniser is given what stands before the current place (whether it is a word character) and the
rest of the text; it answers with what it read and what is left, or refuses. `findAll` collects the
readings of a text from left to right, each search going on where the last reading ended;
`findFirst?` stops at the first one and also says what stood before it.
-/

namespace ContractLens.Text

/-- Reads a value at the start of a text. The flag says whether a word character stands before it.
-/
abbrev Recogniser (α : Type) := Bool → List Char → Option (α × List Char)

/-- Looks for readings in turn, the next `skip` characters being part of the last one. -/
def findAllFrom {α : Type} (read : Recogniser α) (afterWord : Bool) (skip : Nat) :
    List Char → List α
  | [] => []
  | c :: rest =>
    match skip with
    | skip + 1 => findAllFrom read (isWordChar c) skip rest
    | 0 =>
      match read afterWord (c :: rest) with
      | some (a, left) => a :: findAllFrom read (isWordChar c) (rest.length - left.length) rest
      | none => findAllFrom read (isWordChar c) 0 rest

/-- The readings of a text from left to right, none overlapping another. -/
def findAll {α : Type} (read : Recogniser α) (cs : List Char) : List α :=
  findAllFrom read false 0 cs

/-- A reading inside a text: what stands before it, its value, and what follows it. -/
structure Found (α : Type) where
  /-- The text before the reading. -/
  before : List Char
  /-- What was read. -/
  value : α
  /-- The text after the reading. -/
  after : List Char

/-- The first reading of a text that follows a word character or not. -/
def findFirstFrom? {α : Type} (read : Recogniser α) (afterWord : Bool) :
    List Char → Option (Found α)
  | [] => none
  | c :: rest =>
    match read afterWord (c :: rest) with
    | some (a, left) => some ⟨[], a, left⟩
    | none => (findFirstFrom? read (isWordChar c) rest).map fun found =>
        { found with before := c :: found.before }

/-- The first reading of a text. -/
def findFirst? {α : Type} (read : Recogniser α) (cs : List Char) : Option (Found α) :=
  findFirstFrom? read false cs

/-- Whether a text has a reading. -/
def occurs {α : Type} (read : Recogniser α) (cs : List Char) : Bool :=
  (findFirst? read cs).isSome

/-- What is left of a text after the given beginning. -/
def dropStart? : List Char → List Char → Option (List Char)
  | [], cs => some cs
  | _ :: _, [] => none
  | p :: ps, c :: cs => if p == c then dropStart? ps cs else none

/-- Whether `part` stands somewhere in the text. -/
def contains (part cs : List Char) : Bool :=
  (dropStart? part cs).isSome ||
    match cs with
    | [] => false
    | _ :: rest => contains part rest

/-- Reads a keyword that starts a word: no word character stands before it. -/
def keyword (word : String) : Recogniser Unit := fun afterWord cs =>
  if afterWord then none else (dropStart? word.toList cs).map fun rest => ((), rest)

/-- The longest non-empty run of word characters at the start of a text, and the rest. -/
def takeWord? (cs : List Char) : Option (List Char × List Char) :=
  match cs.takeWhile isWordChar with
  | [] => none
  | word => some (word, cs.dropWhile isWordChar)

/-- The text after its leading blanks, of which there is at least one. -/
def dropBlanks? : List Char → Option (List Char)
  | [] => none
  | c :: rest => if isBlank c then some (rest.dropWhile isBlank) else none

/-- Reads a keyword that starts a word, blanks, and a name: the name is the value. -/
def keywordThenName (word : String) : Recogniser String := fun afterWord cs => do
  let (_, rest) ← keyword word afterWord cs
  let rest ← dropBlanks? rest
  let (name, rest) ← takeWord? rest
  return (String.ofList name, rest)

/-- Reads a keyword that stands as a whole word. -/
def wholeWord (word : String) : Recogniser Unit := fun afterWord cs =>
  match keyword word afterWord cs with
  | some ((), rest) => if rest.head?.any isWordChar then none else some ((), rest)
  | none => none

/-- A quotation mark of either kind. -/
def isQuote (c : Char) : Bool := c == '\x22' || c == '\x27'

/-- A non-empty text between quotation marks, and what follows it. -/
def readQuoted? : List Char → Option (List Char × List Char)
  | [] => none
  | c :: rest =>
    if isQuote c then
      match rest.span fun d => !isQuote d with
      | (path, _ :: after) => if path.isEmpty then none else some (path, after)
      | (_, []) => none
    else none

/-- The parts of a text between the characters equal to `mark`; one more than there are marks. -/
def splitAt (mark : Char) : List Char → List (List Char)
  | [] => [[]]
  | c :: rest =>
    if c == mark then [] :: splitAt mark rest
    else match splitAt mark rest with
      | [] => [[c]]
      | part :: parts => (c :: part) :: parts

/-- The lines of a text. -/
def splitLines (cs : List Char) : List (List Char) := splitAt '\n' cs

end ContractLens.Text
