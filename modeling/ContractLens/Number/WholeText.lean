import ContractLens.Schema.NumberText
import ContractLens.Text.Blank
import ContractLens.Text.Digit
import ContractLens.Text.Quoted
/-!
# Whole numbers in free text

A whole number typed by a person, or kept as a counter: blanks around it, a sign, digits of any
script, and single underscores between digits.
-/

namespace ContractLens

/-- The number written by digits of any script. -/
def digitsValue? (cs : List Char) : Option Nat :=
  if cs.isEmpty then none
  else (cs.mapM Text.digitValue?).map fun values => values.foldl (fun n d => n * 10 + d) 0

/-- The whole number written by a text. -/
def wholeNumber? (s : String) : Option Int := do
  let (negative, body) := Schema.splitSign (Text.trim s.toList)
  let digits ← Schema.dropUnderscores? body
  if Json.maxIntegerDigits < digits.length then none
  else (digitsValue? digits).map fun n => if negative then -(n : Int) else n

/-- What is said about a text that is no whole number. -/
def notWholeText (s : String) : String :=
  s!"invalid literal for int() with base 10: {Text.quotedString s}"

end ContractLens
