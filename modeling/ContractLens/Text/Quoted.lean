import ContractLens.Number.Decimal
import ContractLens.Text.Printable
/-!
# Quoted text

A text is quoted for a message between apostrophes, or between quotation marks when it holds an
apostrophe and no quotation mark. The closing mark and the backslash are escaped, and a character
that is not printable is shown by its code, in the narrowest of three widths.
-/

namespace ContractLens.Text

/-- The apostrophe. -/
def apostrophe : Char := '\x27'

/-- The quotation mark. -/
def quotationMark : Char := '\x22'

/-- The mark that a text is quoted with. -/
def quoteFor (cs : List Char) : Char :=
  if cs.contains apostrophe && !cs.contains quotationMark then quotationMark else apostrophe

/-- One character inside quoted text. -/
def quoteChar (mark c : Char) : List Char :=
  if c == mark || c == '\\' then ['\\', c]
  else if c == '\n' then ['\\', 'n']
  else if c == '\r' then ['\\', 'r']
  else if c == '\t' then ['\\', 't']
  else if isPrintable c then [c]
  else if c.toNat < 0x100 then '\\' :: 'x' :: hexDigits 2 c.toNat
  else if c.toNat < 0x10000 then '\\' :: 'u' :: hexDigits 4 c.toNat
  else '\\' :: 'U' :: hexDigits 8 c.toNat

/-- A text in quotes. -/
def quoted (cs : List Char) : List Char :=
  let mark := quoteFor cs
  mark :: (cs.flatMap (quoteChar mark) ++ [mark])

/-- A string in quotes. -/
def quotedString (s : String) : String := String.ofList (quoted s.toList)

end ContractLens.Text
