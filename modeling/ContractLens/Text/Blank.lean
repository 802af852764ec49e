/-!
# Blanks

The blanks are the separators of every script together with the control characters that separate
lines, pages, columns and records. `trim` drops them from both ends. Numbers written as text are
trimmed by the narrower class `isWhiteSpace`, which leaves the record separators 1C to 1F in place.
-/

namespace ContractLens.Text

/-- A blank: a separator of any script, or one of the separating controls. -/
def isBlank (c : Char) : Bool :=
  let code := c.toNat
  code == 32 || (9 ≤ code && code ≤ 13) || (0x1C ≤ code && code ≤ 0x1F) || code == 0x85 ||
    code == 0xA0 || code == 0x1680 || (0x2000 ≤ code && code ≤ 0x200A) || code == 0x2028 ||
    code == 0x2029 || code == 0x202F || code == 0x205F || code == 0x3000

/-- White space: the blanks but for the record separators 1C to 1F. -/
def isWhiteSpace (c : Char) : Bool :=
  isBlank c && !(0x1C ≤ c.toNat && c.toNat ≤ 0x1F)

/-- Drops the characters of a class from both ends. -/
def trimBy (p : Char → Bool) (cs : List Char) : List Char :=
  (((cs.dropWhile p).reverse).dropWhile p).reverse

/-- Drops the blanks from both ends. -/
def trim (cs : List Char) : List Char := trimBy isBlank cs

/-- Drops the blanks from both ends of a string. -/
def trimString (s : String) : String := String.ofList (trim s.toList)

end ContractLens.Text
