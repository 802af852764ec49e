import ContractLens.Text.Blank
import ContractLens.Text.Case
import ContractLens.Text.Scan
/-!
# Code texts

Code is written in base sixteen, with or without `0x` in front, in either case, and with blanks
anywhere; its normal form has none of these. A minimal proxy is recognised by its fixed beginning
and end.
-/

namespace ContractLens.Code

/-- The code in small letters without blanks and without `0x` in front. -/
def normalize (code : List Char) : List Char :=
  let small := Text.lower (code.filter fun c => !Text.isBlank c)
  (Text.dropStart? ['0', 'x'] small).getD small

/-- The beginning of a minimal proxy, up to the address it forwards to. -/
def minimalProxyStart : String := "363d3d373d3d3d363d73"

/-- The end of a minimal proxy, after the address it forwards to. -/
def minimalProxyEnd : String := "5af43d82803e903d91602b57fd5bf3"

/-- The length of an address in base sixteen. -/
def addressLength : Nat := 40

/-- Whether the code has the layout of a minimal proxy: its beginning, an address, and its end
anywhere after. -/
def isMinimalProxy (code : List Char) : Bool :=
  match Text.dropStart? minimalProxyStart.toList (normalize code) with
  | some rest => Text.contains minimalProxyEnd.toList (rest.drop addressLength)
  | none => false

end ContractLens.Code
