import ContractLens.Failure
/-!
# Addresses of contracts

An address is `0x` and forty digits of base sixteen; one line feed at the end is let through.
-/

namespace ContractLens.Address

/-- A digit of base sixteen in either case. -/
def isHexDigit (c : Char) : Bool := (Json.hexValue? c).isSome

/-- A text without a line feed at its end. -/
def dropLineEnd (cs : List Char) : List Char :=
  if cs.getLast? == some '\n' then cs.dropLast else cs

/-- Whether a text is an address. -/
def isValid (s : String) : Bool :=
  match dropLineEnd s.toList with
  | '0' :: 'x' :: digits => digits.length == 40 && digits.all isHexDigit
  | _ => false

/-- The address, if the text is one. -/
def validate (s : String) : Except Failure String :=
  if isValid s then .ok s else .error (.invalidAddress s)

end ContractLens.Address
