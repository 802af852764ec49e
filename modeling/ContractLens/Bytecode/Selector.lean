import ContractLens.Schema.Names
import ContractLens.Text.Scan
/-!
# Function selectors

A contract's functions are called by the first four bytes of a hash of their signature. The table
holds the selectors of widely used interfaces; code is searched for them at every byte position.
-/

namespace ContractLens

open Schema

/-- A function known by its selector. -/
structure Selector where
  /-- Four bytes in base sixteen. -/
  selector : String
  /-- The function's name. -/
  name : String
  /-- The name with the parameters' types. -/
  signature : String
  /-- The parameters' types in order. -/
  inputs : List String
  deriving DecidableEq, Inhabited

namespace Selector

/-- Reads a selector. -/
def read : Reader Selector := record "FunctionSelector" fun o =>
  Selector.mk <$> required o Names.selector text <*> required o Names.name text
    <*> required o Names.signature text <*> defaulted o Names.inputs (list text) []

/-- A selector as a value. -/
def toJson (naming : Naming) (s : Selector) : Json := .object [
  (naming.of Names.selector, .text s.selector), (naming.of Names.name, .text s.name),
  (naming.of Names.signature, .text s.signature), (naming.of Names.inputs, .texts s.inputs)]

/-- The signatures of the known selectors. -/
def known : Table String := [
  -- ERC20
  ("0x70a08231", "balanceOf(address)"),
  ("0xa9059cbb", "transfer(address,uint256)"),
  ("0x23b872dd", "transferFrom(address,address,uint256)"),
  ("0x095ea7b3", "approve(address,uint256)"),
  ("0x18160ddd", "totalSupply()"),
  ("0xdd62ed3e", "allowance(address,address)"),
  ("0x06fdde03", "name()"),
  ("0x95d89b41", "symbol()"),
  ("0x313ce567", "decimals()"),
  -- ERC721
  ("0x6352211e", "ownerOf(uint256)"),
  ("0x42842e0e", "safeTransferFrom(address,address,uint256)"),
  ("0xb88d4fde", "safeTransferFrom(address,address,uint256,bytes)"),
  ("0x081812fc", "getApproved(uint256)"),
  ("0xa22cb465", "setApprovalForAll(address,bool)"),
  ("0xe985e9c5", "isApprovedForAll(address,address)"),
  ("0x01ffc9a7", "supportsInterface(bytes4)"),
  -- ERC1155
  ("0x00fdd58e", "balanceOf(address,uint256)"),
  ("0x4e1273f4", "balanceOfBatch(address[],uint256[])"),
  ("0xf242432a", "safeTransferFrom(address,address,uint256,uint256,bytes)"),
  ("0x2eb2c2d6", "safeBatchTransferFrom(address,address,uint256[],uint256[],bytes)"),
  -- Ownership
  ("0x8da5cb5b", "owner()"),
  ("0x715018a6", "renounceOwnership()"),
  ("0xf2fde38b", "transferOwnership(address)"),
  ("0x79ba5097", "acceptOwnership()"),
  -- Roles
  ("0x91d14854", "hasRole(bytes32,address)"),
  ("0x248a9ca3", "getRoleAdmin(bytes32)"),
  ("0x2f2ff15d", "grantRole(bytes32,address)"),
  ("0xd547741f", "revokeRole(bytes32,address)"),
  ("0x36568abe", "renounceRole(bytes32,address)"),
  -- Pausability
  ("0x8456cb59", "pause()"),
  ("0x3f4ba83a", "unpause()"),
  ("0x5c975abb", "paused()"),
  -- Supply / treasury
  ("0x40c10f19", "mint(address,uint256)"),
  ("0x42966c68", "burn(uint256)"),
  ("0x79cc6790", "burnFrom(address,uint256)"),
  ("0x3ccfd60b", "withdraw()"),
  -- Proxy administration
  ("0x5c60da1b", "implementation()"),
  ("0x3659cfe6", "upgradeTo(address)"),
  ("0x4f1ef286", "upgradeToAndCall(address,bytes)"),
  ("0x8f283970", "changeAdmin(address)"),
  ("0xf851a440", "admin()")]

/-- The functions of a plain token. -/
def tokenGroup : List String := [
  "0xa9059cbb", "0x70a08231", "0x23b872dd", "0x095ea7b3", "0x18160ddd"]

/-- The owner of a single token. -/
def singleTokenOwner : String := "0x6352211e"

/-- The functions that move single tokens. -/
def singleTokenTransfers : List String := ["0x42842e0e", "0xb88d4fde", "0xa22cb465", "0x095ea7b3"]

/-- The balance of one token of many. -/
def multiTokenBalance : String := "0x00fdd58e"

/-- The functions that move several tokens. -/
def multiTokenTransfers : List String := ["0xf242432a", "0x2eb2c2d6"]

/-- The functions of an owned contract. -/
def ownershipGroup : List String := ["0x8da5cb5b", "0xf2fde38b", "0x715018a6"]

/-- The functions of a contract with roles. -/
def roleGroup : List String := [
  "0x91d14854", "0x248a9ca3", "0x2f2ff15d", "0xd547741f", "0x36568abe"]

/-- The functions that administrate a proxy. -/
def proxyAdminGroup : List String := [
  "0x3659cfe6", "0x4f1ef286", "0x5c60da1b", "0x8f283970", "0xf851a440"]

/-- The functions that show some control of access. -/
def accessControlGroup : List String :=
  ownershipGroup ++ roleGroup ++ ["0x79ba5097", "0x8f283970", "0xf851a440"]

/-- A signature split into its name and the parameters' types. -/
def splitSignature (signature : String) : String × List String :=
  let cs := signature.toList
  let name := cs.takeWhile (· != '(')
  let params := ((cs.drop (name.length + 1)).reverse.dropWhile (· == ')')).reverse
  let parts := ((Text.splitAt ',' params).map Text.trim).filter fun part => !part.isEmpty
  (String.ofList name, parts.map String.ofList)

/-- The selector with its signature, if it is known. -/
def describe? (selector : String) : Option Selector :=
  (known.get? selector).map fun signature =>
    let (name, inputs) := splitSignature signature
    ⟨selector, name, signature, inputs⟩

/-- The first eight characters of a text with the mark of base sixteen. -/
def window? (code : List Char) : Option String :=
  let chars := code.take 8
  if chars.length == 8 then some (String.ofList ('0' :: 'x' :: chars)) else none

/-- The known selectors at the byte positions of a code text, each as often as it stands there. -/
def occurrences : List Char → List Selector
  | high :: low :: rest =>
    match (window? (high :: low :: rest)).bind describe? with
    | some found => found :: occurrences rest
    | none => occurrences rest
  | _ => []

/-- Each selector once, where it comes first. -/
def firsts (selectors : List Selector) : List Selector :=
  selectors.foldl
    (fun found s => if found.any (·.selector == s.selector) then found else found ++ [s]) []

/-- The known selectors of a code text in the order of first occurrence. -/
def extract (code : List Char) : List Selector := firsts (occurrences code)

end Selector

end ContractLens
