import ContractLens.Bytecode.Selector
/-!
# What kind of contract it is

A contract's functions tell what it is: a token of one of three standards, an owned contract, a
proxy, or something of its own. The first kind that fits is taken.
-/

namespace ContractLens

/-- The kinds of contract, the most telling first. -/
inductive Archetype where
  /-- A plain token. -/
  | token
  /-- Single tokens with an owner each. -/
  | singleTokens
  /-- Several tokens in one contract. -/
  | multiToken
  /-- A contract with an owner. -/
  | owned
  /-- A contract that forwards to another. -/
  | proxy
  /-- Anything else. -/
  | custom
  deriving DecidableEq

namespace Archetype

/-- The words for a kind of contract. -/
def words : Archetype → String
  | token => "ERC20 Token"
  | singleTokens => "ERC721 NFT"
  | multiToken => "ERC1155 Multi-Token"
  | owned => "Ownable Contract"
  | proxy => "Proxy Contract"
  | custom => "Custom Contract"

/-- The kind of a contract with the given selectors. -/
def ofSelectors (present : List String) : Archetype :=
  let has (selector : String) : Bool := present.contains selector
  let hasAny (group : List String) : Bool := group.any has
  if Selector.tokenGroup.all has then token
  else if has Selector.singleTokenOwner && hasAny Selector.singleTokenTransfers then singleTokens
  else if has Selector.multiTokenBalance && hasAny Selector.multiTokenTransfers then multiToken
  else if hasAny Selector.ownershipGroup then owned
  else if hasAny Selector.proxyAdminGroup then proxy
  else custom

end Archetype

end ContractLens
