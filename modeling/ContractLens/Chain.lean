/-!
# Chains

The chains that contracts can be looked up on.
-/

namespace ContractLens

/-- A chain that contracts are deployed on. -/
structure Chain where
  /-- The number of the chain. -/
  id : Int
  /-- Its name. -/
  name : String
  /-- Where its blocks are shown. -/
  explorerUrl : String
  /-- The node that is asked for code. -/
  rpcUrl : String
  /-- The currency that is paid in. -/
  nativeCurrency : String := "ETH"
  /-- Whether verified sources of it are published. -/
  sourcify : Bool := true
  /-- Whether it is for trials only. -/
  isTestnet : Bool := false
  deriving DecidableEq

namespace Chain

/-- The known chains. -/
def all : List Chain := [
  { id := 1, name := "Ethereum", explorerUrl := "https://etherscan.io",
    rpcUrl := "https://eth.llamarpc.com" },
  { id := 137, name := "Polygon", explorerUrl := "https://polygonscan.com",
    rpcUrl := "https://polygon.llamarpc.com", nativeCurrency := "MATIC" },
  { id := 56, name := "BNB Smart Chain", explorerUrl := "https://bscscan.com",
    rpcUrl := "https://binance.llamarpc.com", nativeCurrency := "BNB" },
  { id := 42161, name := "Arbitrum One", explorerUrl := "https://arbiscan.io",
    rpcUrl := "https://arbitrum.llamarpc.com" },
  { id := 10, name := "Optimism", explorerUrl := "https://optimistic.etherscan.io",
    rpcUrl := "https://optimism.llamarpc.com" },
  { id := 8453, name := "Base", explorerUrl := "https://basescan.org",
    rpcUrl := "https://base.llamarpc.com" },
  { id := 11155111, name := "Sepolia", explorerUrl := "https://sepolia.etherscan.io",
    rpcUrl := "https://rpc.sepolia.org", isTestnet := true }]

/-- The chain with a number. -/
def ofId? (id : Int) : Option Chain := all.find? (·.id == id)

end Chain

end ContractLens
