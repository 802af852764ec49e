import ContractLens.Settings
/-!
# The usual settings

Every setting has a default, and the defaults pass their own checks (`load_nil`): where nothing is
set, the settings are the usual ones.
-/

namespace ContractLens.Settings

/-- The settings where nothing is set. -/
def usual : Settings where
  appName := "Owdit Engine"
  stage := .development
  logLevel := "INFO"
  redisUrl := "redis://localhost:6379/0"
  cachePrefix := "owdit"
  cacheTtlHours := 24
  etherscanApiKey := ""
  etherscanApiUrl := "https://api.etherscan.io/v2/api"
  sourcifyApiUrl := "https://sourcify.dev/server"
  httpTimeoutSeconds := halves 20
  rpcOverrides := []
  fetchRetries := 2
  retryDelaySeconds := halves 1
  importCdnEnabled := false
  importCdnUrl := "https://cdn.jsdelivr.net/npm"
  importTimeoutSeconds := halves 10
  thresholds := ⟨10, 100, 5⟩

/-- **The defaults pass their own checks.** -/
theorem load_nil [Platform] : load [] [] = .ok usual := rfl

end ContractLens.Settings
