import ContractLens.Bytecode.Risk
import ContractLens.Failure
import ContractLens.Json.Shown
import ContractLens.Text.Case
/-!
# Settings

Every setting has a default, may be set in the environment under its name with `OWDIT_` in front, in
any case, and may be given directly, which counts more. Text from the environment is read like any
other value; the addresses of nodes are an object in JSON. Overrides given in both ways are merged.
-/

namespace ContractLens

open Schema

/-- Where the engine runs. -/
inductive Stage where
  /-- On a developer's machine. -/
  | development
  /-- Before release. -/
  | staging
  /-- In use. -/
  | production
  deriving DecidableEq

/-- The word for a stage. -/
def Stage.word : Stage → String
  | development => "development"
  | staging => "staging"
  | production => "production"

/-- The stages by their words. -/
def Stage.table : List (String × Stage) :=
  [development, staging, production].map fun s => (s.word, s)

/-- Reads a stage. -/
def Stage.read : Reader Stage := oneOf Stage.table .notLiteral

/-- The addresses of nodes by the number of their chain, in the order in which they were set. -/
abbrev NodeTable := List (Int × String)

/-- Sets the address of a chain's node. -/
def NodeTable.insert : NodeTable → Int → String → NodeTable
  | [], id, url => [(id, url)]
  | (known, old) :: rest, id, url =>
    if known == id then (known, url) :: rest else (known, old) :: NodeTable.insert rest id url

/-- The address of a chain's node. -/
def NodeTable.get? (nodes : NodeTable) (id : Int) : Option String :=
  (nodes.find? (·.1 == id)).map (·.2)

/-- Reads the entries of a node table; a name has to be a whole number. -/
def NodeTable.readEntries : List (String × Json) → Checked NodeTable
  | [] => .accepted []
  | (name, value) :: rest =>
    let key := Checked.under (.name name) (Checked.under (.name "[key]") (integer (.text name)))
    let url := Checked.under (.name name) (text value)
    List.cons <$> (Prod.mk <$> key <*> url) <*> readEntries rest

/-- Reads a node table; a later entry for the same chain replaces an earlier one. -/
def NodeTable.read : Reader NodeTable
  | .object members =>
    .map (fun entries => entries.foldl (fun nodes (id, url) => NodeTable.insert nodes id url) [])
      (readEntries members)
  | input => .refuse .notObject input

/-- All settings. -/
structure Settings where
  /-- The name shown for the engine. -/
  appName : String
  /-- Where the engine runs. -/
  stage : Stage
  /-- The least level that is logged. -/
  logLevel : String
  /-- The address of the cache. -/
  redisUrl : String
  /-- What the cache's keys start with. -/
  cachePrefix : String
  /-- The hours that a record is kept. -/
  cacheTtlHours : Int
  /-- The key to the explorer; without one it is not asked. -/
  etherscanApiKey : String
  /-- The address of the explorer. -/
  etherscanApiUrl : String
  /-- The address of the published sources. -/
  sourcifyApiUrl : String
  /-- The seconds that a request may take. -/
  httpTimeoutSeconds : Binary64
  /-- The nodes to ask instead of the usual ones. -/
  rpcOverrides : NodeTable
  /-- How often a fetch is tried again. -/
  fetchRetries : Nat
  /-- The seconds before the first new try. -/
  retryDelaySeconds : Binary64
  /-- Whether imports are looked up in public packages. -/
  importCdnEnabled : Bool
  /-- The address of the public packages. -/
  importCdnUrl : String
  /-- The seconds that the lookup of an import may take. -/
  importTimeoutSeconds : Binary64
  /-- From when on counts are reported. -/
  thresholds : Thresholds

namespace Settings

/-- The names of the settings in order. -/
def names : List String := [
  "app_name", "app_env", "log_level", "redis_url", "cache_prefix", "cache_ttl_hours",
  "etherscan_api_key", "etherscan_api_url", "sourcify_api_url", "http_timeout_seconds",
  "rpc_url_overrides", "fetch_retries", "fetch_retry_base_delay_seconds", "import_cdn_enabled",
  "import_cdn_url", "import_fetch_timeout_seconds", "selfdestruct_high_threshold",
  "selfdestruct_critical_threshold", "access_control_min_selectors"]

/-- The setting whose value is an object. -/
def nodesName : String := "rpc_url_overrides"

/-- A number of seconds with halves. -/
def halves (n : Nat) : Binary64 := .ofRatio false n 2

/-- A problem for every name that is no setting. -/
def unknownNames (given : Table Json) : List Problem :=
  (given.filter fun (name, _) => !names.contains name).map fun (name, value) =>
    ⟨.unknownMember, [.name name], value⟩

/-- Reads the settings from the values that were given. -/
def read (given : Table Json) : Checked Settings :=
  let get {α : Type} (name : String) (reader : Reader α) (absent : α) : Checked α :=
    defaulted given ⟨name, name⟩ reader absent
  let thresholds := Thresholds.mk
    <$> get "selfdestruct_high_threshold" integer 10
    <*> get "selfdestruct_critical_threshold" integer 100
    <*> get "access_control_min_selectors" integer 5
  let settings := Settings.mk
    <$> get "app_name" text "Owdit Engine" <*> get "app_env" Stage.read .development
    <*> get "log_level" text "INFO" <*> get "redis_url" text "redis://localhost:6379/0"
    <*> get "cache_prefix" text "owdit" <*> get "cache_ttl_hours" integer 24
    <*> get "etherscan_api_key" text ""
    <*> get "etherscan_api_url" text "https://api.etherscan.io/v2/api"
    <*> get "sourcify_api_url" text "https://sourcify.dev/server"
    <*> get "http_timeout_seconds" number (halves 20) <*> get nodesName NodeTable.read []
    <*> .map Int.toNat (get "fetch_retries" (integerFrom 0) 2)
    <*> get "fetch_retry_base_delay_seconds" number (halves 1)
    <*> get "import_cdn_enabled" bool false
    <*> get "import_cdn_url" text "https://cdn.jsdelivr.net/npm"
    <*> get "import_fetch_timeout_seconds" number (halves 10) <*> thresholds
  match unknownNames given with
  | [] => settings
  | problems => (fun s (_ : Unit) => s) <$> settings <*> .refused problems

/-- What the names of settings start with in the environment. -/
def environmentStart : String := "owdit_"

/-- The text of a setting in the environment; of several spellings of its name the last counts. -/
def inEnvironment? (environment : List (String × String)) (name : String) : Option String :=
  (environment.reverse.find? fun (known, _) =>
    Text.lowerString known == environmentStart ++ name).map (·.2)

section

variable [Platform]

/-- The value of a setting in the environment, if it is set. -/
def fromEnvironment? (environment : List (String × String)) (name : String) :
    Except Failure (Option Json) :=
  match inEnvironment? environment name with
  | none => .ok none
  | some s =>
    if name != nodesName then .ok (some (.text s))
    else match Json.read s with
      | .ok .null => .ok none
      | .ok value => .ok (some value)
      | .error .tooDeep => .error (.unreadable .tooDeep)
      | .error _ => .error (.unreadableSetting name)

/-- A given value put over one from the environment; two objects are merged. -/
def overlay : Json → Json → Json
  | .object below, .object above =>
    .object (above.foldl (fun table (name, value) => Table.insert table name value) below)
  | _, above => above

/-- The values of all settings that are set in the environment or given directly. -/
def gather (environment : List (String × String)) (given : Table Json) :
    Except Failure (Table Json) := do
  let found ← names.filterMapM fun name => do
    return (← fromEnvironment? environment name).map fun value => (name, value)
  return given.foldl (fun table (name, value) =>
    Table.insert table name (((Table.get? table name).map (overlay · value)).getD value)) found

/-- The settings of an environment with some values given directly. -/
def load (environment : List (String × String)) (given : Table Json) : Except Failure Settings := do
  match read (← gather environment given) with
  | .accepted settings => return settings
  | .refused problems => throw (.refused "Settings" problems)

end

/-- The seconds that a record is kept. -/
def cacheTtlSeconds (s : Settings) : Int := s.cacheTtlHours * 3600

/-- The settings by name, in order; the node table has the chains' numbers as names. -/
def toMembers (s : Settings) : Table Json := [
  ("app_name", .text s.appName),
  ("app_env", .text s.stage.word),
  ("log_level", .text s.logLevel),
  ("redis_url", .text s.redisUrl),
  ("cache_prefix", .text s.cachePrefix),
  ("cache_ttl_hours", .int s.cacheTtlHours),
  ("etherscan_api_key", .text s.etherscanApiKey),
  ("etherscan_api_url", .text s.etherscanApiUrl),
  ("sourcify_api_url", .text s.sourcifyApiUrl),
  ("http_timeout_seconds", .float s.httpTimeoutSeconds),
  (nodesName, .object (s.rpcOverrides.map fun (id, url) => (intText id, .text url))),
  ("fetch_retries", .int s.fetchRetries),
  ("fetch_retry_base_delay_seconds", .float s.retryDelaySeconds),
  ("import_cdn_enabled", .bool s.importCdnEnabled),
  ("import_cdn_url", .text s.importCdnUrl),
  ("import_fetch_timeout_seconds", .float s.importTimeoutSeconds),
  ("selfdestruct_high_threshold", .int s.thresholds.selfDestructHigh),
  ("selfdestruct_critical_threshold", .int s.thresholds.selfDestructCritical),
  ("access_control_min_selectors", .int s.thresholds.accessControlFunctions)]

end Settings

end ContractLens
