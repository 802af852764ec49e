import ContractLens.Analysis.Analyze
import ContractLens.Cache.Operations
import ContractLens.Fetch.Resolve
import ContractLens.Log.Scope
/-!
# Analysing the contract at an address

The cache is asked first; else the contract is fetched, again after a pause while the network is at
fault, analysed, and handed to the cache. One name covers the lookup, the fetch and the analysis. An
operation of the cache that fails ends the call.
-/

namespace ContractLens

/-- The state of a service that analyses contracts one after the other. -/
structure Desk where
  /-- What was requested, logged and waited for so far. -/
  trace : Trace := {}
  /-- The server of the cache. -/
  server : Cache.Server := {}
  /-- The connection to it. -/
  connection : Cache.Connection := .idle
  /-- How many fresh names were given. -/
  given : Nat := 0

/-- A computation at the desk that may fail; what it did before a failure stays done. -/
abbrev Service := ExceptT Failure (StateM Desk)

/-- How a service is set up. -/
structure Office where
  /-- What an analysis works with. -/
  bench : Workbench
  /-- The cache, if there is one. -/
  cache : Option Cache.Config
  /-- Which commands to the cache fail. -/
  schedule : Cache.Schedule
  /-- The fresh name made from the count of those given before. -/
  fresh : Nat → String

namespace Service

variable {α : Type}

/-- Makes requests and logs entries. -/
def traced (run : Traced α) : Service α := ExceptT.lift fun desk =>
  let (value, trace) := StateT.run run desk.trace
  (value, { desk with trace := trace })

/-- Makes an attempt. -/
def attempt (run : Attempt α) : Service α := do
  match ← traced run.run with
  | .ok value => return value
  | .error failure => throw failure

/-- Ends with a result that is already known. -/
def ofExcept : Except Failure α → Service α
  | .ok value => pure value
  | .error failure => throw failure

/-- Runs an operation of the cache. -/
def cached (office : Office) (operation : Cache.Operation α) : Service α :=
  ExceptT.lift fun desk =>
    let ((value, connection), entries, server) :=
      desk.server.run office.schedule (operation desk.connection)
    (value, { desk with
      server := server
      connection := connection
      trace := { desk.trace with entries := desk.trace.entries ++ entries } })

/-- Runs an operation of the cache that may fail. -/
def asked (office : Office) (operation : Cache.Operation (Except Failure α)) : Service α := do
  ofExcept (← cached office operation)

/-- The name of a scope inside the one around it, if there is one. -/
def nameFor (office : Office) (around : Option String) : Service String :=
  match around with
  | some name => pure name
  | none => ExceptT.lift fun desk =>
    (office.fresh desk.given, { desk with given := desk.given + 1 })

end Service

namespace Office

/-- Analyses an input, under the name of the scope around it or a fresh one. -/
def analyze (office : Office) (around : Option String) (input : AnalysisInput) :
    Service AnalysisRecord := do
  let name ← Service.nameFor office around
  Service.traced (office.bench.analyze name input)

/-- The kind of value that is read as one input or the other. -/
def inputModel : String := "tagged-union[VerifiedInput,BytecodeInput]"

/-- Analyses the input that a value stands for; a value that stands for none is refused before the
analysis gets a name. -/
def analyzeValue (office : Office) (around : Option String) (value : Json) :
    Service AnalysisRecord :=
  match AnalysisInput.read value with
  | .accepted input => office.analyze around input
  | .refused problems => throw (.refused inputModel problems)

/-- The report on a record that was found in the cache. -/
def hitEntry (chainId : Int) (address : String) : Log.Entry where
  level := .info
  component := .engine
  message := "Cache hit"
  context := { address := some address, chainId := some chainId }

/-- How often, and with what pauses, the fetch of a contract is tried. -/
def fetchPolicy (office : Office) (address : String) : RetryPolicy where
  retries := office.bench.settings.fetchRetries
  baseDelay := office.bench.settings.retryDelaySeconds
  label := "resolve " ++ address

section

variable [Platform]

/-- Fetches the contract at an address. -/
def fetch (office : Office) (chainId : Int) (address : String) : Service AnalysisInput :=
  Service.attempt ((office.fetchPolicy address).run fun _ =>
    Fetch.resolve office.bench.net office.bench.settings chainId address)

/-- Fetches and analyses the contract at an address, past the cache. -/
def fetchAndAnalyze (office : Office) (name : String) (chainId : Int) (address : String) :
    Service AnalysisRecord := do
  office.analyze (some name) (← office.fetch chainId address)

/-- The record of the contract at an address: the one in the cache, or a new one that is handed to
the cache. -/
def lookUp (office : Office) (config : Cache.Config) (name : String) (chainId : Int)
    (address : String) : Service AnalysisRecord := do
  match ← Service.asked office (Cache.get config office.bench.now address chainId) with
  | some record =>
    Service.traced (Traced.note (hitEntry chainId address))
    return record
  | none =>
    let record ← office.fetchAndAnalyze name chainId address
    let _ ← Service.asked office (Cache.store config record)
    return record

/-- Analyses the contract at an address, with the help of the cache if it is to be used. -/
def analyzeAddress (office : Office) (around : Option String) (chainId : Int) (address : String)
    (useCache : Bool) : Service AnalysisRecord := do
  let _ ← Service.ofExcept (Address.validate address)
  let name ← Service.nameFor office around
  match if useCache then office.cache else none with
  | some config => office.lookUp config name chainId address
  | none => office.fetchAndAnalyze name chainId address

end

end Office

end ContractLens
