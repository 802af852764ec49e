import ContractLens.Analysis.Record
import ContractLens.Cache.Program
import ContractLens.Calendar.Clock
import ContractLens.Settings
/-!
# The cache of finished records

Records are kept by address and chain, the address in small letters, and indexed by the time of
their analysis. A record of an upgradeable contract is never kept: its code could change behind its
address.

A fault of the store is logged and never ends an operation otherwise than with an empty answer. When
no connection can be made, the cache turns itself off for good. A record whose chain has a number
too long to be written has no key, and an operation that needs the key fails.
-/

namespace ContractLens.Cache

/-- Where the store is, what its keys start with, and how long records are kept. -/
structure Config where
  /-- The address of the store. -/
  url : String
  /-- What the keys start with. -/
  keyStart : String
  /-- The seconds that a record is kept. -/
  seconds : Int

/-- The places that settings name, with some of them given directly; an empty text is none. -/
def Config.ofSettings (settings : Settings) (url keyStart : Option String) (seconds : Option Int) :
    Config where
  url := ((url.filter (!·.isEmpty)).getD settings.redisUrl)
  keyStart := ((keyStart.filter (!·.isEmpty)).getD settings.cachePrefix)
  seconds := seconds.getD settings.cacheTtlSeconds

/-- The state of the connection to the store. -/
inductive Connection where
  /-- There is none yet, or none any more. -/
  | idle
  /-- It is open. -/
  | active
  /-- It could not be made; it is not tried again. -/
  | disabled
  deriving DecidableEq

/-- Whether the cache is in use. -/
def Connection.isEnabled (connection : Connection) : Bool := connection != .disabled

/-- A program that may open and close the connection. -/
abbrev Operation := StateT Connection Program

/-! ## Keys -/

/-- The text of a record's key. -/
def Config.keyText (config : Config) (address : String) (chainId : Int) : String :=
  config.keyStart ++ ":analysis:" ++ Text.lowerString address ++ ":" ++ intText chainId

/-- The key of a record. -/
def Config.recordKey (config : Config) (address : String) (chainId : Int) :
    Except Failure String :=
  (numberText chainId).map fun number =>
    config.keyStart ++ ":analysis:" ++ Text.lowerString address ++ ":" ++ number

/-- The key of the index of records. -/
def Config.indexKey (config : Config) : String := config.keyStart ++ ":analysis:index"

/-- The key of the counter of records that were not kept. -/
def Config.skippedKey (config : Config) : String :=
  config.keyStart ++ ":analysis:skipped_upgradeable"

/-! ## The connection -/

/-- An entry of this component. -/
def entry (level : Log.Level) (message : String) (context : Log.Context := {}) : Log.Entry :=
  { level := level, component := .cache, message := message, context := context }

/-- An entry about a record's key. -/
def keyEntry (level : Log.Level) (message key : String) : Log.Entry :=
  entry level message { cacheKey := some key }

/-- The report on a connection that could not be made. -/
def unavailable (fault : Fault) : Log.Entry :=
  entry .warning s!"Redis cache unavailable: {fault.message} - running without cache"

/-- Opens a connection and asks for a sign of life. -/
def openConnection (config : Config) : Program (Except Fault Unit) :=
  .issue (.connect config.url) fun
    | .error fault => .done (.error fault)
    | .ok _ => .issue .ping .done

/-- Makes sure that there is a connection, if the cache is in use; says whether there is one. -/
def ready (config : Config) : Operation Bool := fun connection =>
  match connection with
  | .disabled => .done (false, .disabled)
  | .active => .done (true, .active)
  | .idle => (openConnection config).bind fun
    | .ok _ => .done (true, .active)
    | .error fault => .note (unavailable fault) (.done (false, .disabled))

/-- An operation that needs a connection, with the answer that it gives without one. -/
def whenReady {α : Type} (config : Config) (without : α) (program : Program α) : Operation α := do
  if ← ready config then StateT.lift program else return without

/-- Goes on with a key, if there is one. -/
def withKey {α : Type} (key : Except Failure String) (program : String → Program α) :
    Program (Except Failure α) :=
  match key with
  | .ok key => (program key).bind fun value => .done (.ok value)
  | .error failure => .done (.error failure)

/-- Closes the connection, if there is one, or says why not. A connection that cannot be closed
stays open. -/
def tryClose : Operation (Except Fault Unit) := fun connection =>
  match connection with
  | .active => .issue .close fun
    | .ok _ => .done (.ok (), .idle)
    | .error fault => .done (.error fault, .active)
  | other => .done (.ok (), other)

/-- Closes the connection, if there is one. -/
def close : Operation Unit := do
  let _ ← tryClose
  return ()

/-! ## Records -/

section Records

variable [Platform]

/-- Reads the record of a key. -/
def getRecord (now : Timestamp) (key : String) : Program (Option AnalysisRecord) :=
  let failed (reason : String) : Program (Option AnalysisRecord) :=
    .note (keyEntry .debug s!"Cache GET error for {key}: {reason}" key) (.done none)
  .issue (.get key) fun
    | .error fault => failed fault.message
    | .ok none => .note (keyEntry .debug s!"Cache miss for {key}" key) (.done none)
    | .ok (some s) =>
      match AnalysisRecord.decode now s with
      | .ok record => .done (some record)
      | .error failure => failed failure.message

/-- The record of an address on a chain, if it is kept. -/
def get (config : Config) (now : Timestamp) (address : String) (chainId : Int) :
    Operation (Except Failure (Option AnalysisRecord)) :=
  whenReady config (.ok none) (withKey (config.recordKey address chainId) (getRecord now))

/-- Whether a record must not be kept. -/
def isVetoed (record : AnalysisRecord) : Bool := record.isUpgradeable || !record.cacheEligible

/-- Counts a record that was not kept. -/
def countSkipped (config : Config) : Program Unit :=
  .issue (.incr config.skippedKey) fun
    | .ok _ => .done ()
    | .error fault =>
      .note (entry .debug s!"Cache INCR error for {config.skippedKey}: {fault.message}") (.done ())

/-- Writes a record under a key, and the place of the key in the index. The record may have texts
that cannot be written, and its time no place among the seconds. -/
def writeRecord (config : Config) (record : AnalysisRecord) (key : String) : Program Bool :=
  let failed (reason : String) : Program Bool :=
    .note (keyEntry .debug s!"Cache SET error for {key}: {reason}" key) (.done false)
  match record.encoded with
  | .error reason => failed reason
  | .ok text => .issue (.set key text (some config.seconds)) fun
    | .error fault => failed fault.message
    | .ok _ =>
      match record.analyzedAt.seconds with
      | .error fault => failed fault.message
      | .ok score => .issue (.zadd config.indexKey key score) fun
        | .error fault => failed fault.message
        | .ok _ => .note (keyEntry .info s!"Cached analysis for {key}" key) (.done true)

/-- The report on a record that is not kept under its key. -/
def skippedEntry (record : AnalysisRecord) (key : String) : Log.Entry :=
  entry .info s!"Skipping cache for upgradeable contract {key}"
    { address := some record.address, chainId := some record.chainId }

/-- Keeps a record under a key, unless it must not be kept; says whether it was written. -/
def keep (config : Config) (record : AnalysisRecord) (key : String) : Operation Bool := do
  let connected ← ready config
  if isVetoed record then
    StateT.lift (Program.log (skippedEntry record key))
    if connected then StateT.lift (countSkipped config)
    return false
  if connected then StateT.lift (writeRecord config record key) else return false

/-- Keeps a record unless it must not be kept; says whether it was written. -/
def store (config : Config) (record : AnalysisRecord) : Operation (Except Failure Bool) :=
  match config.recordKey record.address record.chainId with
  | .error failure => return .error failure
  | .ok key => .ok <$> keep config record key

end Records

/-- Drops the record of a key; says whether there was one. -/
def deleteRecord (config : Config) (key : String) : Program Bool :=
  let failed (fault : Fault) : Program Bool :=
    .note (keyEntry .debug s!"Cache DELETE error for {key}: {fault.message}" key) (.done false)
  .issue (.zrem config.indexKey key) fun
    | .error fault => failed fault
    | .ok _ => .issue (.delete key) fun
      | .error fault => failed fault
      | .ok dropped => .done dropped

/-- Drops the record of an address on a chain; says whether there was one. -/
def delete (config : Config) (address : String) (chainId : Int) :
    Operation (Except Failure Bool) :=
  whenReady config (.ok false)
    (withKey (config.recordKey address chainId) (deleteRecord config))

/-! ## History -/

/-- Which records of the history are asked for. -/
structure Query where
  /-- The most records; at least one is given if any is left. -/
  limit : Int := 20
  /-- How many matching records are passed over first. -/
  offset : Int := 0
  /-- What the address or the name has to contain, in any case. -/
  search : String := ""

/-- Whether a record has the wanted text in its address or its name. -/
def Query.accepts (query : Query) (record : AnalysisRecord) : Bool :=
  let needle := Text.lower query.search.toList
  Text.contains needle (Text.lower record.address.toList) ||
    Text.contains needle (Text.lower record.contractName.toList)

section History

variable [Platform]

/-- The report on a history that was cut short. -/
def historyFailed (reason : String) : Log.Entry := entry .debug s!"Cache HISTORY error: {reason}"

/-- Goes through the keys of the index, with `skipped` matching records passed over so far and the
`found` ones kept. A key without a text is dropped from the index. -/
def historyFrom (config : Config) (now : Timestamp) (query : Query) (skipped : Int)
    (found : List AnalysisRecord) : List String → Program (List AnalysisRecord)
  | [] => .done found
  | key :: rest => .issue (.get key) fun
    | .error fault => .note (historyFailed fault.message) (.done found)
    | .ok none => .issue (.zrem config.indexKey key) fun
      | .error fault => .note (historyFailed fault.message) (.done found)
      | .ok _ => historyFrom config now query skipped found rest
    | .ok (some s) =>
      match AnalysisRecord.decode now s with
      | .error failure => .note (historyFailed failure.message) (.done found)
      | .ok record =>
        if !query.accepts record then historyFrom config now query skipped found rest
        else if skipped < query.offset then
          historyFrom config now query (skipped + 1) found rest
        else
          let found := found ++ [record]
          if query.limit ≤ found.length then .done found
          else historyFrom config now query skipped found rest

/-- The records of the history that a query asks for, the latest analysis first. -/
def historyRecords (config : Config) (now : Timestamp) (query : Query) :
    Program (List AnalysisRecord) :=
  .issue (.zrevrange config.indexKey) fun
    | .error fault => .note (historyFailed fault.message) (.done [])
    | .ok keys => historyFrom config now query 0 [] keys

/-- The records of the history that a query asks for, the latest analysis first. -/
def history (config : Config) (now : Timestamp) (query : Query) :
    Operation (List AnalysisRecord) :=
  whenReady config [] (historyRecords config now query)

end History

/-! ## Use -/

/-- What is known about the use of the cache. -/
inductive Stats where
  /-- The cache is turned off. -/
  | disabled
  /-- The store did not say. -/
  | unknown
  /-- The count of records, of records not kept, and of the store's hits and misses. -/
  | counts (cached : Nat) (skipped : Int) (seconds : Int) (hits misses : Json)

/-- Asks the store about its use. -/
def askStats (config : Config) : Program Stats :=
  .issue .info fun
    | .error _ => .done .unknown
    | .ok facts => .issue (.get config.skippedKey) fun
      | .error _ => .done .unknown
      | .ok skipped => .issue (.zcard config.indexKey) fun
        | .error _ => .done .unknown
        | .ok cached =>
          let text := skipped.getD ""
          match if text.isEmpty then some 0 else wholeNumber? text with
          | none => .done .unknown
          | some skipped => .done (.counts cached skipped config.seconds
              ((Table.get? facts "keyspace_hits").getD (.int 0))
              ((Table.get? facts "keyspace_misses").getD (.int 0)))

/-- What is known about the use of the cache. -/
def stats (config : Config) : Operation Stats := whenReady config .disabled (askStats config)

end ContractLens.Cache
