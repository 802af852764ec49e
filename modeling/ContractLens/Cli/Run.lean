import ContractLens.Analysis.Lookup
import ContractLens.Cli.Render
import ContractLens.Log.Setup
import ContractLens.Source.Collect
/-!
# Running the program

A run reads a command line, does what it asks for, and ends with a code: zero when all went well,
one when an analysis failed, two when the command line made no sense. Failures of an analysis that
the program knows of are told; others stop the run, and what was written before stays written.
-/

namespace ContractLens.Cli

/-- What the program runs on. -/
structure Machine where
  /-- How the network answers. -/
  net : Http.Network
  /-- Which commands to the cache fail. -/
  schedule : Cache.Schedule
  /-- What the clock shows. -/
  now : Timestamp
  /-- The fresh name made from the count of those given before. -/
  fresh : Nat → String
  /-- The environment. -/
  environment : List (String × String)

/-- What runs leave behind. -/
structure Station where
  /-- The state of the services. -/
  desk : Desk := {}
  /-- The files. -/
  tree : Tree := {}
  /-- What was written as a result. -/
  out : String := ""
  /-- What was said besides. -/
  err : String := ""

/-- Why a run stops. -/
inductive Stop where
  /-- An analysis failed. -/
  | failure (f : Failure)
  /-- A file cannot be used. -/
  | file (f : FileFault)
  /-- The level of reports is none. -/
  | setup (f : Log.SetupFault)

/-- A part of a run. -/
abbrev Session := ExceptT Stop (StateM Station)

/-- How a run ends. -/
inductive Ending where
  /-- With a code. -/
  | finished (code : Nat)
  /-- With the complaint of a part that cannot read its command line. -/
  | misused
  deriving DecidableEq

/-- The code of an ending. -/
def Ending.code : Ending → Nat
  | finished code => code
  | misused => 2

namespace Session

/-- Writes lines as a result. -/
def print (ls : List String) : Session Unit :=
  modify fun station => { station with out := station.out ++ lines ls }

/-- Says lines besides. -/
def say (ls : List String) : Session Unit :=
  modify fun station => { station with err := station.err ++ lines ls }

/-- Uses the services. -/
def service {α : Type} (run : Service α) : Session α := do
  let station ← get
  let (result, desk) := run.run.run station.desk
  set { station with desk := desk }
  match result with
  | .ok value => return value
  | .error failure => throw (.failure failure)

/-- Uses the files. -/
def files {α : Type} (use : Tree → Except FileFault α) : Session α := do
  match use (← get).tree with
  | .ok value => return value
  | .error fault => throw (.file fault)

end Session

open Session

variable [Platform]

/-! ## Analyses -/

/-- The ways in which a request names what is to be analysed. -/
def AnalyzeRequest.modes (request : AnalyzeRequest) : Nat :=
  let given (s : Option String) : Nat := if s.any (!·.isEmpty) then 1 else 0
  (if request.paths.isEmpty then 0 else 1) + given request.bytecode + given request.bytecodeFile +
    given request.address

/-- A filled text. -/
def filled? (s : Option String) : Option String := s.filter (!·.isEmpty)

/-- Opens a connection to the cache for an action, and closes it whatever becomes of the action. -/
def withConnection {α : Type} (office : Office) (config : Cache.Config) (action : Service α) :
    Service α := do
  modify fun desk => { desk with connection := .idle }
  let _ ← Service.cached office (Cache.ready config)
  let result ← observing action
  Service.cached office Cache.close
  Service.ofExcept result
where
  /-- What becomes of an action. -/
  observing (action : Service α) : Service (Except Failure α) :=
    tryCatch (Except.ok <$> action) fun failure => pure (.error failure)

/-- The contract at an address. -/
def analyzeAddress (office : Office) (request : AnalyzeRequest) (address : String) :
    Service AnalysisRecord :=
  let config := Cache.Config.ofSettings office.bench.settings none none none
  if request.pastCache then office.analyzeAddress none request.chainId address false
  else withConnection office config
    ({ office with cache := some config }.analyzeAddress none request.chainId address true)

/-- The verified source made of some files. -/
def sourceInput (chainId : Int) (files : List SourceFile) : AnalysisInput :=
  .verified { address := "", chainId, contractName := "", compilerVersion := "", files, abi := [] }

/-- The deployed code of no address. -/
def codeInput (chainId : Int) (code : String) : AnalysisInput :=
  .bytecode { address := "", chainId, bytecodeHex := code }

/-- Says something that a quiet run leaves out. -/
def mention (quiet : Bool) (line : String) : Session Unit := if quiet then pure () else say [line]

/-- Analyses source files, if there are any. -/
def analyzePaths (office : Office) (quiet : Bool) (request : AnalyzeRequest) :
    Session (Option AnalysisRecord) := do
  let found ← files fun tree => Source.collect tree request.paths
  if found.isEmpty then
    say [paint [.red] "Error: no .sol files found."]
    return none
  mention quiet ("  Analyzing " ++ paint [.cyan] (count found) ++ " Solidity files...")
  some <$> service (office.analyze none (sourceInput request.chainId found))

/-- Analyses what a request names; without a record the run is over. -/
def analyzeRequest (office : Office) (quiet : Bool) (request : AnalyzeRequest) :
    Session (Option AnalysisRecord) := do
  match filled? request.address, filled? request.bytecode, filled? request.bytecodeFile with
  | some address, _, _ =>
    mention quiet ("  Fetching contract " ++ paint [.cyan] address ++ " on chain " ++
      intText request.chainId ++ "...")
    some <$> service (analyzeAddress office request address)
  | none, some code, _ => some <$> service (office.analyze none (codeInput request.chainId code))
  | none, none, some path =>
    let code ← files fun tree => tree.text? (.ofText path)
    some <$> service (office.analyze none (codeInput request.chainId code))
  | none, none, none => analyzePaths office quiet request

/-- What the program says about a stop that it knows of. -/
def Stop.known? : Stop → Option String
  | failure (.invalidAddress address) => some (Failure.invalidAddress address).message
  | failure (.unsupportedChain id) => some (Failure.unsupportedChain id).message
  | failure (.sourceFetch message _) => some message
  | failure (.timedOut message) => some message
  | file .nullCharacter => none
  | file fault => some fault.message
  | _ => none

/-- The text of a record as JSON, one member a line. -/
def recordText (record : AnalysisRecord) : String := (record.toJson .wire).write .indented

/-- Writes a record where and how a request says. -/
def emit (quiet : Bool) (request : AnalyzeRequest) (record : AnalysisRecord) : Session Unit := do
  match request.format, filled? request.output with
  | .table, _ => print (recordLines quiet record)
  | .json, none => print [recordText record]
  | .json, some output =>
    let tree ← files fun tree =>
      tree.write (.ofText output) (recordText record).toUTF8.toList
    modify fun station => { station with tree := tree }
    if !quiet then print ["  Written to " ++ paint [.cyan] output]

/-- What is said about a request that names nothing, or more than one thing. -/
def oneModeOnly : String :=
  "Error: provide exactly one of <paths>, --bytecode, --bytecode-file or --address."

/-- Does what a request asks for. -/
def runAnalyze (office : Office) (quiet : Bool) (request : AnalyzeRequest) : Session Nat := do
  if request.modes != 1 then
    say [paint [.red] oneModeOnly]
    return 2
  let found ← tryCatch (Except.ok <$> analyzeRequest office quiet request) fun stop =>
    match stop.known? with
    | some message => pure (.error message)
    | none => throw stop
  match found with
  | .error message =>
    say [paint [.red] ("\nAnalysis failed: " ++ message)]
    return 1
  | .ok none => return 1
  | .ok (some record) =>
    emit quiet request record
    return 0

/-! ## The program -/

/-- The settings of the environment, which the level of reports belongs to. -/
def loadSettings (machine : Machine) (quiet : Bool) : Session Settings := do
  match Settings.load machine.environment [] with
  | .error failure => throw (.failure failure)
  | .ok settings =>
    match Log.Setup.of settings.stage.word (if quiet then "WARNING" else settings.logLevel) with
    | .error fault => throw (.setup fault)
    | .ok _ => return settings

/-- The services that work with some settings. -/
def Machine.office (machine : Machine) (settings : Settings) : Office where
  bench := { settings, net := machine.net, library := none, now := machine.now }
  cache := none
  schedule := machine.schedule
  fresh := machine.fresh

/-- Does what a command line asks for in some manner. -/
def runCommand (machine : Machine) (manner : Manner) (command : Option Command) : Session Nat := do
  if manner.version then
    print ["owdit " ++ version]
    return 0
  let settings ← loadSettings machine manner.quiet
  if !manner.plain && !manner.quiet then say banner
  match command with
  | none =>
    modify fun station => { station with out := station.out ++ help .program }
    return 0
  | some .config =>
    print (settingLines settings)
    return 0
  | some (.analyze request) => runAnalyze (machine.office settings) manner.quiet request

/-- Runs the program on a command line. -/
def run (machine : Machine) (words : List String) : Session Ending := do
  match Invocation.read words with
  | .help part =>
    modify fun station => { station with out := station.out ++ help part }
    return .finished 0
  | .misuse part fault =>
    modify fun station => { station with err := station.err ++ misuse part fault }
    return .misused
  | .run manner command => .finished <$> runCommand machine manner command

end ContractLens.Cli
