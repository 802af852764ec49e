import ContractLens.Cli.Words
import ContractLens.Number.WholeText
/-!
# What a command line asks for

The options before the command say how the program behaves as a whole; the command says what it
does, and has options and operands of its own. Events are taken one after the other: a request for
help ends the reading, and so does a fault. Words without a place are gathered and refused at the
end, those before the command first.
-/

namespace ContractLens.Cli

/-- How results are written. -/
inductive Format where
  /-- As text for people. -/
  | table
  /-- As JSON. -/
  | json
  deriving DecidableEq

/-- What is to be analysed, and how. -/
structure AnalyzeRequest where
  /-- The paths of sources. -/
  paths : List String := []
  /-- Deployed code. -/
  bytecode : Option String := none
  /-- The path of a file with deployed code. -/
  bytecodeFile : Option String := none
  /-- The address of a contract. -/
  address : Option String := none
  /-- The chain. -/
  chainId : Int := 1
  /-- How the result is written. -/
  format : Format := .table
  /-- The path that the result is written to. -/
  output : Option String := none
  /-- Whether the cache is passed by. -/
  pastCache : Bool := false
  deriving DecidableEq

/-- A command. -/
inductive Command where
  /-- It analyses something. -/
  | analyze (request : AnalyzeRequest)
  /-- It shows the settings. -/
  | config
  deriving DecidableEq

/-- How the program behaves as a whole. -/
structure Manner where
  /-- It only tells its version. -/
  version : Bool := false
  /-- It shows no banner. -/
  plain : Bool := false
  /-- It says as little as possible. -/
  quiet : Bool := false
  deriving DecidableEq

/-- A part of the program that has a command line of its own. -/
inductive Part where
  /-- The program. -/
  | program
  /-- The command that analyses something. -/
  | analyze
  /-- The command that shows the settings. -/
  | config
  deriving DecidableEq

/-- The words that name a part. -/
def Part.words : Part → String
  | program => "owdit"
  | analyze => "owdit analyze"
  | config => "owdit config"

/-- What a command line asks for. -/
inductive Invocation where
  /-- Something is done. -/
  | run (manner : Manner) (command : Option Command)
  /-- A part is explained. -/
  | help (part : Part)
  /-- A part cannot read its command line. -/
  | misuse (part : Part) (fault : WordFault)

/-! ## Vocabularies -/

/-- What an option of the program means. -/
inductive ProgramOption where
  /-- It is explained. -/
  | help
  /-- It only tells its version. -/
  | version
  /-- It shows no banner. -/
  | plain
  /-- It says as little as possible. -/
  | quiet
  deriving DecidableEq

/-- The options of the program. -/
def programOptions : List (OptionSpec ProgramOption) := [
  ⟨["-h", "--help"], false, .help⟩,
  ⟨["--version"], false, .version⟩,
  ⟨["--no-banner"], false, .plain⟩,
  ⟨["--quiet", "-q"], false, .quiet⟩]

/-- What an option of an analysis means. -/
inductive AnalyzeOption where
  /-- It is explained. -/
  | help
  /-- Deployed code follows. -/
  | bytecode
  /-- The path of a file with deployed code follows. -/
  | bytecodeFile
  /-- The address of a contract follows. -/
  | address
  /-- The chain follows. -/
  | chainId
  /-- The way results are written follows. -/
  | format
  /-- The path that the result is written to follows. -/
  | output
  /-- The cache is passed by. -/
  | pastCache
  deriving DecidableEq

/-- The options of an analysis. -/
def analyzeOptions : List (OptionSpec AnalyzeOption) := [
  ⟨["-h", "--help"], false, .help⟩,
  ⟨["--bytecode", "-b"], true, .bytecode⟩,
  ⟨["--bytecode-file"], true, .bytecodeFile⟩,
  ⟨["--address", "-a"], true, .address⟩,
  ⟨["--chain-id"], true, .chainId⟩,
  ⟨["--format", "-f"], true, .format⟩,
  ⟨["--output", "-o"], true, .output⟩,
  ⟨["--no-cache"], false, .pastCache⟩]

/-- The options of the command that shows the settings: it can only be explained. -/
def configOptions : List (OptionSpec Unit) := [⟨["-h", "--help"], false, ()⟩]

/-- The names of the commands. -/
def commandNames : List String := ["analyze", "config"]

/-! ## Taking the events -/

/-- How the reading of a command ends early. -/
inductive Early where
  /-- The command is explained. -/
  | help
  /-- The command line has a fault. -/
  | fault (f : WordFault)

/-- The ways in which results are written, by their names. -/
def formats : List (String × Format) := [("table", .table), ("json", .json)]

/-- A request with an option taken. -/
def AnalyzeRequest.take (request : AnalyzeRequest) (spec : OptionSpec AnalyzeOption)
    (value : String) : Except Early AnalyzeRequest :=
  match spec.meaning with
  | .help => .error .help
  | .bytecode => .ok { request with bytecode := some value }
  | .bytecodeFile => .ok { request with bytecodeFile := some value }
  | .address => .ok { request with address := some value }
  | .chainId =>
    match wholeNumber? value with
    | some n => .ok { request with chainId := n }
    | none => .error (.fault (.notWhole spec.title value))
  | .format =>
    match formats.lookup value with
    | some format => .ok { request with format := format }
    | none => .error (.fault (.notChoice spec.title value (formats.map (·.1))))
  | .output => .ok { request with output := some value }
  | .pastCache => .ok { request with pastCache := true }

/-- What an analysis is asked for, and the words without a place. -/
def readAnalyze (request : AnalyzeRequest) (strays : List String) :
    List (Event AnalyzeOption) → Except Early (AnalyzeRequest × List String)
  | [] => .ok (request, strays)
  | .option spec value :: rest => do readAnalyze (← request.take spec (value.getD "")) strays rest
  | .operand word :: rest =>
    readAnalyze { request with paths := request.paths ++ [word] } strays rest
  | .command words :: rest => readAnalyze request (strays ++ words) rest
  | .stray word :: rest => readAnalyze request (strays ++ [word]) rest
  | .fault f :: _ => .error (.fault f)

/-- The words without a place of the command that shows the settings. -/
def readConfig (strays : List String) : List (Event Unit) → Except Early (List String)
  | [] => .ok strays
  | .option _ _ :: _ => .error .help
  | .operand word :: rest | .stray word :: rest => readConfig (strays ++ [word]) rest
  | .command words :: rest => readConfig (strays ++ words) rest
  | .fault f :: _ => .error (.fault f)

/-- What ends the reading of a part early. -/
def Early.invocation (part : Part) : Early → Invocation
  | help => .help part
  | fault f => .misuse part f

/-- What is asked for, unless there are words without a place. -/
def finish (manner : Manner) (command : Option Command) (strays : List String) : Invocation :=
  if strays.isEmpty then .run manner command else .misuse .program (.unrecognized strays)

/-- Reads a command after the options of the program. -/
def readCommand (manner : Manner) (strays : List String) (name : String) (words : List String) :
    Invocation :=
  if name == "analyze" then
    match readAnalyze {} [] (events analyzeOptions .run words) with
    | .ok (request, more) => finish manner (some (.analyze request)) (strays ++ more)
    | .error early => early.invocation .analyze
  else if name == "config" then
    match readConfig [] (events configOptions .none words) with
    | .ok more => finish manner (some .config) (strays ++ more)
    | .error early => early.invocation .config
  else .misuse .program (.notChoice "command" name commandNames)

/-- Reads the options of the program up to its command. -/
def readProgram (manner : Manner) (strays : List String) :
    List (Event ProgramOption) → Invocation
  | [] => finish manner none strays
  | .option spec _ :: rest =>
    match spec.meaning with
    | .help => .help .program
    | .version => readProgram { manner with version := true } strays rest
    | .plain => readProgram { manner with plain := true } strays rest
    | .quiet => readProgram { manner with quiet := true } strays rest
  | .command (name :: words) :: _ => readCommand manner strays name words
  | .command [] :: rest => readProgram manner strays rest
  | .operand word :: rest | .stray word :: rest => readProgram manner (strays ++ [word]) rest
  | .fault f :: _ => .misuse .program f

/-- What a command line asks for. -/
def Invocation.read (words : List String) : Invocation :=
  readProgram {} [] (events programOptions .rest words)

end ContractLens.Cli
