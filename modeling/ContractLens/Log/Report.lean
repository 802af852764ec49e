import ContractLens.Calendar.Clock
import ContractLens.Log.Scope
import ContractLens.Log.Template
/-!
# Reports

A report is what reaches a log: a message with its arguments, who speaks and from where, how urgent
it is, what the clock showed, the attributes that were attached to it, and the trouble it is about.
A report made inside a scope is stamped with the scope's name unless it has one of its own.
-/

namespace ContractLens.Log

/-- Something that went wrong, and what it went wrong because of. -/
inductive Trouble where
  /-- Its kind, its words, and its cause if one is known. -/
  | of (kind message : String) (cause : Option Trouble)
  deriving Inhabited

namespace Trouble

/-- The kinds of trouble that the engine itself reports. -/
def engineKinds : List String :=
  ["OwditError", "InvalidAddressError", "UnsupportedChainError", "SourceFetchError"]

/-- The kinds of trouble with the network. -/
def networkKinds : List String := [
  "HTTPError", "RequestError", "TransportError", "TimeoutException", "ConnectTimeout",
  "ReadTimeout", "WriteTimeout", "PoolTimeout", "NetworkError", "ConnectError", "ReadError",
  "WriteError", "CloseError", "ProtocolError", "LocalProtocolError", "RemoteProtocolError",
  "ProxyError", "UnsupportedProtocol", "DecodingError", "TooManyRedirects", "HTTPStatusError",
  "InvalidURL", "CookieConflict", "StreamError"]

/-- A kind with the place where it is defined. -/
def fullKind (kind : String) : String :=
  if engineKinds.contains kind then "owdit.core.errors." ++ kind
  else if networkKinds.contains kind then "httpx." ++ kind
  else kind

/-- The kind of a trouble. -/
def kind : Trouble → String
  | of kind _ _ => kind

/-- The words of a trouble. -/
def message : Trouble → String
  | of _ message _ => message

/-- The last line of a trouble's account: its full kind, and its words if it has any. -/
def finalLine (kind message : String) : String :=
  if message.isEmpty then fullKind kind else fullKind kind ++ ": " ++ message

/-- What stands between the account of a cause and that of its consequence. -/
def becauseOf : String :=
  "\n\nThe above exception was the direct cause of the following exception:\n\n"

/-- The account of a trouble, its causes first. -/
def account : Trouble → String
  | of kind message none => finalLine kind message
  | of kind message (some cause) => account cause ++ becauseOf ++ finalLine kind message

end Trouble

/-- A report. -/
structure Report where
  /-- The message, with places for the arguments. -/
  message : String
  /-- The arguments. -/
  arguments : List Json := []
  /-- Who speaks. -/
  logger : String
  /-- How urgent it is. -/
  level : Int
  /-- The path of the file that speaks. -/
  file : String := ""
  /-- The line in the file. -/
  line : Int := 0
  /-- The function in the file. -/
  function : String := ""
  /-- What the clock showed. -/
  created : Clock
  /-- The attributes that were attached. -/
  attributes : Table Json := []
  /-- The trouble it is about. -/
  trouble : Option Trouble := none

namespace Report

/-- The attribute that names the analysis. -/
def scopeAttribute : String := "analysis_id"

/-- Stamps a report with the name of the scope it was made in, unless it has one. -/
def stamp (current : Option String) (report : Report) : Report :=
  match current, (report.attributes.get? scopeAttribute).getD .null with
  | some name, .null =>
    { report with attributes := report.attributes.insert scopeAttribute (.text name) }
  | _, _ => report

/-- The name of a level. -/
def levelName (level : Int) : String :=
  if level == 50 then "CRITICAL"
  else if level == 40 then "ERROR"
  else if level == 30 then "WARNING"
  else if level == 20 then "INFO"
  else if level == 10 then "DEBUG"
  else if level == 0 then "NOTSET"
  else "Level " ++ intText level

/-- The name of a path's last part. -/
def baseName (path : List Char) : List Char := (path.reverse.takeWhile (· != '/')).reverse

/-- A name without its last extension; a dot at its start begins none. -/
def withoutExtension (name : List Char) : List Char :=
  match name.reverse.dropWhile (· != '.') with
  | [] => name
  | _ :: stem => if stem.all (· == '.') then name else stem.reverse

/-- The module that speaks. -/
def moduleName (report : Report) : String :=
  String.ofList (withoutExtension (baseName report.file.toList))

/-- The place that speaks. -/
def location (report : Report) : String :=
  report.moduleName ++ ":" ++ report.function ++ ":" ++ intText report.line

/-- The message with its arguments. -/
def text (report : Report) : Except TemplateFault String := fill report.message report.arguments

end Report

end ContractLens.Log
