import ContractLens.Log.Layout
import ContractLens.Settings
/-!
# Which reports are written

The stage decides how reports are laid out, and a level's name which of them are written: those that
are at least as urgent. A few chatty loggers, and all below them, have to be more urgent still.
-/

namespace ContractLens.Log

/-- Why a name stands for no level. -/
inductive SetupFault where
  /-- It stands for a text. -/
  | unknownLevel (text : String)
  /-- It stands for something else. -/
  | noLevel
  deriving DecidableEq

/-- A letter in capitals, as far as names of levels need it: one letter may become two or three. -/
def capital (c : Char) : List Char :=
  match c with
  | 'ß' => ['S', 'S']
  | 'ı' => ['I']
  | 'ſ' => ['S']
  | 'ﬀ' => ['F', 'F']
  | 'ﬁ' => ['F', 'I']
  | 'ﬂ' => ['F', 'L']
  | 'ﬃ' => ['F', 'F', 'I']
  | 'ﬄ' => ['F', 'F', 'L']
  | 'ﬅ' => ['S', 'T']
  | 'ﬆ' => ['S', 'T']
  | c => [c.toUpper]

/-- The least level that a name stands for, in any case; a name that stands for none means the level
of progress reports. -/
def levelNamed (name : String) : Except SetupFault Int :=
  match String.ofList (name.toList.flatMap capital) with
  | "CRITICAL" | "FATAL" => .ok 50
  | "ERROR" => .ok 40
  | "WARNING" | "WARN" => .ok 30
  | "DEBUG" => .ok 10
  | "NOTSET" => .ok 0
  | "BASIC_FORMAT" => .error (.unknownLevel "%(levelname)s:%(name)s:%(message)s")
  | "_STYLES" => .error .noLevel
  | _ => .ok 20

/-- What is said about a text that stands for no level. -/
def unknownLevelMessage (text : String) : String := "Unknown level: " ++ Text.quotedString text

/-- Which reports are written, and how. -/
structure Setup where
  /-- The least level that is written. -/
  level : Int
  /-- How a report is laid out. -/
  layout : Layout
  deriving DecidableEq

namespace Setup

/-- The setup for a stage and the name of a level. -/
def of (stage levelName : String) : Except SetupFault Setup := do
  let layout := if stage == "staging" || stage == "production" then Layout.json else .console
  return ⟨← levelNamed levelName, layout⟩

/-- The loggers that have to be more urgent. -/
def chatty : List String := ["httpcore", "httpx", "asyncio", "redis"]

/-- The least level of a chatty logger. -/
def chattyLevel : Int := 30

/-- Whether a logger is chatty: it is one of those named, or stands below one. -/
def isChatty (logger : String) : Bool := chatty.any fun name =>
  logger == name || (name ++ ".").toList.isPrefixOf logger.toList

/-- Whether a report of a level is written; one without urgency never is. -/
def admits (setup : Setup) (logger : String) (level : Int) : Bool :=
  0 < level && setup.level ≤ level && (!isChatty logger || chattyLevel ≤ level)

end Setup

end ContractLens.Log
