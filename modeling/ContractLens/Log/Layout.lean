import ContractLens.Json.Writer
import ContractLens.Log.Report
/-!
# Layouts of reports

A report is laid out as one JSON object on a line, for machines, or as a coloured line for people.
Both start from the moment that the clock showed, and only then fill the message.
-/

namespace ContractLens.Log

/-- How reports are laid out. -/
inductive Layout where
  /-- As JSON objects. -/
  | json
  /-- As coloured lines. -/
  | console
  deriving DecidableEq

/-- Why a report cannot be laid out. -/
inductive LayoutFault where
  /-- The clock shows no moment. -/
  | clock (fault : ClockFault)
  /-- The message cannot be filled. -/
  | template (fault : TemplateFault)
  /-- The name of the analysis is neither text nor a list. -/
  | scopeName
  deriving DecidableEq

namespace Layout

/-- The attributes that are shown, in order. -/
def shownAttributes : List String :=
  [Report.scopeAttribute, "address", "chain_id", "duration_ms", "import_path", "cache_key"]

/-- The attributes of a report that are shown. -/
def attributeMembers (report : Report) : Table Json :=
  shownAttributes.filterMap fun name =>
    (report.attributes.get? name).map fun value => (name, value)

/-- A trouble as an object. -/
def troubleJson (trouble : Trouble) : Json := .object [
  ("type", .text trouble.kind),
  ("message", .text trouble.message),
  ("traceback", .text trouble.account)]

/-- The moment of a report. -/
def moment (report : Report) : Except LayoutFault Timestamp :=
  report.created.moment.mapError .clock

/-- The message of a report. -/
def message (report : Report) : Except LayoutFault String := report.text.mapError .template

/-- A report as an object. -/
def toJson (report : Report) : Except LayoutFault Json := do
  let moment ← moment report
  let message ← message report
  return .object ([
    ("timestamp", .text moment.universalText),
    ("level", .text (Report.levelName report.level)),
    ("logger", .text report.logger),
    ("message", .text message),
    ("location", .text report.location)] ++ attributeMembers report ++
    report.trouble.toList.map fun trouble => ("exception", troubleJson trouble))

/-- A report as a line of JSON. -/
def jsonLine (report : Report) : Except LayoutFault String := do
  return (← toJson report).write .spaced

/-- The start of a control sequence for a terminal. -/
def escape : String := "\x1b["

/-- The colour of a level. -/
def color (level : Int) : String :=
  if level == 10 then escape ++ "36m"
  else if level == 20 then escape ++ "32m"
  else if level == 30 then escape ++ "33m"
  else if level == 40 then escape ++ "31m"
  else if level == 50 then escape ++ "35m"
  else ""

/-- Faint writing. -/
def faint : String := escape ++ "2m"

/-- Plain writing. -/
def plain : String := escape ++ "0m"

/-- The first eight characters or items of an analysis' name; an empty one is not shown. -/
def shortName (name : Json) : Except LayoutFault (Option String) :=
  if name.isVoid then .ok none
  else match name with
    | .text s => .ok (some (String.ofList (s.toList.take 8)))
    | .list items => .ok (some (Json.list (items.take 8)).inspect)
    | _ => .error .scopeName

/-- The address and chain that a report is about. -/
def target (report : Report) : Option String :=
  ((report.attributes.get? "address").bind Json.filled?).map fun address =>
    let chain := ((report.attributes.get? "chain_id").map Json.display).getD "?"
    faint ++ "(" ++ address.display ++ "@" ++ chain ++ ")" ++ plain

/-- A report as a coloured line; the account of its trouble follows on lines of its own. -/
def consoleLine (report : Report) : Except LayoutFault String := do
  let moment ← moment report
  let initial := String.ofList ((Report.levelName report.level).toList.take 1)
  let head := color report.level ++ moment.timeText ++ " " ++ initial ++ plain
  let name ← shortName ((report.attributes.get? Report.scopeAttribute).getD .null)
  let message ← message report
  let parts := [head] ++ (name.map fun name => "[" ++ name ++ "]").toList ++
    [report.logger ++ ": " ++ message] ++ (target report).toList
  return " ".intercalate parts ++ match report.trouble with
    | some trouble => "\n" ++ trouble.account
    | none => ""

/-- A report in a layout. -/
def line : Layout → Report → Except LayoutFault String
  | json => jsonLine
  | console => consoleLine

end Layout

end ContractLens.Log
