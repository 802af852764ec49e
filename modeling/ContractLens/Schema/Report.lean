import ContractLens.Json.Shown
import ContractLens.Schema.Checked
/-!
# Reports of refused records

A refusal is reported problem by problem: where the value stands, what is wrong with it, its code,
the value itself and its kind. A long value is cut in the middle, at the bounds of characters.
-/

namespace ContractLens.Schema

/-- The code of a cause. -/
def Cause.code : Cause → String
  | missing => "missing"
  | notRecord _ => "model_type"
  | notTagged => "model_attributes_type"
  | tagMissing => "union_tag_not_found"
  | tagUnknown => "union_tag_invalid"
  | notText => "string_type"
  | notInteger => "int_type"
  | integerText => "int_parsing"
  | integerSize => "int_parsing_size"
  | fractional => "int_from_float"
  | notFinite => "finite_number"
  | notNumber => "float_type"
  | numberText => "float_parsing"
  | notBool => "bool_type"
  | boolText => "bool_parsing"
  | notList => "list_type"
  | notSet => "set_type"
  | notObject => "dict_type"
  | notLiteral _ => "literal_error"
  | notMember _ => "enum"
  | below _ => "greater_than_equal"
  | above _ => "less_than_equal"
  | notTime => "datetime_type"
  | timeText _ => "datetime_from_date_parsing"
  | unknownMember => "extra_forbidden"

/-- What a cause says. -/
def Cause.message : Cause → String
  | missing => "Field required"
  | notRecord model => s!"Input should be a valid dictionary or instance of {model}"
  | notTagged => "Input should be a valid dictionary or object to extract fields from"
  | tagMissing => "Unable to extract tag using discriminator 'kind'"
  | tagUnknown =>
    "Input tag found using 'kind' does not match any of the expected tags: 'verified', 'bytecode'"
  | notText => "Input should be a valid string"
  | notInteger => "Input should be a valid integer"
  | integerText => "Input should be a valid integer, unable to parse string as an integer"
  | integerSize => "Unable to parse input string as an integer, exceeded maximum size"
  | fractional => "Input should be a valid integer, got a number with a fractional part"
  | notFinite => "Input should be a finite number"
  | notNumber => "Input should be a valid number"
  | numberText => "Input should be a valid number, unable to parse string as a number"
  | notBool => "Input should be a valid boolean"
  | boolText => "Input should be a valid boolean, unable to interpret input"
  | notList => "Input should be a valid list"
  | notSet => "Input should be a valid set"
  | notObject => "Input should be a valid dictionary"
  | notLiteral expected => s!"Input should be {expected}"
  | notMember expected => s!"Input should be {expected}"
  | below bound => s!"Input should be greater than or equal to {bound}"
  | above bound => s!"Input should be less than or equal to {bound}"
  | notTime => "Input should be a valid datetime"
  | timeText reason => s!"Input should be a valid datetime or date, {reason}"
  | unknownMember => "Extra inputs are not permitted"

/-- The kind of a value. -/
def kindName : Json → String
  | .null => "NoneType"
  | .bool _ => "bool"
  | .int _ => "int"
  | .float _ => "float"
  | .text _ => "str"
  | .list _ => "list"
  | .object _ => "dict"

/-- The longest beginning of a text within so many bytes. -/
def takeBytes : Nat → List Char → List Char
  | _, [] => []
  | budget, c :: rest =>
    if c.utf8Size ≤ budget then c :: takeBytes (budget - c.utf8Size) rest else []

/-- A value's text, cut in the middle when it is longer than 50 bytes. -/
def excerpt (shown : List Char) : List Char :=
  if (String.ofList shown).utf8ByteSize ≤ 50 then shown
  else takeBytes 25 shown ++ "...".toList ++ (takeBytes 24 shown.reverse).reverse

/-- One step of the way to a value. -/
def Step.text : Step → String
  | name s => if s.toList.contains '.' then "\x60" ++ s ++ "\x60" else s
  | index n => natText n

/-- The report of one problem. -/
def Problem.report (problem : Problem) : String :=
  let place := String.intercalate "." (problem.location.map Step.text)
  let code := problem.cause.code
  let shown := String.ofList (excerpt problem.input.shown)
  let kind := kindName problem.input
  (if problem.location.isEmpty then "" else place ++ "\n") ++
    s!"  {problem.cause.message} [type={code}, input_value={shown}, input_type={kind}]\n" ++
    s!"    For further information visit https://errors.pydantic.dev/2.14/v/{code}"

/-- The report of a refused record. -/
def report (model : String) (problems : List Problem) : String :=
  let count := problems.length
  let plural := if count == 1 then "" else "s"
  String.intercalate "\n"
    (s!"{count} validation error{plural} for {model}" :: problems.map Problem.report)

end ContractLens.Schema
