import ContractLens.Schema.Checked
import ContractLens.Schema.NumberText
import ContractLens.NameSet
/-!
# Reading parts of records

Each reader accepts the values that stand for its kind: numbers may come as text, truth values as
numbers or words, a literal only as itself. A record reads its members by name; every member has two
names, the one it is written with and the plain one, and where an object has both the written name
wins.
-/

namespace ContractLens.Schema

/-- Reads a text. -/
def text : Reader String
  | .text s => .accepted s
  | input => .refuse .notText input

/-- Reads a whole number from a binary one. -/
def integerOfFloat (x : Binary64) (input : Json) : Checked Int :=
  match x.truncate? with
  | none => .refuse .notFinite input
  | some n =>
    if !x.isWhole then .refuse .fractional input
    else if n.natAbs < Nat.pow 2 63 then .accepted n
    else .refuse .integerSize input

/-- Reads a whole number. -/
def integer : Reader Int
  | .int n => .accepted n
  | .bool b => .accepted (if b then 1 else 0)
  | .float x => integerOfFloat x (.float x)
  | .text s =>
    match parseInteger s.toList with
    | .ok n => .accepted n
    | .error .malformed => .refuse .integerText (.text s)
    | .error .tooLong => .refuse .integerSize (.text s)
  | input => .refuse .notInteger input

/-- Reads a binary number. -/
def number : Reader Binary64
  | .float x => .accepted x
  | .int n => .accepted (.ofInt n)
  | .bool b => .accepted (.ofInt (if b then 1 else 0))
  | .text s =>
    match parseNumber? s.toList with
    | some x => .accepted x
    | none => .refuse .numberText (.text s)
  | input => .refuse .notNumber input

/-- The truth value that a word names, in any case. -/
def boolWord? (word : String) : Option Bool :=
  let small := String.ofList (word.toList.map Char.toLower)
  if ["true", "t", "yes", "y", "on", "1"].contains small then some true
  else if ["false", "f", "no", "n", "off", "0"].contains small then some false
  else none

/-- The truth value that a whole number stands for. -/
def boolOfInt (n : Int) (input : Json) : Checked Bool :=
  if n == 0 then .accepted false
  else if n == 1 then .accepted true
  else if n.natAbs < Nat.pow 2 63 then .refuse .boolText input
  else .refuse .notBool input

/-- Reads a truth value. -/
def bool : Reader Bool
  | .bool b => .accepted b
  | .int n => boolOfInt n (.int n)
  | .float x =>
    match x.truncate? with
    | some n => if x.isWhole then boolOfInt n (.float x) else .refuse .notBool (.float x)
    | none => .refuse .notBool (.float x)
  | .text s =>
    match boolWord? s with
    | some b => .accepted b
    | none => .refuse .boolText (.text s)
  | input => .refuse .notBool input

/-- Reads a list. -/
def list {α : Type} (read : Reader α) : Reader (List α)
  | .list items => .items read 0 items
  | input => .refuse .notList input

/-- Reads a set of names. -/
def nameSet : Reader NameSet
  | .list items => .map NameSet.ofList (.items text 0 items)
  | input => .refuse .notSet input

/-- Reads each member's value, under the member's name. -/
def readValues {α : Type} (read : Reader α) :
    Table Json → Checked (Table α)
  | [] => .accepted []
  | (name, value) :: rest =>
    .seq (.map List.cons (.map (name, ·) (.under (.name name) (read value))))
      fun _ => readValues read rest

/-- Reads an object as a map of its names. -/
def map {α : Type} (read : Reader α) : Reader (Table α)
  | .object members => readValues read members
  | input => .refuse .notObject input

/-- Reads an object as it is. -/
def object : Reader Json
  | .object members => .accepted (.object members)
  | input => .refuse .notObject input

/-- Reads a value that may be null. -/
def optional {α : Type} (read : Reader α) : Reader (Option α)
  | .null => .accepted none
  | value => .map some (read value)

/-- Reads a whole number not below a bound. -/
def integerFrom (bound : Int) : Reader Int := fun input =>
  .require (bound ≤ ·) (.below bound) input (integer input)

/-- Reads a whole number between two bounds. -/
def integerBetween (low high : Int) : Reader Int := fun input =>
  .require (· ≤ high) (.above high) input (integerFrom low input)

/-- Reads one given text. -/
def literalText (expected : String) : Reader Unit := fun input =>
  match input with
  | .text s => if s == expected then .accepted () else .refuse (.notLiteral (quote expected)) input
  | _ => .refuse (.notLiteral (quote expected)) input
where
  quote (s : String) : String := "'" ++ s ++ "'"

/-- Reads one given truth value, or the number equal to it. -/
def literalBool (expected : Bool) : Reader Unit := fun input =>
  let accepts := match input with
    | .bool b => b == expected
    | .int n => n == (if expected then 1 else 0)
    | .float x => x.eqv (.ofInt (if expected then 1 else 0))
    | _ => false
  if accepts then .accepted ()
  else .refuse (.notLiteral (if expected then "True" else "False")) input

/-- Names in quotes with commas between them and `or` before the last. -/
def alternatives : List String → String
  | [] => ""
  | [last] => "'" ++ last ++ "'"
  | [one, last] => "'" ++ one ++ "' or '" ++ last ++ "'"
  | name :: names => "'" ++ name ++ "', " ++ alternatives names

/-- Reads one of some named values; `expected` is the refusal when the name is another. -/
def oneOf {α : Type} (table : List (String × α)) (expected : String → Cause) : Reader α :=
  fun input =>
    let refusal := Checked.refuse (expected (alternatives (table.map (·.1)))) input
    match input with
    | .text s =>
      match table.find? (·.1 == s) with
      | some (_, value) => .accepted value
      | none => refusal
    | _ => refusal

/-- The two names of a record's member. -/
structure FieldName where
  /-- The name that is written and looked up first. -/
  wire : String
  /-- The name that is also understood. -/
  plain : String

/-- Which of its two names a member is written with. -/
inductive Naming where
  /-- The written name. -/
  | wire
  /-- The plain name. -/
  | plain

/-- The name of a member. -/
def Naming.of (naming : Naming) (field : FieldName) : String :=
  match naming with
  | wire => field.wire
  | plain => field.plain

/-- A member of an object with the name it was found by. -/
def find? (members : Table Json) (field : FieldName) : Option (String × Json) :=
  match Table.get? members field.wire with
  | some value => some (field.wire, value)
  | none => (Table.get? members field.plain).map fun value => (field.plain, value)

/-- Reads a member that has to be there. -/
def required {α : Type} (members : Table Json) (field : FieldName) (read : Reader α) :
    Checked α :=
  match find? members field with
  | some (name, value) => .under (.name name) (read value)
  | none => .under (.name field.wire) (.refuse .missing (.object members))

/-- Reads a member that stands for a given value when it is absent. -/
def defaulted {α : Type} (members : Table Json) (field : FieldName) (read : Reader α)
    (absent : α) : Checked α :=
  match find? members field with
  | some (name, value) => .under (.name name) (read value)
  | none => .accepted absent

/-- Reads the members of a record of the given kind. -/
def record {α : Type} (model : String) (read : Table Json → Checked α) : Reader α
  | .object members => read members
  | input => .refuse (.notRecord model) input

end ContractLens.Schema
