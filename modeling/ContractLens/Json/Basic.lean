import ContractLens.Number.Binary64
import ContractLens.Table
/-!
# JSON values

The values that network answers, stored records and settings are made of. Whole numbers are exact
and apart from binary ones; an object is a table of members.
-/

namespace ContractLens

/-- A JSON value. -/
inductive Json where
  /-- The absent value. -/
  | null
  /-- A truth value. -/
  | bool (value : Bool)
  /-- A whole number of any size. -/
  | int (value : Int)
  /-- A binary floating-point number, special values included. -/
  | float (value : Binary64)
  /-- A text. -/
  | text (value : String)
  /-- A sequence of values. -/
  | list (items : List Json)
  /-- Named members in the order of their names' first appearance. -/
  | object (members : List (String × Json))
  deriving Inhabited

namespace Json

/-- The value of an object's member; other values have none. -/
def member? (value : Json) (name : String) : Option Json :=
  match value with
  | object members => Table.get? members name
  | _ => none

/-- The value of an object's member, absent ones being null. -/
def memberOrNull (value : Json) (name : String) : Json := (value.member? name).getD null

/-- Whether a value counts as nothing: null, false, a zero, or an empty text, list or object. -/
def isVoid : Json → Bool
  | null => true
  | bool b => !b
  | int n => n == 0
  | float x => x.isZero
  | text s => s.isEmpty
  | list items => items.isEmpty
  | object members => members.isEmpty

/-- The value unless it counts as nothing. -/
def filled? (value : Json) : Option Json := if value.isVoid then none else some value

/-- A list of texts. -/
def texts (items : List String) : Json := list (items.map text)

/-- A text, or null when there is none. -/
def optionalText : Option String → Json
  | some s => text s
  | none => null

end Json

end ContractLens
