import ContractLens.Json.Basic
import ContractLens.Text.Quoted
/-!
# Values shown in messages

A value inside a message: words for the constants, the shortest text of numbers, quoted texts, lists
in square brackets and objects in braces. `display` leaves a text outside any list unquoted.
-/

namespace ContractLens.Json

/-- Texts put side by side with a comma and a space between them. -/
def commaSeparated : List (List Char) → List Char
  | [] => []
  | [last] => last
  | part :: parts => part ++ ',' :: ' ' :: commaSeparated parts

mutual

/-- A value as it is shown inside a message. -/
def shown : Json → List Char
  | null => "None".toList
  | bool true => "True".toList
  | bool false => "False".toList
  | int n => intDigits n
  | float x => x.toText
  | text s => Text.quoted s.toList
  | list items => '[' :: (commaSeparated (shownItems items) ++ [']'])
  | object members => '\x7b' :: (commaSeparated (shownMembers members) ++ ['\x7d'])

/-- The items of a list as they are shown. -/
def shownItems : List Json → List (List Char)
  | [] => []
  | item :: items => shown item :: shownItems items

/-- The members of an object as they are shown. -/
def shownMembers : List (String × Json) → List (List Char)
  | [] => []
  | (name, value) :: members =>
    (Text.quoted name.toList ++ ':' :: ' ' :: shown value) :: shownMembers members

end

/-- A value in a message, with its quotes if it is a text. -/
def inspect (value : Json) : String := String.ofList value.shown

/-- A value in a message, a text standing for itself. -/
def display : Json → String
  | text s => s
  | value => value.inspect

end ContractLens.Json
