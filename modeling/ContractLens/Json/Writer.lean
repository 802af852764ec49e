import ContractLens.Json.Basic
import ContractLens.Platform
import ContractLens.Number.Decimal
/-!
# JSON text

A value is written in a layout: with characters outside ASCII as they are or escaped as UTF-16
units, on one line with given separators, or one item a line with an indent. Members are written in
the order of the object. A text in which half a pair of units stands has no UTF-8, so a value with
such a text cannot be sent as it is written.
-/

namespace ContractLens.Json

/-- How JSON text is laid out. -/
structure Layout where
  /-- Whether characters outside ASCII, and DEL, are escaped. -/
  ascii : Bool
  /-- What stands between two items on a line. -/
  separator : List Char
  /-- What stands between a name and its value. -/
  colon : List Char
  /-- The spaces of one level of indent, if items stand on lines of their own. -/
  indent : Option Nat

/-- No blanks, and every character but the controls as it is. -/
def Layout.compact : Layout := ⟨false, [','], [':'], none⟩

/-- One line with blanks after separators, in ASCII. -/
def Layout.spaced : Layout := ⟨true, [',', ' '], [':', ' '], none⟩

/-- One item a line, indented by two spaces a level, in ASCII. -/
def Layout.indented : Layout := ⟨true, [','], [':', ' '], some 2⟩

/-- A UTF-16 unit as an escape. -/
def unitEscape (unit : Nat) : List Char := '\\' :: 'u' :: hexDigits 4 unit

/-- A character as one or two UTF-16 escapes. -/
def unicodeEscape (c : Char) : List Char :=
  if c.toNat < 0x10000 then unitEscape c.toNat
  else
    let offset := c.toNat - 0x10000
    unitEscape (0xD800 + offset / 0x400) ++ unitEscape (0xDC00 + offset % 0x400)

/-- One character inside written text. -/
def writeChar (ascii : Bool) (c : Char) : List Char :=
  if c == '\x22' || c == '\\' then ['\\', c]
  else if c == '\n' then ['\\', 'n']
  else if c == '\r' then ['\\', 'r']
  else if c == '\t' then ['\\', 't']
  else if c == '\x08' then ['\\', 'b']
  else if c == '\x0c' then ['\\', 'f']
  else if c.toNat < 0x20 || (ascii && 0x7F ≤ c.toNat) then unicodeEscape c
  else [c]

/-- A text between quotation marks. -/
def writeText (ascii : Bool) (cs : List Char) : List Char :=
  '\x22' :: (cs.flatMap (writeChar ascii) ++ ['\x22'])

/-- A number's text; special values are written as words. -/
def writeFloat : Binary64 → List Char
  | .infinite false => "Infinity".toList
  | .infinite true => "-Infinity".toList
  | .nan => "NaN".toList
  | x => x.toText

/-- The end of a line and the indent of the next, if the layout has lines. -/
def lineBreak (layout : Layout) (depth : Nat) : List Char :=
  match layout.indent with
  | none => []
  | some width => '\n' :: List.replicate (width * depth) ' '

/-- Items between brackets, each at one level below the brackets. -/
def bracketed (layout : Layout) (depth : Nat) (opening closing : Char)
    (items : List (List Char)) : List Char :=
  match items with
  | [] => [opening, closing]
  | first :: rest =>
    opening :: (lineBreak layout (depth + 1) ++ first ++
      rest.flatMap (fun item => layout.separator ++ lineBreak layout (depth + 1) ++ item) ++
      lineBreak layout depth ++ [closing])

mutual

/-- The text of a value at a level of nesting. -/
def writeAt (layout : Layout) (depth : Nat) : Json → List Char
  | null => "null".toList
  | bool true => "true".toList
  | bool false => "false".toList
  | int n => intDigits n
  | float x => writeFloat x
  | text s => writeText layout.ascii s.toList
  | list items => bracketed layout depth '[' ']' (writeItems layout (depth + 1) items)
  | object members =>
    bracketed layout depth '\x7b' '\x7d' (writeMembers layout (depth + 1) members)

/-- The texts of a list's items. -/
def writeItems (layout : Layout) (depth : Nat) : List Json → List (List Char)
  | [] => []
  | item :: items => writeAt layout depth item :: writeItems layout depth items

/-- The texts of an object's members. -/
def writeMembers (layout : Layout) (depth : Nat) : List (String × Json) → List (List Char)
  | [] => []
  | (name, value) :: members =>
    (writeText layout.ascii name.toList ++ layout.colon ++ writeAt layout depth value) ::
      writeMembers layout depth members

end

/-- The text of a value in a layout. -/
def write (layout : Layout) (value : Json) : String := String.ofList (writeAt layout 0 value)

/-! ## Halves of pairs -/

mutual

/-- The texts of a value, names among them, in the order in which they are written. -/
def textsWithin : Json → List (List Char)
  | text s => [s.toList]
  | list items => itemTexts items
  | object members => memberTexts members
  | _ => []

/-- The texts of a list's items. -/
def itemTexts : List Json → List (List Char)
  | [] => []
  | item :: items => textsWithin item ++ itemTexts items

/-- The texts of an object's members. -/
def memberTexts : List (String × Json) → List (List Char)
  | [] => []
  | (name, value) :: members => name.toList :: textsWithin value ++ memberTexts members

end

variable [Platform]

/-- What is said about the first halves in a text, if there are any. -/
def halvesFault? (cs : List Char) : Option String :=
  match cs.dropWhile fun c => !Platform.isHalf c with
  | [] => none
  | c :: rest =>
    let position := cs.length - (rest.length + 1)
    let more := (rest.takeWhile Platform.isHalf).length
    let halves :=
      if more == 0 then
        s!"character '\\u" ++ String.ofList (hexDigits 4 (Platform.halfUnit c)) ++
          s!"' in position {position}"
      else s!"characters in position {position}-{position + more}"
    some ("'utf-8' codec can't encode " ++ halves ++ ": surrogates not allowed")

/-- What is said about the first text of a value in which halves stand, if there is one. -/
def unwritable? (value : Json) : Option String := value.textsWithin.findSome? halvesFault?

end ContractLens.Json
