import ContractLens.Json.Shown
/-!
# Message templates

A template is text with places in it. A place starts with a percent sign; it may name the argument
it takes, ask for a sign, a width and a precision, and ends with the letter of a conversion. A
template is read into pieces first (`pieces`), and the pieces are then filled from left to right out
of a supply of arguments (`fill`). Arguments come in order or, when there is a single filled object,
by name; either way none may be left over.
-/

namespace ContractLens.Log

/-- Why a template cannot be filled. -/
inductive TemplateFault where
  /-- There are too few or too many arguments, or one has the wrong kind. -/
  | arguments
  /-- No argument has the name. -/
  | name
  /-- The template is no template, or an argument has no such form. -/
  | form (message : String)
  /-- A number is too great. -/
  | range (message : String)
  deriving DecidableEq

/-- A width or precision of a place. -/
inductive Measure where
  /-- It is written in the template. -/
  | written (count : Nat)
  /-- It is taken from the arguments. -/
  | asked
  /-- It is written, but too great. -/
  | excessive
  deriving DecidableEq

/-- The flags of a place. -/
structure Flags where
  /-- The text stands at the left of its width. -/
  left : Bool
  /-- A number that is not negative gets a plus sign. -/
  plus : Bool
  /-- A number that is not negative gets a blank for its sign. -/
  blank : Bool
  /-- The other form of a number is asked for. -/
  other : Bool
  /-- A number is filled up with zeros. -/
  zero : Bool
  deriving DecidableEq

/-- The end of a place. -/
inductive Ending where
  /-- The letter of a conversion, and its index in the template. -/
  | letter (c : Char) (index : Nat)
  /-- The template ends inside the place. -/
  | missing
  deriving DecidableEq

/-- A place in a template. -/
structure Place where
  /-- The name of its argument, if it has one. -/
  key : Option (List Char)
  /-- Its flags. -/
  flags : Flags
  /-- The least width of its text. -/
  width : Option Measure
  /-- The precision of its text. -/
  precision : Option Measure
  /-- How it ends. -/
  ending : Ending
  deriving DecidableEq

/-- A piece of a template. -/
inductive Piece where
  /-- A character that stands for itself. -/
  | literal (c : Char)
  /-- A place to be filled. -/
  | place (p : Place)
  /-- A place whose name does not end. -/
  | openName
  deriving DecidableEq

/-! ## Reading a template -/

/-- A name up to the parenthesis that closes it, `depth` parentheses being open inside it. -/
def readName : Nat → List Char → Option (List Char × List Char)
  | _, [] => none
  | depth, c :: rest =>
    if c == ')' then
      match depth with
      | 0 => some ([], rest)
      | depth + 1 => (readName depth rest).map fun (name, after) => (c :: name, after)
    else
      (readName (if c == '(' then depth + 1 else depth) rest).map fun (name, after) =>
        (c :: name, after)

/-- Whether a character is a flag. -/
def isFlag (c : Char) : Bool := c == '-' || c == '+' || c == ' ' || c == '#' || c == '0'

/-- The flags written by some characters. -/
def Flags.ofChars (cs : List Char) : Flags :=
  ⟨cs.contains '-', cs.contains '+', cs.contains ' ', cs.contains '#', cs.contains '0'⟩

/-- A measure at the start of a text, no greater than `limit`; a written one may be empty. -/
def readMeasure (limit : Nat) (cs : List Char) : Measure × List Char :=
  match cs with
  | '*' :: rest => (.asked, rest)
  | _ =>
    let count := (cs.takeWhile Char.isDigit).foldl (fun n c => n * 10 + (c.toNat - '0'.toNat)) 0
    (if limit < count then .excessive else .written count, cs.dropWhile Char.isDigit)

/-- The greatest width. -/
def widthLimit : Nat := Nat.pow 2 63 - 1

/-- The greatest precision. -/
def precisionLimit : Nat := Nat.pow 2 31 - 1

/-- Whether a place has a width at the start of a text. -/
def startsMeasure (cs : List Char) : Bool := cs.head?.any fun c => c == '*' || c.isDigit

/-- A width at the start of a text, if there is one. -/
def readWidth (cs : List Char) : Option Measure × List Char :=
  if startsMeasure cs then
    let (width, rest) := readMeasure widthLimit cs
    (some width, rest)
  else (none, cs)

/-- A precision at the start of a text, if there is one. -/
def readPrecision : List Char → Option Measure × List Char
  | '.' :: cs =>
    let (precision, rest) := readMeasure precisionLimit cs
    (some precision, rest)
  | cs => (none, cs)

/-- A text without a letter for the size of a number, which says nothing. -/
def dropSize : List Char → List Char
  | c :: rest => if c == 'h' || c == 'l' || c == 'L' then rest else c :: rest
  | [] => []

/-- A place after its percent sign and name, in a template of `length` characters. -/
def readPlace (length : Nat) (key : Option (List Char)) (cs : List Char) : Place × List Char :=
  let flags := Flags.ofChars (cs.takeWhile isFlag)
  let (width, rest) := readWidth (cs.dropWhile isFlag)
  let (precision, rest) := readPrecision rest
  match dropSize rest with
  | [] => (⟨key, flags, width, precision, .missing⟩, [])
  | c :: after => (⟨key, flags, width, precision, .letter c (length - after.length - 1)⟩, after)

/-- The pieces of a text, of which there are at most `fuel`. -/
def piecesWithin (length : Nat) : Nat → List Char → List Piece
  | 0, _ => []
  | _, [] => []
  | fuel + 1, c :: rest =>
    if c != '%' then .literal c :: piecesWithin length fuel rest
    else match rest with
      | '%' :: rest => .literal '%' :: piecesWithin length fuel rest
      | '(' :: rest =>
        match readName 0 rest with
        | none => [.openName]
        | some (name, rest) =>
          let (place, rest) := readPlace length (some name) rest
          .place place :: piecesWithin length fuel rest
      | _ =>
        let (place, rest) := readPlace length none rest
        .place place :: piecesWithin length fuel rest

/-- The pieces of a template; every one takes up at least a character. -/
def pieces (template : List Char) : List Piece :=
  piecesWithin template.length template.length template

/-! ## The text of an argument -/

/-- The text of an argument before it is brought to its width: a sign, a mark of its base, and the
rest; only a number can be filled up with zeros. -/
structure Rendered where
  /-- The sign, or nothing. -/
  sign : List Char
  /-- The mark of the base, or nothing. -/
  mark : List Char
  /-- The rest. -/
  body : List Char
  /-- Whether it is a number. -/
  number : Bool

/-- A text that is no number. -/
def Rendered.plain (body : List Char) : Rendered := ⟨[], [], body, false⟩

/-- Brings an argument's text to a width. -/
def Rendered.toWidth (flags : Flags) (left : Bool) (width : Nat) (r : Rendered) : List Char :=
  let whole := r.sign ++ r.mark ++ r.body
  let missing := width - whole.length
  if left then whole ++ List.replicate missing ' '
  else if r.number && flags.zero then
    r.sign ++ r.mark ++ List.replicate missing '0' ++ r.body
  else List.replicate missing ' ' ++ whole

/-- The sign of a number. -/
def Flags.sign (flags : Flags) (negative : Bool) : List Char :=
  if negative then ['-'] else if flags.plus then ['+'] else if flags.blank then [' '] else []

/-- A value as a whole number, the part after the point cut off. -/
def cutWhole : Json → Except TemplateFault Int
  | .int n => .ok n
  | .bool b => .ok (if b then 1 else 0)
  | .float x =>
    match x with
    | .infinite _ => .error (.range "cannot convert float infinity to integer")
    | .nan => .error (.form "cannot convert float NaN to integer")
    | x => .ok (x.truncate?.getD 0)
  | _ => .error .arguments

/-- A value as a whole number that it is. -/
def exactWhole : Json → Except TemplateFault Int
  | .int n => .ok n
  | .bool b => .ok (if b then 1 else 0)
  | _ => .error .arguments

/-- A value as a binary number. -/
def binary : Json → Except TemplateFault Binary64
  | .float x => .ok x
  | value => do
    match Binary64.ofInt (← exactWhole value) with
    | .infinite _ => .error (.range "int too large to convert to float")
    | x => .ok x

/-- The letters of a text in capitals; it holds ASCII only. -/
def capitals (cs : List Char) : List Char := cs.map Char.toUpper

/-- A whole number in a base, with at least `precision` digits. -/
def renderWhole (flags : Flags) (base : Nat) (mark : List Char) (precision : Option Nat) (n : Int) :
    Rendered :=
  ⟨flags.sign (n < 0), if flags.other then mark else [],
    padZeros (precision.getD 0) (Nat.toDigits base n.natAbs), true⟩

/-- A point after digits that have none, if one is asked for. -/
def withPoint (asked : Bool) (digits : List Char) : List Char :=
  if asked && !digits.contains '.' then digits ++ ['.'] else digits

/-- Digits with the point after the first one. -/
def pointAfterFirst (asked : Bool) (digits : List Char) : List Char :=
  let rest := digits.drop 1
  digits.take 1 ++ (if rest.isEmpty && !asked then [] else '.' :: rest)

/-- A magnitude with an exponent and `places` digits after the point. -/
def scientific (asked : Bool) (num den places : Nat) : List Char :=
  let (digits, power) := Binary64.significant num den (places + 1)
  pointAfterFirst asked digits ++ 'e' :: Binary64.exponentText power

/-- Significant digits, the first of which stands for `10 ^ power`, with a point. -/
def positional (digits : List Char) (power : Int) : List Char :=
  if power < 0 then '0' :: '.' :: (List.replicate (power.natAbs - 1) '0' ++ digits)
  else
    let whole := power.toNat + 1
    let digits := digits ++ List.replicate (whole - digits.length) '0'
    if digits.length == whole then digits else digits.take whole ++ '.' :: digits.drop whole

/-- A magnitude with at most `count` significant digits, with an exponent when it is small or has
more digits before the point. Zeros at the end stay only in the other form. -/
def general (asked : Bool) (num den count : Nat) : List Char :=
  let (digits, power) := Binary64.significant num den count
  let digits := if asked then digits else match Binary64.dropLastZeros digits with
    | [] => ['0']
    | digits => digits
  if power < -4 || (count : Int) ≤ power then
    pointAfterFirst asked digits ++ 'e' :: Binary64.exponentText power
  else withPoint asked (positional digits power)

/-- A binary number: `magnitude` writes a finite one without its sign. -/
def renderBinary (flags : Flags) (magnitude : Nat → Nat → List Char) : Binary64 → Rendered
  | .finite negative mantissa exponent =>
    let (num, den) := Binary64.magnitude mantissa exponent
    ⟨flags.sign negative, [], magnitude num den, true⟩
  | .infinite negative => ⟨flags.sign negative, [], "inf".toList, true⟩
  | .nan => ⟨flags.sign false, [], "nan".toList, true⟩

/-- A text in ASCII, other characters shown by their codes. -/
def asciiOnly (cs : List Char) : List Char := cs.flatMap fun c =>
  if c.toNat < 0x80 then [c]
  else if c.toNat < 0x100 then '\\' :: 'x' :: hexDigits 2 c.toNat
  else if c.toNat < 0x10000 then '\\' :: 'u' :: hexDigits 4 c.toNat
  else '\\' :: 'U' :: hexDigits 8 c.toNat

/-- A value as a single character. -/
def renderChar : Json → Except TemplateFault Rendered
  | .text s =>
    match s.toList with
    | [c] => .ok (.plain [c])
    | _ => .error .arguments
  | value => do
    let n ← exactWhole value
    if n < 0 || 0x10FFFF < n then .error (.range "%c arg not in range(0x110000)")
    else .ok (.plain [Char.ofNat n.toNat])

/-- What is said about a letter that is no conversion. -/
def unknownLetter (c : Char) (index : Nat) : String :=
  let shown := if 31 ≤ c.toNat && c.toNat ≤ 126 then c else '?'
  let code := String.ofList (hexDigits 1 c.toNat)
  s!"unsupported format character '{shown}' (0x{code}) at index {index}"

/-- The text of a value under the letter of a conversion. -/
def render (flags : Flags) (precision : Option Nat) (c : Char) (index : Nat) (value : Json) :
    Except TemplateFault Rendered :=
  let cut (cs : List Char) : Rendered := .plain (match precision with
    | some count => cs.take count
    | none => cs)
  let upper (r : Rendered) : Rendered := { r with mark := capitals r.mark, body := capitals r.body }
  let places := precision.getD 6
  let fixed (num den : Nat) := withPoint flags.other (Binary64.fixedDigits num den places)
  let decimal (magnitude : Nat → Nat → List Char) := do
    return renderBinary flags magnitude (← binary value)
  match c with
  | 's' => .ok (cut value.display.toList)
  | 'r' => .ok (cut value.shown)
  | 'a' => .ok (cut (asciiOnly value.shown))
  | 'd' | 'i' | 'u' => do return renderWhole flags 10 [] precision (← cutWhole value)
  | 'o' => do return renderWhole flags 8 ['0', 'o'] precision (← exactWhole value)
  | 'x' => do return renderWhole flags 16 ['0', 'x'] precision (← exactWhole value)
  | 'X' => do return upper (renderWhole flags 16 ['0', 'x'] precision (← exactWhole value))
  | 'f' => decimal fixed
  | 'F' => do return upper (← decimal fixed)
  | 'e' => decimal fun num den => scientific flags.other num den places
  | 'E' => do return upper (← decimal fun num den => scientific flags.other num den places)
  | 'g' => decimal fun num den => general flags.other num den (max places 1)
  | 'G' => do return upper (← decimal fun num den => general flags.other num den (max places 1))
  | 'c' => renderChar value
  | _ => .error (.form (unknownLetter c index))

/-! ## Filling the places -/

/-- What places are filled from. -/
structure Supply where
  /-- The arguments by name, if they have names. -/
  named : Option (Table Json)
  /-- The arguments that come next. -/
  left : List Json

/-- The supply of some arguments; a single filled object gives its members by name. -/
def Supply.ofArguments : List Json → Supply
  | [.object (entry :: rest)] => ⟨some (entry :: rest), [.object (entry :: rest)]⟩
  | arguments => ⟨none, arguments⟩

/-- The next argument. -/
def Supply.next (supply : Supply) : Except TemplateFault (Json × Supply) :=
  match supply.left with
  | [] => .error .arguments
  | value :: left => .ok (value, { supply with left := left })

/-- Makes the argument with a name the only next one. -/
def Supply.pick (supply : Supply) (key : List Char) : Except TemplateFault Supply :=
  match supply.named with
  | none => .error .arguments
  | some table =>
    match table.get? (String.ofList key) with
    | none => .error .name
    | some value => .ok { supply with left := [value] }

/-- The number that a measure stands for, if there is one. -/
def Supply.measure (supply : Supply) (limit : Nat) (tooGreat tooGreatArgument : String) :
    Option Measure → Except TemplateFault (Option Int × Supply)
  | none => .ok (none, supply)
  | some (.written count) => .ok (some count, supply)
  | some .excessive => .error (.form tooGreat)
  | some .asked => do
    let (value, supply) ← supply.next
    let n ← exactWhole value
    if n < -(limit : Int) - 1 || (limit : Int) < n then .error (.range tooGreatArgument)
    else .ok (some n, supply)

/-- Fills a place; no named argument may be left over by it. -/
def fillPlace (supply : Supply) (p : Place) : Except TemplateFault (List Char × Supply) := do
  let supply ← match p.key with
    | some key => supply.pick key
    | none => pure supply
  let (width, supply) ← supply.measure widthLimit "width too big"
    "Python int too large to convert to C ssize_t" p.width
  let (precision, supply) ← supply.measure precisionLimit "precision too big"
    "Python int too large to convert to C int" p.precision
  let left := p.flags.left || width.any (· < 0)
  match p.ending with
  | .missing => .error (.form "incomplete format")
  | .letter c index =>
    let (value, supply) ← supply.next
    let rendered ← render p.flags (precision.map Int.toNat) c index value
    if supply.named.isSome && !supply.left.isEmpty then .error .arguments
    else .ok (rendered.toWidth p.flags left (width.getD 0).natAbs, supply)

/-- Fills pieces one after the other. -/
def fillPieces (supply : Supply) : List Piece → Except TemplateFault (List Char)
  | [] => if supply.named.isNone && !supply.left.isEmpty then .error .arguments else .ok []
  | .literal c :: rest => (fillPieces supply rest).map (c :: ·)
  | .openName :: _ =>
    if supply.named.isNone then .error .arguments else .error (.form "incomplete format key")
  | .place p :: rest => do
    let (filled, supply) ← fillPlace supply p
    return filled ++ (← fillPieces supply rest)

/-- Fills a template; without arguments it stands for itself. -/
def fill (template : String) (arguments : List Json) : Except TemplateFault String :=
  match arguments with
  | [] => .ok template
  | arguments => do
    let filled ← fillPieces (.ofArguments arguments) (pieces template.toList)
    return String.ofList filled

end ContractLens.Log
