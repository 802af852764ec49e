import ContractLens.Number.Decimal
/-!
# UTF-8

Bytes are read as characters one after the other. A character starts with a byte that tells how many
bytes follow and between which bounds; only the bounds of the first following byte depend on the
start, so that every character has one spelling and no surrogate has any. Bytes that spell no
character are gathered into a fault as long as they could still have begun one.
-/

namespace ContractLens.Utf8

/-- Why bytes spell no character. -/
inductive Reason where
  /-- The first of them starts no character. -/
  | start
  /-- The byte after them does not go on with the character. -/
  | continuation
  /-- Nothing follows them. -/
  | ending
  deriving DecidableEq

/-- Bytes that spell no character. -/
structure Fault where
  /-- The first byte. -/
  byte : Nat
  /-- Where it stands. -/
  position : Nat
  /-- How many bytes there are. -/
  count : Nat
  /-- What is wrong with them. -/
  reason : Reason
  deriving DecidableEq

/-- What bytes are read as. -/
inductive Piece where
  /-- A character. -/
  | char (c : Char)
  /-- A fault. -/
  | fault (f : Fault)
  deriving DecidableEq

/-- The beginning of a character. -/
structure Begun where
  /-- The first byte. -/
  byte : Nat
  /-- Where it stands. -/
  position : Nat
  /-- How many bytes have been read. -/
  count : Nat
  /-- The bits read so far. -/
  value : Nat
  /-- The bounds of the bytes that have to follow. -/
  following : List (Nat × Nat)

/-- The bounds of a byte that goes on with a character. -/
def tail : Nat × Nat := (0x80, 0xBF)

/-- The bits of a first byte, and the bounds of the bytes that have to follow it. -/
def firstByte? (b : Nat) : Option (Nat × List (Nat × Nat)) :=
  if b < 0x80 then some (b, [])
  else if b < 0xC2 then none
  else if b < 0xE0 then some (b - 0xC0, [tail])
  else if b == 0xE0 then some (0, [(0xA0, 0xBF), tail])
  else if b == 0xED then some (b - 0xE0, [(0x80, 0x9F), tail])
  else if b < 0xF0 then some (b - 0xE0, [tail, tail])
  else if b == 0xF0 then some (0, [(0x90, 0xBF), tail, tail])
  else if b < 0xF4 then some (b - 0xF0, [tail, tail, tail])
  else if b == 0xF4 then some (b - 0xF0, [(0x80, 0x8F), tail, tail])
  else none

/-- A begun character as a fault. -/
def Begun.fault (begun : Begun) (reason : Reason) : Piece :=
  .fault ⟨begun.byte, begun.position, begun.count, reason⟩

/-- Reads a byte where a character starts: what is read already, and what is begun. -/
def start (position b : Nat) : List Piece × Option Begun :=
  match firstByte? b with
  | none => ([.fault ⟨b, position, 1, .start⟩], none)
  | some (value, []) => ([.char (Char.ofNat value)], none)
  | some (value, following) => ([], some ⟨b, position, 1, value, following⟩)

/-- Reads a byte after a begun character. -/
def resume (begun : Begun) (position b : Nat) : List Piece × Option Begun :=
  match begun.following with
  | [] => start position b
  | (low, high) :: following =>
    if low ≤ b && b ≤ high then
      let value := begun.value * 0x40 + (b - 0x80)
      if following.isEmpty then ([.char (Char.ofNat value)], none)
      else ([], some { begun with count := begun.count + 1, value, following })
    else
      let (pieces, next) := start position b
      (begun.fault .continuation :: pieces, next)

/-- Reads bytes from a position on. -/
def readFrom (position : Nat) (begun : Option Begun) : List UInt8 → List Piece
  | [] =>
    match begun with
    | some begun => [begun.fault .ending]
    | none => []
  | b :: rest =>
    let (pieces, next) := match begun with
      | some begun => resume begun position b.toNat
      | none => start position b.toNat
    pieces ++ readFrom (position + 1) next rest

/-- Reads bytes. -/
def read (bytes : List UInt8) : List Piece := readFrom 0 none bytes

/-- The character that stands for bytes that spell none. -/
def replacement : Char := '\uFFFD'

/-- The characters of bytes, each fault being replaced by one character. -/
def decodeReplacing (bytes : List UInt8) : List Char := (read bytes).map fun
  | .char c => c
  | .fault _ => replacement

/-- The characters of pieces, or the first fault. -/
def strictly : List Piece → Except Fault (List Char)
  | [] => .ok []
  | .char c :: rest => (strictly rest).map (c :: ·)
  | .fault f :: _ => .error f

/-- The characters of bytes, or the first fault. -/
def decode (bytes : List UInt8) : Except Fault (List Char) := strictly (read bytes)

/-- The words for a reason. -/
def Reason.words : Reason → String
  | start => "invalid start byte"
  | continuation => "invalid continuation byte"
  | ending => "unexpected end of data"

/-- What is said about a fault. -/
def Fault.message (f : Fault) : String :=
  let subject :=
    if f.count == 1 then
      "byte 0x" ++ String.ofList (hexDigits 2 f.byte) ++ " in position " ++ natText f.position
    else "bytes in position " ++ natText f.position ++ "-" ++ natText (f.position + f.count - 1)
  "'utf-8' codec can't decode " ++ subject ++ ": " ++ f.reason.words

/-- Text whose lines all end in a line feed: a carriage return, alone or before a line feed, is one.
The flag says whether one stands right before. -/
def unifyLinesAfter (afterReturn : Bool) : List Char → List Char
  | [] => []
  | c :: rest =>
    if c == '\r' then '\n' :: unifyLinesAfter true rest
    else if c == '\n' && afterReturn then unifyLinesAfter false rest
    else c :: unifyLinesAfter false rest

/-- Text whose lines all end in a line feed. -/
def unifyLines (cs : List Char) : List Char := unifyLinesAfter false cs

end ContractLens.Utf8
