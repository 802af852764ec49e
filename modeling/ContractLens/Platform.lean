/-!
# What the platform decides

Besides the network and the store, an analysis takes three things from the place where it runs. A
text is read as deep as there is room for it. A text may hold one half of a pair of UTF-16 units,
which is no character: characters for private use stand for the halves. And a time without a zone is
meant in the time of the place.

Which characters stand for the halves is left open. A text in which a character of theirs occurs in
its own right is one for another choice.
-/

namespace ContractLens

/-- What the platform decides. -/
class Platform where
  /-- The levels of nesting for which there is room when a text is read. -/
  levels : Nat
  /-- There is room for a record. -/
  roomy : 16 ≤ levels
  /-- The number of the character that stands for the first half. -/
  halves : Nat
  /-- All the halves have characters for private use. -/
  halves_private : 0xF0000 ≤ halves ∧ halves + 0x800 ≤ 0x110000
  /-- The seconds by which the local time is ahead of universal time, so many seconds after the
  start of 1970. -/
  ahead : Int → Int

namespace Platform

/-- A platform in universal time on which the last characters of all stand for the halves. -/
instance usual : Platform where
  levels := 960
  roomy := by decide
  halves := 0x10F800
  halves_private := by decide
  ahead := fun _ => 0

variable [Platform]

/-- The character that stands for a half with the given unit. -/
def half (unit : Nat) : Char := Char.ofNat (halves + (unit - 0xD800))

/-- Whether a character stands for a half. -/
def isHalf (c : Char) : Bool := halves ≤ c.toNat && c.toNat < halves + 0x800

/-- The unit of the half that a character stands for. -/
def halfUnit (c : Char) : Nat := 0xD800 + (c.toNat - halves)

end Platform

end ContractLens
