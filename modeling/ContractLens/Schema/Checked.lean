import ContractLens.Json.Basic
/-!
# Checked values

Reading a record from a JSON value either accepts it or lists every problem met, in the order in
which the parts of the record are declared. A problem says what is wrong, where, and with which
value. `Checked` combines parts side by side, so that the problems of all of them are kept.
-/

namespace ContractLens.Schema

/-- One step on the way to a part of a value. -/
inductive Step where
  /-- The member of an object. -/
  | name (name : String)
  /-- The item of a list. -/
  | index (index : Nat)
  deriving DecidableEq

/-- What is wrong with a value. -/
inductive Cause where
  /-- A required member is absent. -/
  | missing
  /-- A record of the given kind was due. -/
  | notRecord (model : String)
  /-- A record whose kind decides how it is read was due. -/
  | notTagged
  /-- The member that names the kind of record is absent. -/
  | tagMissing
  /-- The kind of record is none of those known. -/
  | tagUnknown
  /-- A text was due. -/
  | notText
  /-- A whole number was due. -/
  | notInteger
  /-- The text is no whole number. -/
  | integerText
  /-- The whole number has too many digits. -/
  | integerSize
  /-- The number has a fractional part. -/
  | fractional
  /-- The number is not finite. -/
  | notFinite
  /-- A number was due. -/
  | notNumber
  /-- The text is no number. -/
  | numberText
  /-- A truth value was due. -/
  | notBool
  /-- The value is no truth value's name. -/
  | boolText
  /-- A list was due. -/
  | notList
  /-- A set was due. -/
  | notSet
  /-- An object was due. -/
  | notObject
  /-- One of the given values was due. -/
  | notLiteral (expected : String)
  /-- One of the given names was due. -/
  | notMember (expected : String)
  /-- The number lies below the bound. -/
  | below (bound : Int)
  /-- The number lies above the bound. -/
  | above (bound : Int)
  /-- A point in time was due. -/
  | notTime
  /-- The text is no point in time. -/
  | timeText (reason : String)
  /-- No member of this name exists. -/
  | unknownMember
  deriving DecidableEq

/-- A problem with a part of a value. -/
structure Problem where
  /-- What is wrong. -/
  cause : Cause
  /-- The way to the part. -/
  location : List Step
  /-- The part. -/
  input : Json

/-- A value that was accepted, or the problems that were met. -/
inductive Checked (α : Type) where
  /-- The value is accepted. -/
  | accepted (value : α)
  /-- The value is refused. -/
  | refused (problems : List Problem)

namespace Checked

variable {α β : Type}

/-- Applies a function to the accepted value. -/
def map (f : α → β) : Checked α → Checked β
  | accepted a => accepted (f a)
  | refused problems => refused problems

/-- Puts two parts together and keeps the problems of both. -/
def seq (f : Checked (α → β)) (a : Unit → Checked α) : Checked β :=
  match f, a () with
  | accepted f, accepted a => accepted (f a)
  | accepted _, refused problems => refused problems
  | refused problems, accepted _ => refused problems
  | refused first, refused second => refused (first ++ second)

instance : Applicative Checked where
  pure := accepted
  map := map
  seq := seq

/-- Refuses a value for one cause. -/
def refuse (cause : Cause) (input : Json) : Checked α := refused [⟨cause, [], input⟩]

/-- Puts the problems under a step of the way to them. -/
def under (step : Step) : Checked α → Checked α
  | accepted a => accepted a
  | refused problems =>
    refused (problems.map fun problem => { problem with location := step :: problem.location })

/-- A further condition on an accepted value. -/
def require (condition : α → Bool) (cause : Cause) (input : Json) : Checked α → Checked α
  | accepted a => if condition a then accepted a else refuse cause input
  | refused problems => refused problems

/-- Checks the items of a list, each under its index. -/
def items (read : Json → Checked α) (start : Nat) : List Json → Checked (List α)
  | [] => accepted []
  | item :: rest =>
    seq (map List.cons (under (.index start) (read item))) fun _ => items read (start + 1) rest

/-- The accepted value or the problems, as a result. -/
def toExcept : Checked α → Except (List Problem) α
  | accepted a => .ok a
  | refused problems => .error problems

@[simp] theorem map_accepted (f : α → β) (a : α) : map f (accepted a) = accepted (f a) := rfl

@[simp] theorem under_accepted (step : Step) (a : α) : under step (accepted a) = accepted a := rfl

@[simp] theorem seq_accepted (f : α → β) (a : α) :
    seq (accepted f) (fun _ => accepted a) = accepted (f a) := rfl

end Checked

/-- A way of reading a value. -/
abbrev Reader (α : Type) := Json → Checked α

end ContractLens.Schema
