/-!
# Scopes of an analysis

Everything that is logged while an analysis runs carries its name. A scope is opened with a name of
its own or without one; without, it goes on under the name of the scope around it, and outermost it
gets a fresh name. Leaving a scope, in whatever way, brings back the name from before
(`leave_enter`).
-/

namespace ContractLens.Log

/-- The scopes that are open. -/
structure Scopes where
  /-- The names of the open scopes, the innermost first. -/
  names : List String := []
  /-- How many fresh names were given. -/
  given : Nat := 0

namespace Scopes

/-- The name that entries carry now. -/
def current (scopes : Scopes) : Option String := scopes.names.head?

/-- The name of a scope that is opened with or without a name, given a fresh one. -/
def choose (own around : Option String) (fresh : String) : String :=
  match own with
  | some name => if name.isEmpty then around.getD fresh else name
  | none => around.getD fresh

/-- Whether a scope opened with or without a name gets a fresh one. -/
def needsFresh (own around : Option String) : Bool :=
  around.isNone && (own.getD "").isEmpty

/-- Opens a scope; `fresh` makes a name from the count of those given before. -/
def enter (fresh : Nat → String) (own : Option String) (scopes : Scopes) : Scopes where
  names := choose own scopes.current (fresh scopes.given) :: scopes.names
  given := if needsFresh own scopes.current then scopes.given + 1 else scopes.given

/-- Leaves the innermost scope. -/
def leave (scopes : Scopes) : Scopes := { scopes with names := scopes.names.tail }

/-- Leaving a scope brings back the names from before it. -/
theorem leave_enter (fresh : Nat → String) (own : Option String) (scopes : Scopes) :
    (scopes.enter fresh own).leave.names = scopes.names := rfl

end Scopes

end ContractLens.Log
