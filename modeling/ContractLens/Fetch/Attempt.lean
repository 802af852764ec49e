import ContractLens.Failure
import ContractLens.Trace
/-!
# Attempts

An attempt makes requests, logs entries, and ends with a value or a failure; what it did before a
failure stays done. An attempt that fails for the moment is made again after a pause, and each pause
is twice as long as the one before. After so many attempts that the pause cannot be computed there
is no other.
-/

namespace ContractLens

/-- A traced computation that may fail. -/
abbrev Attempt := ExceptT Failure Traced

namespace Attempt

variable {α : Type}

/-- Ends with a failure. -/
def fail (failure : Failure) : Attempt α := throw failure

/-- Ends with a result that is already known. -/
def ofExcept : Except Failure α → Attempt α
  | .ok a => pure a
  | .error failure => fail failure

/-- Logs an entry. -/
def note (entry : Log.Entry) : Attempt Unit := ExceptT.lift (Traced.note entry)

end Attempt

/-- How often an attempt is made again, how long the first pause is, and what it is called. -/
structure RetryPolicy where
  /-- The most new attempts. -/
  retries : Nat
  /-- The seconds of the first pause. -/
  baseDelay : Binary64
  /-- What is attempted. -/
  label : String

namespace RetryPolicy

/-- The pause after so many failed attempts before this one. -/
def delay (policy : RetryPolicy) (failed : Nat) : Binary64 :=
  policy.baseDelay.scale (Nat.pow 2 failed)

/-- The pause that is taken after so many failed attempts before this one. The power of two is made
a binary number before the first pause is multiplied by it, and it may be beyond all of them. -/
def nextPause (policy : RetryPolicy) (failed : Nat) : Except Failure Binary64 :=
  if (Binary64.ofInt (Nat.pow 2 failed)).isFinite then .ok (policy.delay failed)
  else .error .overflow

/-- Whether a failure calls for a new attempt. -/
def retries? (failure : Failure) : Bool := failure.isFetchFailure && failure.isTransient

/-- The report on an attempt that will be made again. -/
def entry (policy : RetryPolicy) (failed : Nat) (failure : Failure) : Log.Entry where
  level := .warning
  component := .engine
  message :=
    let seconds := String.ofList ((policy.delay failed).toFixed 1)
    s!"{policy.label} failed (retry {failed + 1}/{policy.retries} in {seconds}s): " ++
      failure.message

/-- Makes attempts, of which `failed` have failed and `left` more may fail. -/
def runFrom {α : Type} (policy : RetryPolicy) (attempt : Nat → Attempt α) :
    (left failed : Nat) → Attempt α
  | 0, failed => attempt failed
  | left + 1, failed => tryCatch (attempt failed) fun failure => do
    if retries? failure then
      let seconds ← Attempt.ofExcept (policy.nextPause failed)
      Attempt.note (policy.entry failed failure)
      ExceptT.lift (Traced.pause seconds)
      runFrom policy attempt left (failed + 1)
    else throw failure

/-- Makes attempts until one succeeds, fails for good, or is the last one allowed. -/
def run {α : Type} (policy : RetryPolicy) (attempt : Nat → Attempt α) : Attempt α :=
  runFrom policy attempt policy.retries 0

end RetryPolicy

end ContractLens
