import ContractLens.Http.Message
import ContractLens.Schema.Report
/-!
# Failures

Why an analysis does not come about: the caller's address or chain is wrong, nothing could be
fetched, an answer has the wrong shape, a whole number cannot be computed with or written, or
another component failed. Where a failure from outside has no words, the name of its kind stands in
for them.
-/

namespace ContractLens

/-- Why an analysis does not come about. -/
inductive Failure where
  /-- The text is no address of a contract. -/
  | invalidAddress (address : String)
  /-- The chain is not known. -/
  | unsupportedChain (id : Int)
  /-- Neither source nor code could be fetched. -/
  | sourceFetch (message : String) (cause : Option Failure)
  /-- A request brought no usable answer. -/
  | http (fault : Http.Fault)
  /-- A text is no JSON. -/
  | unreadable (reason : Json.ReadFailure)
  /-- A value cannot be taken for a record of the given kind. -/
  | refused (model : String) (problems : List Schema.Problem)
  /-- A setting's text in the environment is no JSON. -/
  | unreadableSetting (name : String)
  /-- A value has no members where one is asked for. -/
  | noMembers
  /-- A value is of no use where it stands. -/
  | wrongType
  /-- No answer came in time. -/
  | timedOut (message : String)
  /-- A whole number is beyond all binary numbers. -/
  | overflow
  /-- A whole number has too many digits to be written. -/
  | overlong
  /-- Another component failed; the kind names how. -/
  | other (kind message : String)
  deriving Inhabited

namespace Failure

/-- What is said about a failure. -/
def message : Failure → String
  | invalidAddress address => s!"Invalid contract address format: {address}"
  | unsupportedChain id => s!"Unsupported chain: {id}"
  | sourceFetch message _ => message
  | http fault => fault.message
  | unreadable reason => reason.message
  | refused model problems => Schema.report model problems
  | unreadableSetting name =>
    s!"error parsing value for field \"{name}\" from source \"EnvSettingsSource\""
  | noMembers => ""
  | wrongType => ""
  | timedOut message => message
  | overflow => "int too large to convert to float"
  | overlong =>
    s!"Exceeds the limit ({Json.maxIntegerDigits} digits) for integer string conversion; use " ++
      "sys.set_int_max_str_digits() to increase the limit"
  | other _ message => message

/-- The word that stands in for a failure that may have no words of its own. -/
def kind? : Failure → Option String
  | sourceFetch .. => some "SourceFetchError"
  | http fault => some fault.kind
  | noMembers => some "AttributeError"
  | wrongType => some "TypeError"
  | timedOut _ => some "TimeoutError"
  | overflow => some "OverflowError"
  | overlong => some "ValueError"
  | other kind _ => some kind
  | invalidAddress _ | unsupportedChain _ | unreadable _ | refused .. | unreadableSetting _ => none

/-- The words of a failure, or its kind where there are none. -/
def describe (failure : Failure) : String :=
  if failure.message.isEmpty then failure.kind?.getD "" else failure.message

/-- Whether fetching failed, with or without the network's fault. -/
def isFetchFailure : Failure → Bool
  | sourceFetch .. => true
  | http fault => fault.isNetwork
  | _ => false

/-- Whether the network is at fault for a moment only. -/
def isMomentary : Failure → Bool
  | http fault => fault.isTransient
  | _ => false

/-- Whether the same attempt may succeed later: the failure, or the direct cause of a failed fetch,
is momentary. -/
def isTransient : Failure → Bool
  | sourceFetch _ (some cause) => cause.isMomentary
  | failure => failure.isMomentary

end Failure

/-- A whole number inside a text: it is written if it is short enough to be read. -/
def numberText (n : Int) : Except Failure String :=
  if Json.Short n then .ok (intText n) else .error .overlong

end ContractLens
