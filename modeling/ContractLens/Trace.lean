import ContractLens.Http.Message
import ContractLens.Log.Entry
/-!
# Traces

What a run leaves behind besides its result: the requests it made, the entries it logged and the
pauses it took, each in order. Every later request is answered in the light of the earlier ones.
-/

namespace ContractLens

/-- The requests made, the entries logged and the pauses taken so far. -/
structure Trace where
  /-- The requests in order. -/
  requests : List Http.Request := []
  /-- The entries in order. -/
  entries : List Log.Entry := []
  /-- The pauses in seconds, in order. -/
  pauses : List Binary64 := []

/-- A computation that makes requests and logs entries. -/
abbrev Traced := StateM Trace

namespace Traced

/-- Logs an entry. -/
def note (entry : Log.Entry) : Traced Unit :=
  modify fun trace => { trace with entries := trace.entries ++ [entry] }

/-- Logs entries in order. -/
def noteAll (entries : List Log.Entry) : Traced Unit :=
  modify fun trace => { trace with entries := trace.entries ++ entries }

/-- Pauses for some seconds. -/
def pause (seconds : Binary64) : Traced Unit :=
  modify fun trace => { trace with pauses := trace.pauses ++ [seconds] }

/-- Makes a request. -/
def send (net : Http.Network) (request : Http.Request) : Traced (Except Http.Fault Http.Response) :=
  fun trace =>
    (net trace.requests request, { trace with requests := trace.requests ++ [request] })

/-- Makes a request of the given kind, if the address is one; also gives the address as it was
understood. -/
def sendTo (net : Http.Network) (method : Http.Method) (address : String)
    (parameters : List (String × String)) (body : Option Json) :
    Traced (Except Http.Fault (String × Http.Response)) :=
  match Http.Url.read address with
  | .error fault => pure (.error (.address fault.message))
  | .ok url => do
    let url := (if parameters.isEmpty then url else url.withParameters parameters).toText
    return (← send net ⟨method, url, body⟩).map fun response => (url, response)

end Traced

end ContractLens
