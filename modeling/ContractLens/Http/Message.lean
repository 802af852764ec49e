import ContractLens.Http.Status
import ContractLens.Http.Url
import ContractLens.Json.Reader
import ContractLens.Json.Writer
/-!
# Requests and answers

The network answers a request with a status, headers and a text, or fails to. What it answers may
depend on the requests made before. An address that is none is refused before any request is made.
-/

namespace ContractLens.Http

/-- What is done with a resource. -/
inductive Method where
  /-- It is read. -/
  | get
  /-- Something is sent to it. -/
  | post
  deriving DecidableEq

/-- The word for a method. -/
def Method.word : Method → String
  | get => "GET"
  | post => "POST"

/-- A request. -/
structure Request where
  /-- What is done. -/
  method : Method
  /-- With which resource. -/
  url : String
  /-- What is sent. -/
  body : Option Json

/-- An answer. -/
structure Response where
  /-- How the request was taken. -/
  status : Int
  /-- Facts about the answer. -/
  headers : List (String × String)
  /-- The answer itself. -/
  body : String

/-- Why a request brought no usable answer. -/
inductive Fault where
  /-- The connection failed; the kind names how. -/
  | transport (kind message : String)
  /-- The answer could not be followed or decoded; the kind names how. -/
  | exchange (kind message : String)
  /-- The answer refuses the request. -/
  | status (code : Int) (message : String)
  /-- The address is none. -/
  | address (message : String)
  deriving DecidableEq

/-- What a fault says. -/
def Fault.message : Fault → String
  | transport _ message | exchange _ message | status _ message | address message => message

/-- The word for a fault. -/
def Fault.kind : Fault → String
  | transport kind _ | exchange kind _ => kind
  | status .. => "HTTPStatusError"
  | address _ => "InvalidURL"

/-- Whether a fault comes from the network and not from the address. -/
def Fault.isNetwork : Fault → Bool
  | address _ => false
  | _ => true

/-- The states in which a server may take the same request later. -/
def retryableStatus : List Int := [429, 502, 503, 504]

/-- Whether the same request may succeed later. -/
def Fault.isTransient : Fault → Bool
  | transport .. => true
  | status code _ => retryableStatus.contains code
  | _ => false

/-- How the network answers a request after the given earlier ones. It also refuses the addresses
that `Url.read` lets through though nothing can be reached at them: those with a host that is no
numerical address and no name, or with half of a pair of units in them. -/
abbrev Network := List Request → Request → Except Fault Response

/-- The value of a header, whatever the case of its name. -/
def Response.header? (response : Response) (name : String) : Option String :=
  (response.headers.find? fun (known, _) =>
    known.toList.map Char.toLower == name.toList.map Char.toLower).map (·.2)

/-- What is said about an answer that refuses a request. -/
def refusalText (response : Response) (url : String) : String :=
  let status := response.status
  let location := if isRedirect status then response.header? "location" else none
  s!"{refusalClass status} '{status} {phrase status}' for url '{url}'\n" ++
    ((location.map fun place => s!"Redirect location: '{place}'\n").getD "") ++
    "For more information check: " ++
    s!"https://developer.mozilla.org/en-US/docs/Web/HTTP/Status/{status}"

/-- The answer unless it refuses the request. -/
def Response.accepted (response : Response) (url : String) : Except Fault Response :=
  if isSuccess response.status then .ok response
  else .error (.status response.status (refusalText response url))

variable [Platform]

/-- The value that an answer's text holds; a byte order mark in front is passed over. -/
def Response.json (response : Response) : Except Json.ReadFailure Json :=
  let cs := response.body.toList
  Json.readWithin Platform.levels (if cs.head? == some (Char.ofNat 0xFEFF) then cs.drop 1 else cs)

end ContractLens.Http
