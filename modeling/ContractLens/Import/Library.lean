import ContractLens.Failure
import ContractLens.Import.Builtin
import ContractLens.Trace
/-!
# Libraries

A library answers for an import path with a body, with nothing, with a failure, or not at all. A
chain asks its libraries from left to right until one has a body or fails; a remote library asks the
network.
-/

namespace ContractLens

/-- What a library answers for a path. -/
inductive Lookup where
  /-- A body. -/
  | found (body : Json)
  /-- The path is not known. -/
  | absent
  /-- The lookup failed. -/
  | failed (failure : Failure)
  /-- No answer comes. -/
  | unanswered

/-- A place where imports are looked up. -/
inductive Library where
  /-- Bodies by path. -/
  | table (bodies : Table Json)
  /-- Files below an address. -/
  | remote (base : String)
  /-- Libraries asked in turn. -/
  | chain (libraries : List Library)
  /-- A library that always fails. -/
  | failing (failure : Failure)
  /-- A library that never answers. -/
  | silent
  deriving Inhabited

namespace Library

/-- The library of built-in bodies. -/
def standard : Library := table (builtin.map fun (path, body) => (path, .text body))

/-- The address of the public package files. -/
def publicBase : String := "https://cdn.jsdelivr.net/npm"

/-- An address without the slashes at its end. -/
def dropEndSlashes (address : String) : String :=
  String.ofList ((address.toList.reverse.dropWhile (· == '/')).reverse)

/-- The report on a body that came from the network. -/
def fetchedEntry (path body : String) : Log.Entry where
  level := .debug
  component := .libraries
  message := s!"Fetched {path} from CDN ({body.length} bytes)"

/-- Asks the network for a body. -/
def fetchRemote (net : Http.Network) (base path : String) : Traced Lookup := do
  match ← Traced.sendTo net .get (dropEndSlashes base ++ "/" ++ path) [] none with
  | .error fault => return .failed (.http fault)
  | .ok (url, response) =>
    if response.status == 404 then return .absent
    match response.accepted url with
    | .error fault => return .failed (.http fault)
    | .ok response =>
      Traced.note (fetchedEntry path response.body)
      return .found (.text response.body)

mutual

/-- Looks a path up. -/
def lookup (net : Http.Network) (path : String) : Library → Traced Lookup
  | table bodies => pure <|
    match bodies.get? path with
    | some .null | none => .absent
    | some body => .found body
  | remote base => fetchRemote net base path
  | chain libraries => lookupFirst net path libraries
  | failing failure => pure (.failed failure)
  | silent => pure .unanswered

/-- Looks a path up in libraries in turn. -/
def lookupFirst (net : Http.Network) (path : String) : List Library → Traced Lookup
  | [] => pure .absent
  | library :: rest => do
    match ← lookup net path library with
    | .absent => lookupFirst net path rest
    | outcome => return outcome

end

end Library

end ContractLens
