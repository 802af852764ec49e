import ContractLens.Import.Library
import ContractLens.Import.Locate
import ContractLens.Import.Record
import ContractLens.Import.Statement
/-!
# Resolving imports

Every distinct path that the files of a set import becomes one record, resolved or missing. The
record of a path depends on the files, on who imports it, and on what the library answers for that
path alone; `resolve` is a map over the paths in order of first appearance.

Lookups run side by side under a time limit: first every path is looked up, then the failures are
reported, then the lookups that were given up. Without a limit each path is finished before the
next, and a lookup that is never answered is waited for (`resolveWithoutLimit`).

A library from elsewhere may also fail in a way that is not made into a record: its lookup is called
off, or its failure cannot be put into words. Such a failure ends the resolution (`conclude`).
-/

namespace ContractLens.Import

/-- A relative import is in no file. -/
def fileNotFound : String := "File not found in provided files"

/-- A package is in no library. -/
def unknownPackage : String := "Unknown package: not found in built-in library registry"

/-- Code hosts are not asked. -/
def hostUnsupported : String := "GitHub imports not yet implemented"

/-- The path does not say where to look. -/
def unknownSource : String := "Unresolved import: unrecognized import source"

/-- What became of one import. -/
inductive Outcome where
  /-- Its content was found; `fetched` says whether in a library. -/
  | resolved (record : ResolvedImport) (fetched : Bool)
  /-- It was not found. -/
  | missing (record : MissingImport)

/-- The paths that a set imports with the files that import each, in order of first appearance. -/
def importers (files : List SourceFile) : Table (List String) :=
  files.foldl (fun all file =>
    (extract file.content).foldl (fun (all : Table (List String)) path =>
      all.insert path ((all.get? path).getD [] ++ [file.path])) all) []

/-- A missing import. -/
def miss (path : String) (error : String) : Outcome := .missing ⟨path, .ofPath path, error⟩

/-- The failure of a lookup, a body that is no text included. -/
def failureOf? : Lookup → Option Failure
  | .found (.text _) | .absent | .unanswered => none
  | .found body =>
    some (.refused "ResolvedImport" [⟨.notText, [.name Names.content.wire], body⟩])
  | .failed failure => some failure

/-- Whether a lookup ran out of time, by the limit or by its own account. -/
def ranOut : Lookup → Bool
  | .unanswered | .failed (.timedOut _) => true
  | _ => false

/-- What is said about a lookup that ran out of time. -/
def timeoutText (path : String) : String := s!"Timed out fetching {path}"

/-- What a library's answer makes of a package import. -/
def ofLookup (path : String) (outcome : Lookup) : Outcome :=
  if ranOut outcome then miss path (timeoutText path)
  else match failureOf? outcome, outcome with
    | some failure, _ => miss path failure.describe
    | none, .found (.text body) => .resolved ⟨path, .npm, body⟩ true
    | none, _ => miss path unknownPackage

/-- The content that files of the set have for an import. -/
def localContent? (files : List SourceFile) (importers : List String) (path : String) :
    Option String :=
  match Provenance.ofPath path with
  | .relative => (locate? path importers files).map (·.content)
  | .npm => (files.find? (·.path == path)).map (·.content)
  | _ => none

/-- Whether the library is asked for an import. -/
def needsLibrary (files : List SourceFile) (path : String) : Bool :=
  Provenance.ofPath path == .npm && !files.any (·.path == path)

/-- What becomes of one import, given what the library answers for its path. -/
def resolveOne (files : List SourceFile) (lookup : String → Lookup) (path : String)
    (importers : List String) : Outcome :=
  match localContent? files importers path with
  | some content => .resolved ⟨path, .ofPath path, content⟩ false
  | none =>
    match Provenance.ofPath path with
    | .relative => miss path fileNotFound
    | .npm => ofLookup path (lookup path)
    | .github => miss path hostUnsupported
    | .unknown => miss path unknownSource

/-- The outcomes put into their lists. -/
def collect (outcomes : List Outcome) : Resolution where
  resolved := outcomes.filterMap fun
    | .resolved record _ => some record
    | .missing _ => none
  missing := outcomes.filterMap fun
    | .missing record => some record
    | .resolved .. => none
  autoFetched := outcomes.filterMap fun
    | .resolved record true => some record
    | _ => none

/-- What becomes of all imports of a set. -/
def resolve (files : List SourceFile) (lookup : String → Lookup) : Resolution :=
  collect ((importers files).map fun (path, importers) => resolveOne files lookup path importers)

/-- The paths that the library is asked for. -/
def wanted (files : List SourceFile) : List String :=
  ((importers files).map (·.1)).filter (needsLibrary files)

/-- How long a lookup may take, if there is a limit. -/
inductive Patience where
  /-- Some time. -/
  | limited
  /-- No time at all: every lookup is given up before it is made. -/
  | none
  deriving DecidableEq

/-- The patience of a limit in seconds. -/
def Patience.ofSeconds (seconds : Binary64) : Patience :=
  if seconds.isZero || Binary64.lt seconds (.ofInt 0) then none else limited

/-- The report on a lookup that brought no body and no clear absence. -/
def warning? (path : String) (outcome : Lookup) : Option Log.Entry :=
  let entry (message : String) : Log.Entry :=
    { level := .warning, component := .imports, message := message,
      context := { importPath := some path } }
  if ranOut outcome then some (entry s!"Timed out resolving import {path}")
  else (failureOf? outcome).map fun failure =>
    entry s!"Failed to resolve import {path}: {failure.message}"

/-- Whether a lookup is given up only when its time is over. -/
def isUnanswered : Lookup → Bool
  | .unanswered => true
  | _ => false

/-- Looks paths up one after the other; `reports` says whether each that is answered is reported on
at once. -/
def lookAll (net : Http.Network) (library : Library) (reports : Bool) :
    List String → Traced (List (String × Lookup))
  | [] => pure []
  | path :: rest => do
    let outcome ← library.lookup net path
    if reports && !isUnanswered outcome then Traced.noteAll (warning? path outcome).toList
    return (path, outcome) :: (← lookAll net library reports rest)

/-- The reports on lookups that ran side by side: those that ended first, then those given up. -/
def warnings (outcomes : List (String × Lookup)) : List Log.Entry :=
  let (late, early) := outcomes.partition fun (_, outcome) => isUnanswered outcome
  (early ++ late).filterMap fun (path, outcome) => warning? path outcome

/-- What the library answers for the given paths under a time limit. -/
def lookups (net : Http.Network) (library : Library) (patience : Patience) (paths : List String) :
    Traced (List (String × Lookup)) :=
  match patience with
  | .limited => do
    let outcomes ← lookAll net library false paths
    Traced.noteAll (warnings outcomes)
    return outcomes
  | .none => do
    let outcomes := paths.map fun path => (path, Lookup.unanswered)
    Traced.noteAll (warnings outcomes)
    return outcomes

/-- The report on a resolution. -/
def doneEntry (r : Resolution) : Log.Entry where
  level := .info
  component := .imports
  message := s!"Resolved {r.resolved.length} imports, {r.missing.length} missing, " ++
      s!"{r.autoFetched.length} auto-fetched"

/-- What becomes of all imports of a set, given the outcomes of the lookups that were made. -/
def resolveFrom (files : List SourceFile) (outcomes : List (String × Lookup)) : Resolution :=
  resolve files fun path => (Table.get? outcomes path).getD .absent

/-- Resolves the imports of a set with a library under a time limit. -/
def resolveWith (net : Http.Network) (library : Library) (patience : Patience)
    (files : List SourceFile) : Traced Resolution := do
  let outcomes ← lookups net library patience (wanted files)
  let resolution := resolveFrom files outcomes
  Traced.note (doneEntry resolution)
  return resolution

/-- Whether one of the lookups is never answered. -/
def anyUnanswered (outcomes : List (String × Lookup)) : Bool :=
  outcomes.any fun (_, outcome) => isUnanswered outcome

/-- Resolves the imports of a set with a library, however long it takes; there is no resolution if a
lookup is never answered. -/
def resolveWithoutLimit (net : Http.Network) (library : Library) (files : List SourceFile) :
    Traced (Option Resolution) := do
  let outcomes ← lookAll net library true (wanted files)
  if anyUnanswered outcomes then return none
  let resolution := resolveFrom files outcomes
  Traced.note (doneEntry resolution)
  return some resolution

/-! ## Any library -/

/-- What comes of asking a library for a path: an outcome that is made into a record, or a failure
that is not. -/
abbrev Reply := Except Failure Lookup

/-- How a resolution ends. -/
inductive Ending where
  /-- It gives the records. -/
  | returned (resolution : Resolution)
  /-- It fails. -/
  | failed (failure : Failure)
  /-- It does not end. -/
  | waiting

/-- The outcomes of lookups, or the first failure that is not made into a record. -/
def gather (reply : String → Reply) : List String → Except Failure (List (String × Lookup))
  | [] => return []
  | path :: rest => return (path, ← reply path) :: (← gather reply rest)

/-- How the resolution of a set ends, with a time limit or without one, given what comes of asking
the library for each path. -/
def conclude (files : List SourceFile) (limited : Bool) (reply : String → Reply) : Ending :=
  match gather reply (wanted files) with
  | .error failure => .failed failure
  | .ok outcomes =>
    if !limited && anyUnanswered outcomes then .waiting else .returned (resolveFrom files outcomes)

end ContractLens.Import
