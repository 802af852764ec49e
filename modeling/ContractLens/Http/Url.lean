import ContractLens.Schema.NumberText
import ContractLens.Text.Quoted
import ContractLens.Text.Scan
/-!
# Addresses of resources

An address is split into scheme, authority, path, query and fragment, each put into normal form:
scheme and host in small letters, the usual port left out, dot segments of the path resolved, and
characters that may not stand in a part written as percent escapes of their UTF-8 bytes. An address
without scheme or host is taken relative to the root.

Hosts are taken as they are written. One that is no address of the network and no name, or has
characters beyond ASCII, is for the network to refuse, with whatever fault it has for it.
-/

namespace ContractLens.Http

/-- Why a text is no address. -/
inductive UrlFault where
  /-- It has too many characters. -/
  | tooLong
  /-- A control character stands at an index. -/
  | control (c : Char) (index : Nat)
  /-- The port is no number. -/
  | port (written : String)
  /-- The path after a host does not start with a slash. -/
  | path
  /-- A relative path starts with two slashes. -/
  | doubleSlash
  /-- A relative path starts with a colon. -/
  | colon
  deriving DecidableEq

/-- The words of a fault. -/
def UrlFault.message : UrlFault → String
  | tooLong => "URL too long"
  | control c index =>
    let shown := Text.quotedString (String.singleton c)
    s!"Invalid non-printable ASCII character in URL, {shown} at position {index}."
  | port written => s!"Invalid port: {Text.quotedString written}"
  | path => "For absolute URLs, path must be empty or begin with '/'"
  | doubleSlash => "Relative URLs cannot have a path starting with '//'"
  | colon => "Relative URLs cannot have a path starting with ':'"

/-- An address in its parts, in normal form. -/
structure Url where
  /-- How the resource is reached. -/
  scheme : String
  /-- Where the resource is. -/
  authority : String
  /-- The resource. -/
  path : String
  /-- What is asked of it. -/
  query : Option String
  /-- The place in it. -/
  fragment : Option String
  deriving DecidableEq

/-- A byte as a percent escape. -/
def percentByte (byte : UInt8) : List Char :=
  '%' :: (hexDigits 2 byte.toNat).map Char.toUpper

/-- A character as the percent escapes of its bytes. -/
def percentChar (c : Char) : List Char :=
  (String.singleton c).toUTF8.toList.flatMap percentByte

/-- A part with the characters that may not stand in it escaped. A percent sign stays. -/
def escapePart (allowed : Char → Bool) (cs : List Char) : List Char :=
  cs.flatMap fun c => if allowed c then [c] else percentChar c

/-- A visible ASCII character that is none of the given ones. -/
def visibleBut (excluded : String) (c : Char) : Bool :=
  0x21 ≤ c.toNat && c.toNat ≤ 0x7E && !excluded.toList.contains c

/-- A character that may stand in a path. -/
def inPath : Char → Bool := visibleBut "\x22#<>?\x60\x7b\x7d"

/-- A character that may stand in a query. -/
def inQuery : Char → Bool := visibleBut "\x22#<>"

/-- A character that may stand in a fragment. -/
def inFragment : Char → Bool := visibleBut "\x22<>\x60"

/-- A character that may stand in a user's name. -/
def inUser : Char → Bool := visibleBut "\x22#<>?\x60\x7b\x7d/;=@[\\]^|"

/-- The parts of a path between slashes. -/
def segments (cs : List Char) : List (List Char) := Text.splitAt '/' cs

/-- The segments of a path with single dots left out and double dots taken back; the empty segment
in front is kept. -/
def resolveDots (done : List (List Char)) : List (List Char) → List (List Char)
  | [] => done
  | part :: rest =>
    if part == ['.'] then resolveDots done rest
    else if part == ['.', '.'] then
      resolveDots (if done == [] || done == [[]] then done else done.dropLast) rest
    else resolveDots (done ++ [part]) rest

/-- A path without dot segments. -/
def normalizePath (cs : List Char) : List Char :=
  List.intercalate ['/'] (resolveDots [] (segments cs))

/-- A character of a scheme after its first letter. -/
def isSchemeChar (c : Char) : Bool := c.isAlphanum || c == '+' || c == '.' || c == '-'

/-- The scheme of an address and what follows its colon. -/
def splitScheme (cs : List Char) : List Char × List Char :=
  let word := cs.takeWhile isSchemeChar
  match cs.drop word.length, word.head? with
  | ':' :: rest, some first => if first.isAlpha then (word, rest) else ([], cs)
  | ':' :: rest, none => ([], rest)
  | _, _ => ([], cs)

/-- The authority of an address, after two slashes, and what follows it. -/
def splitAuthority : List Char → List Char × List Char
  | '/' :: '/' :: rest => rest.span fun c => c != '/' && c != '?' && c != '#'
  | cs => ([], cs)

/-- The text up to a mark, and the text after it if the mark is there. -/
def splitMark (mark : Char) (cs : List Char) : List Char × Option (List Char) :=
  match cs.span (· != mark) with
  | (before, _ :: after) => (before, some after)
  | (before, []) => (before, none)

/-- The user in front of the last at-sign of an authority, and the rest. -/
def splitUser (cs : List Char) : List Char × List Char :=
  match (cs.reverse).span (· != '@') with
  | (rest, _ :: user) => (user.reverse, rest.reverse)
  | (_, []) => ([], cs)

/-- The host of an authority, brackets included, and the port after its colon. -/
def splitHost (cs : List Char) : List Char × List Char :=
  let (host, rest) := match cs with
    | '[' :: _ =>
      if cs.contains ']' then
        let tail := cs.reverse.takeWhile (· != ']')
        (cs.take (cs.length - tail.length), tail.reverse)
      else cs.span (· != ':')
    | _ => cs.span (· != ':')
  match rest with
  | ':' :: port => (host, port)
  | port => (host, port)

/-- The port that a scheme is served on unless another is given. -/
def usualPort? (scheme : List Char) : Option Int :=
  match String.ofList scheme with
  | "ftp" => some 21
  | "http" | "ws" => some 80
  | "https" | "wss" => some 443
  | _ => none

/-- The port of an address, unless it is the usual one. -/
def readPort (scheme port : List Char) : Except UrlFault (Option Int) :=
  if port.isEmpty then .ok none
  else match Schema.parseInteger port with
    | .ok n => .ok (if usualPort? scheme == some n then none else some n)
    | .error _ => .error (.port (String.ofList port))

/-- The most characters of an address. -/
def maxUrlLength : Nat := 65536

/-- A control character. -/
def isControl (c : Char) : Bool := c.toNat < 0x20 || c.toNat == 0x7F

/-- The authority in normal form. -/
def authorityText (user host : List Char) (port : Option Int) : List Char :=
  let user := escapePart inUser user
  (if user.isEmpty then [] else user ++ ['@']) ++ host.map Char.toLower ++
    (match port with
      | some n => ':' :: intDigits n
      | none => [])

/-- An address relative to the root. -/
def relative (path : List Char) (query : Option String) : Url where
  scheme := ""
  authority := ""
  path := String.ofList ('/' :: path.dropWhile (· == '/'))
  query := query
  fragment := none

/-- Reads an address. -/
def Url.read (s : String) : Except UrlFault Url := do
  let cs := s.toList
  if maxUrlLength < cs.length then throw .tooLong
  let before := cs.takeWhile fun c => !isControl c
  if let c :: _ := cs.drop before.length then throw (.control c before.length)
  let (scheme, rest) := splitScheme cs
  let (authority, rest) := splitAuthority rest
  let (rest, fragment) := splitMark '#' rest
  let (path, query) := splitMark '?' rest
  let (user, hostPort) := splitUser authority
  let (host, port) := splitHost hostPort
  let port ← readPort scheme port
  let hasAuthority := !user.isEmpty || !host.isEmpty || port.isSome
  if hasAuthority && !path.isEmpty && path.head? != some '/' then throw .path
  if scheme.isEmpty && !hasAuthority then
    if path.take 2 == ['/', '/'] then throw .doubleSlash
    if path.head? == some ':' then throw .colon
  let path := escapePart inPath
    (if !scheme.isEmpty || hasAuthority then normalizePath path else path)
  let query := query.map fun q => String.ofList (escapePart inQuery q)
  if scheme.isEmpty || host.isEmpty then return relative path query
  return {
    scheme := String.ofList (scheme.map Char.toLower)
    authority := String.ofList (authorityText user host port)
    path := String.ofList path
    query := query
    fragment := fragment.map fun f => String.ofList (escapePart inFragment f) }

/-- The text of an address. -/
def Url.toText (url : Url) : String :=
  (if url.scheme.isEmpty then "" else url.scheme ++ ":") ++
    (if url.authority.isEmpty then "" else "//" ++ url.authority) ++ url.path ++
    ((url.query.map ("?" ++ ·)).getD "") ++ ((url.fragment.map ("#" ++ ·)).getD "")

/-- A parameter's name or value: letters, digits and a few marks as they are, a space as a plus
sign, all else escaped. -/
def escapeParameter (s : String) : List Char :=
  s.toList.flatMap fun c =>
    if c == ' ' then ['+']
    else if c.isAlphanum || c == '_' || c == '.' || c == '-' || c == '~' then [c]
    else percentChar c

/-- Parameters as a query. -/
def queryText (parameters : List (String × String)) : String :=
  String.ofList (List.intercalate ['&'] (parameters.map fun (name, value) =>
    escapeParameter name ++ '=' :: escapeParameter value))

/-- The address with the given parameters as its query. -/
def Url.withParameters (url : Url) (parameters : List (String × String)) : Url :=
  { url with query := some (queryText parameters) }

end ContractLens.Http
