import ContractLens.Analysis.Input
import ContractLens.Chain
import ContractLens.Fetch.Address
import ContractLens.Fetch.Attempt
import ContractLens.Fetch.StandardJson
import ContractLens.Settings
/-!
# Fetching a contract

A contract is looked up first among the published sources, then, with a key, at the explorer, and
failing both its code is fetched from a node of its chain. A place that has no verified source for
the contract is passed over; answers of an unexpected shape are failures.
-/

namespace ContractLens.Fetch

open Schema

/-- The value of a member; a value without members is a failure. -/
def member (value : Json) (name : String) : Except Failure Json :=
  match value with
  | .object members => .ok ((Table.get? members name).getD .null)
  | _ => .error .noMembers

/-- The value of a member that stands for the given one when it is absent. -/
def memberOr (value : Json) (name : String) (absent : Json) : Except Failure Json :=
  match value with
  | .object members => .ok ((Table.get? members name).getD absent)
  | _ => .error .noMembers

/-- A value unless it counts as nothing, else the given one. -/
def orElse (value absent : Json) : Json := value.filled?.getD absent

/-- The facts about a contract that go with an entry. -/
def about (address : String) (chainId : Int) : Log.Context :=
  { address := some address, chainId := some chainId }

/-- An entry of this component. -/
def entry (level : Log.Level) (message : String) (context : Log.Context) : Log.Entry :=
  { level := level, component := .fetcher, message := message, context := context }

/-- What became of a request that is answered with a value. -/
inductive Answer where
  /-- The answer's value. -/
  | value (value : Json)
  /-- The resource is not there. -/
  | absent
  /-- The answer cannot be used, for this reason. -/
  | useless (reason : String) (cause : Failure)

variable [Platform]

/-- The value of an answer; a fault of the network or a text that is no JSON makes it useless, any
other fault ends the attempt. -/
def readAnswer (url : String) (response : Http.Response) : Except Failure Answer :=
  match response.accepted url with
  | .error fault => .ok (.useless fault.message (.http fault))
  | .ok response =>
    match response.json with
    | .ok value => .ok (.value value)
    | .error .tooDeep => .error (.unreadable .tooDeep)
    | .error reason => .ok (.useless reason.message (.unreadable reason))

/-- Makes a request that is answered with a value; `allowAbsent` tells an absent resource apart. -/
def ask (net : Http.Network) (method : Http.Method) (url : String)
    (parameters : List (String × String)) (body : Option Json) (allowAbsent : Bool) :
    Attempt Answer := do
  match ← ExceptT.lift (Traced.sendTo net method url parameters body) with
  | .error fault =>
    if fault.isNetwork then return .useless fault.message (.http fault)
    else Attempt.fail (.http fault)
  | .ok (url, response) =>
    if allowAbsent && response.status == 404 then return .absent
    Attempt.ofExcept (readAnswer url response)

/-- Takes parts for the verified source of a contract. -/
def verifiedInput (address : String) (chainId : Int) (contractName compilerVersion : Json)
    (files : List SourceFile) (abi : Json) : Except Failure VerifiedInput :=
  let name (field : FieldName) : Step := .name (Naming.plain.of field)
  match (fun contractName compilerVersion abi =>
      VerifiedInput.mk address chainId contractName compilerVersion files abi)
    <$> Checked.under (name Names.contractName) (text contractName)
    <*> Checked.under (name Names.compilerVersion) (text compilerVersion)
    <*> Checked.under (name Names.abi) (list object abi) with
  | .accepted input => .ok input
  | .refused problems => .error (.refused "VerifiedInput" problems)

/-! ## Published sources -/

/-- The file name without the ending of a source file. -/
def dropSourceEnding (path : String) : String :=
  let cs := path.toList
  let (body, lineEnd) := if cs.getLast? == some '\n' then (cs.dropLast, ['\n']) else (cs, [])
  let without (ending body : List Char) : Option (List Char) :=
    if ending.isSuffixOf body then some (body.take (body.length - ending.length)) else none
  match (without ".sol".toList body).orElse fun _ => without ".vy".toList body with
  | some stem => String.ofList (stem ++ lineEnd)
  | none => path

/-- The address of a contract among the published sources. -/
def publishedUrl (settings : Settings) (chainId : Int) (address : String) : String :=
  let base := String.ofList
    ((settings.sourcifyApiUrl.toList.reverse.dropWhile (· == '/')).reverse)
  s!"{base}/v2/contract/{chainId}/{address}"

/-- The files of an object that maps paths to contents. -/
def publishedFiles (sources : Json) : Except Failure (List SourceFile) :=
  match orElse sources (.object []) with
  | .object members => members.mapM fun (path, content) =>
    StandardJson.fileOf path (orElse content (.text ""))
  | _ => .error .noMembers

/-- The verified source that an answer holds besides its files. -/
def publishedInput (address : String) (chainId : Int) (value : Json) (files : List SourceFile) :
    Except Failure VerifiedInput := do
  let compilation := orElse (← member value "compilation") (.object [])
  let stem := ((files.head?).map fun file => dropSourceEnding file.path).getD ""
  let name := orElse (← member compilation "name") (.text stem)
  let version := orElse (← member compilation "compilerVersion") (.text "")
  let abi := orElse (← member value "abi") (.list [])
  verifiedInput address chainId name version files abi

/-- Looks a contract up among the published sources. -/
def fromSourcify (net : Http.Network) (settings : Settings) (chainId : Int) (address : String) :
    Attempt (Option VerifiedInput) := do
  let address := Text.lowerString address
  let context := about address chainId
  match ← ask net .get (publishedUrl settings chainId address)
      [("fields", "sources,abi,compilation")] none true with
  | .absent =>
    Attempt.note (entry .debug "Contract not verified on Sourcify" context)
    return none
  | .useless reason _ =>
    Attempt.note (entry .warning s!"Sourcify fetch failed: {reason}" context)
    return none
  | .value value =>
    if (← Attempt.ofExcept (member value "match")).isVoid then return none
    let files ← Attempt.ofExcept (do publishedFiles (← member value "sources"))
    if files.isEmpty then
      Attempt.note (entry .debug "Sourcify returned no source files" context)
      return none
    return some (← Attempt.ofExcept (publishedInput address chainId value files))

/-! ## The explorer -/

/-- What the explorer is asked. -/
def explorerParameters (settings : Settings) (chainId : Int) (address : String) :
    List (String × String) := [
  ("chainid", intText chainId), ("module", "contract"), ("action", "getsourcecode"),
  ("address", address), ("apikey", settings.etherscanApiKey)]

/-- The first result of an answer, if the explorer has any. -/
def explorerResult? (value : Json) : Except Failure (Option Json) := do
  let results ← member value "result"
  match ← member value "status", results with
  | .text "1", .list (result :: _) => return some result
  | _, _ => return none

/-- The functions and events that an explorer describes in a text; a text that is no JSON, or no
list, describes none. -/
def explorerAbi (described : Json) : Except Failure Json :=
  match orElse described (.text "[]") with
  | .text s =>
    match Json.read s with
    | .ok (.list items) => .ok (.list items)
    | .ok _ => .ok (.list [])
    | .error (.malformed ..) => .ok (.list [])
    | .error reason => .error (.unreadable reason)
  | _ => .error .wrongType

/-- The files in an explorer's source text: several in one JSON text, or a single one. The flag says
whether a JSON text was expected and not found. -/
def explorerFiles (contractName : Json) (source : String) :
    Except Failure (List SourceFile × Bool) := do
  let startsObject := (source.toList.dropWhile Text.isBlank).head? == some '\x7b'
  let parsed ← if startsObject then StandardJson.parse? source else pure (some [])
  let files := parsed.getD []
  let name := (orElse contractName (.text "Contract")).display
  return (if files.isEmpty then [⟨name ++ ".sol", source⟩] else files, parsed.isNone)

/-- Looks a contract up at the explorer; without a key there is nothing to find. -/
def fromEtherscan (net : Http.Network) (settings : Settings) (chainId : Int) (address : String) :
    Attempt (Option VerifiedInput) := do
  if settings.etherscanApiKey.isEmpty then return none
  match ← ask net .get settings.etherscanApiUrl (explorerParameters settings chainId address)
      none false with
  | .absent => return none
  | .useless reason _ =>
    Attempt.note (entry .warning s!"Etherscan fetch failed: {reason}" (about address chainId))
    return none
  | .value value =>
    match ← Attempt.ofExcept (explorerResult? value) with
    | none => return none
    | some result =>
      match ← Attempt.ofExcept (memberOr result "SourceCode" (.text "")) with
      | .text source =>
        if source.isEmpty then return none
        let name ← Attempt.ofExcept (memberOr result "ContractName" (.text ""))
        let (files, unparsed) ← Attempt.ofExcept (explorerFiles name source)
        if unparsed then
          Attempt.note (entry .warning "Failed to parse multi-file source"
            { address := some address })
        let abi ← Attempt.ofExcept (do explorerAbi (← member result "ABI"))
        let version ← Attempt.ofExcept (memberOr result "CompilerVersion" (.text ""))
        return some (← Attempt.ofExcept (verifiedInput address chainId name version files abi))
      | source => if source.isVoid then return none else Attempt.fail .noMembers

/-! ## The node -/

/-- The address of the node of a chain. -/
def nodeUrl (settings : Settings) (chain : Chain) : String :=
  (settings.rpcOverrides.get? chain.id).getD chain.rpcUrl

/-- What a node is asked. -/
def codeRequest (address : String) : Json := .object [
  ("jsonrpc", .text "2.0"), ("id", .int 1), ("method", .text "eth_getCode"),
  ("params", .texts [address, "latest"])]

/-- The chain with a number, which has to be known. -/
def chainOf (chainId : Int) : Except Failure Chain :=
  match Chain.ofId? chainId with
  | some chain => .ok chain
  | none => do
    let _ ← numberText chainId
    throw (.unsupportedChain chainId)

/-- Fetches the code deployed at an address, as the node gave it. -/
def bytecode (net : Http.Network) (settings : Settings) (chainId : Int) (address : String) :
    Attempt Json := do
  let chain ← Attempt.ofExcept (chainOf chainId)
  match ← ask net .post (nodeUrl settings chain) [] (some (codeRequest address)) false with
  | .absent => return .text "0x"
  | .useless reason cause =>
    Attempt.fail (.sourceFetch s!"eth_getCode failed on {chain.name}: {reason}" (some cause))
  | .value value =>
    let error ← Attempt.ofExcept (member value "error")
    if !error.isVoid then
      Attempt.fail (.sourceFetch s!"eth_getCode error on {chain.name}: {error.display}" none)
    return orElse (← Attempt.ofExcept (member value "result")) (.text "0x")

/-- Takes what a node gave for the code of a contract. -/
def bytecodeInput (address : String) (chainId : Int) (code : Json) :
    Except Failure BytecodeInput :=
  match Checked.under (.name (Naming.plain.of Names.bytecodeHex)) (text code) with
  | .accepted code => .ok ⟨address, chainId, code⟩
  | .refused problems => .error (.refused "BytecodeInput" problems)

/-! ## All three -/

/-- Fetches the verified source of a contract or, where there is none, its code. -/
def resolve (net : Http.Network) (settings : Settings) (chainId : Int) (address : String) :
    Attempt AnalysisInput := do
  let _ ← Attempt.ofExcept (Address.validate address)
  let _ ← Attempt.ofExcept (chainOf chainId)
  let context := about address chainId
  if let some input ← fromSourcify net settings chainId address then
    Attempt.note (entry .info "Found verified source on Sourcify" context)
    return .verified input
  if let some input ← fromEtherscan net settings chainId address then
    Attempt.note (entry .info "Found verified source on Etherscan" context)
    return .verified input
  Attempt.note (entry .info "No verified source; falling back to bytecode" context)
  let code ← bytecode net settings chainId address
  return .bytecode (← Attempt.ofExcept (bytecodeInput address chainId code))

end ContractLens.Fetch
