import ContractLens.Proofs.Fallible
import ContractLens.Proofs.Fetch.Shape
import ContractLens.Proofs.Settings
/-!
# Going on to the next place

A place that has no verified source for a contract is passed over, and only the node can make a
fetch fail (`degrades_resolve`). That much holds where the answers are in shape: faults of the
network, refusals and texts that are no JSON always count as nothing found, but a value in JSON that
is no object ends the fetch at the first place already (`resolve_of_no_members`).
-/

namespace ContractLens.Fetch

section Services

variable [Platform]

/-! ## Services -/

/-- A request of the given kind to an address that was read. -/
def requestTo (method : Http.Method) (url : Http.Url) (parameters : List (String × String))
    (body : Option Json) : Http.Request :=
  ⟨method, (if parameters.isEmpty then url else url.withParameters parameters).toText, body⟩

/-- The text of an answer, unless it refuses the request, is no JSON, or JSON in shape which is not
nested too deep. -/
def Shape.answers (shape : Shape) (response : Http.Response) : Bool :=
  !Http.isSuccess response.status || match response.json with
    | .ok value => shape value
    | .error .tooDeep => false
    | .error _ => true

/-- How a network answers a request, whatever was asked earlier. -/
structure Heard (net : Http.Network) (shape : Shape) (request : Http.Request) : Prop where
  /-- If it does not answer, then by its own fault. -/
  faults : ∀ earlier fault, net earlier request = .error fault → fault.isNetwork = true
  /-- Its answers are in shape. -/
  shaped : ∀ earlier response, net earlier request = .ok response → shape.answers response = true

/-- A request can be made and is answered in shape. -/
def Serves (net : Http.Network) (shape : Shape) (method : Http.Method) (address : String)
    (parameters : List (String × String)) (body : Option Json) : Prop :=
  ∃ url, Http.Url.read address = .ok url ∧ Heard net shape (requestTo method url parameters body)

/-- The places where a contract is looked up answer in shape. -/
structure Services (net : Http.Network) (settings : Settings) (chain : Chain) (chainId : Int)
    (address : String) : Prop where
  /-- The published sources do. -/
  published : Serves net Shape.published .get
    (publishedUrl settings chainId (Text.lowerString address))
    [("fields", "sources,abi,compilation")] none
  /-- With a key, the explorer does. -/
  explored : settings.etherscanApiKey.isEmpty = false → Serves net Shape.explored .get
    settings.etherscanApiUrl (explorerParameters settings chainId address) none
  /-- The node does. -/
  node : Serves net Shape.node .post (nodeUrl settings chain) [] (some (codeRequest address))

/-! ## Answers -/

variable {net : Http.Network} {settings : Settings} {chainId : Int} {address : String}

/-- An answer that, if it has a value, has one in shape. -/
def Answer.InShape (shape : Shape) (answer : Answer) : Prop :=
  ∀ value, answer = .value value → shape value = true

omit [Platform] in
theorem inShape_absent (shape : Shape) : Answer.InShape shape .absent := nofun

omit [Platform] in
theorem inShape_useless (shape : Shape) (reason : String) (cause : Failure) :
    Answer.InShape shape (.useless reason cause) := nofun

theorem meets_readAnswer {shape : Shape} (url : String) {response : Http.Response}
    (hshaped : shape.answers response = true) :
    Meets (Answer.InShape shape) (fun _ => False) (readAnswer url response) := by
  rw [readAnswer, Http.Response.accepted]
  split
  · exact inShape_useless _ _ _
  · rename_i accepted haccepted
    split at haccepted
    · rename_i hsuccess
      cases haccepted
      rw [Shape.answers, hsuccess, Bool.not_true, Bool.false_or] at hshaped
      cases hjson : response.json with
      | ok value =>
        rw [hjson] at hshaped
        intro found hfound
        cases hfound
        exact hshaped
      | error reason =>
        rw [hjson] at hshaped
        cases reason with
        | tooDeep => cases hshaped
        | _ => exact inShape_useless _ _ _
    · cases haccepted

/-- **A request never makes the attempt fail**, and what it brings is in shape. -/
theorem succeeds_ask {shape : Shape} {method : Http.Method} {url : String}
    {parameters : List (String × String)} {body : Option Json}
    (h : Serves net shape method url parameters body) (allowAbsent : Bool) :
    Succeeds (ask net method url parameters body allowAbsent) (Answer.InShape shape) := by
  obtain ⟨parsed, hparsed, hheard⟩ := h
  -- the network is asked once, and answers the one request
  have hsent : Succeeds (ExceptT.lift (Traced.sendTo net method url parameters body) : Attempt _)
      fun answer => ∃ earlier, answer = (net earlier
        (requestTo method parsed parameters body)).map fun response =>
          ((requestTo method parsed parameters body).url, response) := by
    refine ends_lift fun trace => ⟨trace.requests, ?_⟩
    rw [Traced.sendTo, hparsed]
    rfl
  refine hsent.bind ?_
  rintro answer ⟨earlier, rfl⟩
  cases hanswer : net earlier (requestTo method parsed parameters body) with
  | error fault =>
    dsimp only [Except.map]
    rw [if_pos (hheard.faults earlier fault hanswer)]
    exact ends_pure (inShape_useless _ _ _)
  | ok response =>
    dsimp only [Except.map]
    split
    · exact ends_pure (inShape_absent _)
    · exact Attempt.ends_ofExcept (meets_readAnswer _ (hheard.shaped earlier response hanswer))

/-! ## The places -/

omit [Platform] in
theorem chainOf_of_some {chain : Chain} (h : Chain.ofId? chainId = some chain) :
    chainOf chainId = .ok chain := by
  rw [chainOf, h]

/-- What a place gives has files. -/
def Filed (found : Option VerifiedInput) : Prop := ∀ input ∈ found, input.files ≠ []

omit [Platform] in
theorem filed_none : Filed none := fun _ h => absurd h (Option.not_mem_none _)

omit [Platform] in
theorem filed_some {input : VerifiedInput} (h : input.files ≠ []) : Filed (some input) :=
  fun _ hinput => Option.mem_some.mp hinput ▸ h

omit [Platform] in
/-- A place that reports and has nothing. -/
theorem succeeds_note_none (entry : Log.Entry) :
    Succeeds (do Attempt.note entry; return none : Attempt (Option VerifiedInput)) Filed :=
  (Attempt.ends_note entry).bind fun _ _ => ends_pure filed_none

/-- **The published sources never make the fetch fail.** -/
theorem succeeds_fromSourcify (h : Serves net Shape.published .get
    (publishedUrl settings chainId (Text.lowerString address))
    [("fields", "sources,abi,compilation")] none) :
    Succeeds (fromSourcify net settings chainId address) Filed := by
  refine (succeeds_ask h true).bind fun answer hanswer => ?_
  cases answer with
  | absent => exact succeeds_note_none _
  | useless reason cause => exact succeeds_note_none _
  | value value =>
    have hshape := hanswer value rfl
    simp only [Shape.published, Bool.and_eq_true, Bool.or_eq_true] at hshape
    obtain ⟨hobject, hshape⟩ := hshape
    refine Attempt.ends_ofExcept_bind (member_of_object hobject "match") ?_
    split
    · exact ends_pure filed_none
    rename_i hmatch
    rw [member_bind_of_object hobject]
    rcases hshape with (hvoid | hvoid) | ⟨⟨hsources, hcompilation⟩, habi⟩
    · exact absurd hvoid hmatch
    · refine Attempt.ends_ofExcept_bind (publishedFiles_of_isVoid hvoid) ?_
      exact succeeds_note_none _
    · obtain ⟨files, hread⟩ := exists_publishedFiles hsources
      refine Attempt.ends_ofExcept_bind hread ?_
      split
      · exact succeeds_note_none _
      · rename_i hne
        obtain ⟨input, hinput, hsame⟩ := exists_publishedInput (Text.lowerString address) chainId
          files hobject hcompilation habi
        refine Attempt.ends_ofExcept_bind hinput ?_
        refine ends_pure (filed_some ?_)
        rw [hsame]
        simpa using hne

/-- The files that the explorer gave are taken with everything else in shape. -/
theorem succeeds_explored (address : String) (chainId : Int) {result name : Json}
    {files : List SourceFile} (hfiles : files ≠ []) (hobject : Shape.object result = true)
    (hname : Shape.text name = true)
    (habi : Shape.orVoid Shape.described (result.memberOrNull "ABI") = true)
    (hversion : Shape.text ((result.member? "CompilerVersion").getD (.text "")) = true) :
    Succeeds (do
      let abi ← Attempt.ofExcept (do explorerAbi (← member result "ABI"))
      let version ← Attempt.ofExcept (memberOr result "CompilerVersion" (.text ""))
      return some (← Attempt.ofExcept
        (verifiedInput address chainId name version files abi)) : Attempt (Option VerifiedInput))
      Filed := by
  obtain ⟨abi, hread, hobjects⟩ := exists_explorerAbi habi
  rw [member_bind_of_object hobject]
  refine Attempt.ends_ofExcept_bind hread ?_
  refine Attempt.ends_ofExcept_bind (memberOr_of_object hobject _ _) ?_
  obtain ⟨input, hinput, hsame⟩ :=
    exists_verifiedInput address chainId files hname hversion hobjects
  refine Attempt.ends_ofExcept_bind hinput ?_
  exact ends_pure (filed_some (hsame ▸ hfiles))

/-- Without a key the explorer is not asked. -/
theorem fromEtherscan_of_no_key (h : settings.etherscanApiKey.isEmpty = true) :
    fromEtherscan net settings chainId address = pure none := by
  rw [fromEtherscan, if_pos h]

/-- **The explorer never makes the fetch fail.** -/
theorem succeeds_fromEtherscan (h : settings.etherscanApiKey.isEmpty = false →
    Serves net Shape.explored .get settings.etherscanApiUrl
      (explorerParameters settings chainId address) none) :
    Succeeds (fromEtherscan net settings chainId address) Filed := by
  rw [fromEtherscan]
  split
  · exact ends_pure filed_none
  rename_i hkey
  refine (succeeds_ask (h (Bool.eq_false_iff.mpr hkey)) false).bind fun answer hanswer => ?_
  cases answer with
  | absent => exact ends_pure filed_none
  | useless reason cause => exact succeeds_note_none _
  | value value =>
    obtain ⟨found, hfound, hfirst⟩ := exists_explorerResult? (hanswer value rfl)
    refine Attempt.ends_ofExcept_bind hfound ?_
    cases found with
    | none => exact ends_pure filed_none
    | some result =>
      have hshape := hfirst result rfl
      rw [Shape.result, Bool.and_eq_true] at hshape
      obtain ⟨hobject, hshape⟩ := hshape
      refine Attempt.ends_ofExcept_bind (memberOr_of_object hobject _ _) ?_
      cases hcode : (result.member? "SourceCode").getD (.text "") with
      | text source =>
        rw [hcode] at hshape
        dsimp only
        split
        · exact ends_pure filed_none
        rename_i hne
        simp only [Bool.or_eq_true, Bool.and_eq_true] at hshape
        obtain ⟨⟨⟨hsource, hname⟩, habi⟩, hversion⟩ := hshape.resolve_left hne
        refine Attempt.ends_ofExcept_bind (memberOr_of_object hobject _ _) ?_
        obtain ⟨files, unparsed, hread, hfiles⟩ := exists_explorerFiles
          ((result.member? "ContractName").getD (.text "")) hsource
        refine Attempt.ends_ofExcept_bind hread ?_
        have hexplored := succeeds_explored address chainId hfiles hobject hname habi hversion
        dsimp only
        -- a source that could not be taken apart is reported, and goes on like any other
        split
        · exact (Attempt.ends_note _).bind fun _ _ => hexplored
        · exact hexplored
      | _ =>
        rw [hcode] at hshape
        dsimp only
        rw [if_pos hshape]
        exact ends_pure filed_none

/-- **A node makes the fetch fail in one way only**, and gives a text otherwise. -/
theorem ends_bytecode {chain : Chain} (hchain : Chain.ofId? chainId = some chain)
    (h : Serves net Shape.node .post (nodeUrl settings chain) [] (some (codeRequest address))) :
    Ends (bytecode net settings chainId address) (fun code => Shape.text code = true)
      fun failure => ∃ message cause, failure = .sourceFetch message cause := by
  refine Attempt.ends_ofExcept_bind (chainOf_of_some hchain) ?_
  refine (succeeds_ask h false).ends.bind fun answer hanswer => ?_
  cases answer with
  | absent => exact ends_pure rfl
  | useless reason cause => exact Attempt.ends_fail ⟨_, _, rfl⟩
  | value value =>
    have hshape := hanswer value rfl
    simp only [Shape.node, Bool.and_eq_true, Bool.or_eq_true] at hshape
    obtain ⟨hobject, hshape⟩ := hshape
    refine Attempt.ends_ofExcept_bind (member_of_object hobject "error") ?_
    dsimp only
    split
    · exact Attempt.ends_fail ⟨_, _, rfl⟩
    · rename_i hvoid
      refine Attempt.ends_ofExcept_bind (member_of_object hobject "result") ?_
      exact ends_pure (shape_orElse (hshape.resolve_left hvoid) rfl)

/-! ## All three -/

/-- The trace after the report that the node will be asked. -/
def reported (chainId : Int) (address : String) (trace : Trace) : Trace :=
  ((Attempt.note (entry .info "No verified source; falling back to bytecode"
    (about address chainId))).run trace).2

/-- How a fetch ends: with the first verified source in the order of the places, else with the code
from the node, else with the node's failure. -/
inductive Degrades (net : Http.Network) (settings : Settings) (chainId : Int) (address : String)
    (trace : Trace) : Except Failure AnalysisInput → Prop
  /-- The published sources have the contract. -/
  | published {input : VerifiedInput} {after : Trace} :
      (fromSourcify net settings chainId address).run trace = (.ok (some input), after) →
      input.files ≠ [] → Degrades net settings chainId address trace (.ok (.verified input))
  /-- They do not; there is a key to the explorer, which has it. -/
  | explored {input : VerifiedInput} {after last : Trace} :
      (fromSourcify net settings chainId address).run trace = (.ok none, after) →
      settings.etherscanApiKey.isEmpty = false →
      (fromEtherscan net settings chainId address).run after = (.ok (some input), last) →
      input.files ≠ [] → Degrades net settings chainId address trace (.ok (.verified input))
  /-- Neither has it, and the node gives the code. -/
  | deployed {code : String} {after last final : Trace} :
      (fromSourcify net settings chainId address).run trace = (.ok none, after) →
      (fromEtherscan net settings chainId address).run after = (.ok none, last) →
      (bytecode net settings chainId address).run (reported chainId address last) =
        (.ok (.text code), final) →
      Degrades net settings chainId address trace (.ok (.bytecode ⟨address, chainId, code⟩))
  /-- Nor does the node. -/
  | failed {message : String} {cause : Option Failure} {after last final : Trace} :
      (fromSourcify net settings chainId address).run trace = (.ok none, after) →
      (fromEtherscan net settings chainId address).run after = (.ok none, last) →
      (bytecode net settings chainId address).run (reported chainId address last) =
        (.error (.sourceFetch message cause), final) →
      Degrades net settings chainId address trace (.error (.sourceFetch message cause))

/-- **A fetch goes on to the next place**, where the answers are in shape: whatever the statuses,
texts and faults, the first place that yields verified source decides, then the node, and no failure
comes from anywhere else. -/
theorem degrades_resolve {chain : Chain} (hvalid : Address.isValid address = true)
    (hchain : Chain.ofId? chainId = some chain)
    (h : Services net settings chain chainId address) (trace : Trace) :
    Degrades net settings chainId address trace
      ((resolve net settings chainId address).run trace).1 := by
  have haddress : Address.validate address = .ok address := if_pos hvalid
  obtain ⟨found, after, hsourcify, hfiled⟩ :=
    Succeeds.exists_run (succeeds_fromSourcify h.published) trace
  unfold resolve
  rw [haddress, chainOf_of_some hchain]
  simp only [Attempt.ofExcept, pure_bind, run_bind, hsourcify]
  cases found with
  | some input => exact .published hsourcify (hfiled input rfl)
  | none =>
    obtain ⟨found, last, hetherscan, hfiled⟩ :=
      Succeeds.exists_run (succeeds_fromEtherscan h.explored) after
    simp only [run_bind, hetherscan]
    cases found with
    | some input =>
      have hkey : settings.etherscanApiKey.isEmpty = false := by
        refine Bool.eq_false_iff.mpr fun hempty => ?_
        rw [fromEtherscan_of_no_key hempty] at hetherscan
        cases hetherscan
      exact .explored hsourcify hkey hetherscan (hfiled input rfl)
    | none =>
      have hreported : (Attempt.note (entry .info "No verified source; falling back to bytecode"
          (about address chainId))).run last = (.ok (), reported chainId address last) := rfl
      simp only [run_bind, hreported]
      rcases (ends_bytecode hchain h.node).exists_run (reported chainId address last) with
        ⟨code, final, hnode, htext⟩ | ⟨failure, final, hnode, message, cause, rfl⟩
      · obtain ⟨code, rfl⟩ := Shape.exists_text htext
        rw [hnode]
        exact .deployed hsourcify hetherscan hnode
      · rw [hnode]
        exact .failed hsourcify hetherscan hnode

end Services

/-- A network where every read brings the same text, and every contract has one code. -/
def answeringNetwork (answer : String) : Http.Network := fun _ request =>
  match request.method with
  | .get => .ok ⟨200, [], answer⟩
  | .post => .ok ⟨200, [], "\x7b\"result\":\"0x6000\"\x7d"⟩

/-- The usual settings with a key to the explorer. -/
def keyedSettings : Settings := { Settings.usual with etherscanApiKey := "key" }

/-- The address of a contract. -/
def somewhere : String := "0x00000000000000000000000000000000000000aa"

theorem heard_get {answer : String} {shape : Shape} (h : shape.answers ⟨200, [], answer⟩ = true)
    (url : Http.Url) (parameters : List (String × String)) (body : Option Json) :
    Heard (answeringNetwork answer) shape (requestTo .get url parameters body) where
  faults := fun _ _ hfault => nomatch hfault
  shaped := fun _ _ hresponse => Except.ok.inj hresponse ▸ h

theorem heard_post (answer : String) (url : Http.Url) (parameters : List (String × String))
    (body : Option Json) :
    Heard (answeringNetwork answer) Shape.node (requestTo .post url parameters body) where
  faults := fun _ _ hfault => nomatch hfault
  shaped := fun _ _ hresponse => Except.ok.inj hresponse ▸ by decide +kernel

/-- Where both places answer with a text that is no JSON, the fetch goes on to the node. -/
theorem degrades_resolve_somewhere :
    Degrades (answeringNetwork "not found") keyedSettings 1 somewhere {}
      ((resolve (answeringNetwork "not found") keyedSettings 1 somewhere).run {}).1 := by
  have hpublished : Shape.published.answers ⟨200, [], "not found"⟩ = true := by decide +kernel
  have hexplored : Shape.explored.answers ⟨200, [], "not found"⟩ = true := by decide +kernel
  refine degrades_resolve (by decide) rfl ⟨?_, fun _ => ?_, ?_⟩ {}
  · exact ⟨_, rfl, heard_get hpublished _ _ _⟩
  · exact ⟨_, rfl, heard_get hexplored _ _ _⟩
  · exact ⟨_, rfl, heard_post _ _ _ _⟩

/-! ## Values out of shape -/

section Values

variable [Platform] {net : Http.Network} {settings : Settings} {chainId : Int} {address : String}

/-- A request that is answered with a value brings it. -/
theorem run_ask_of_value {method : Http.Method} {parameters : List (String × String)}
    {body : Option Json} {trace : Trace} {url : Http.Url} {response : Http.Response} {value : Json}
    (hurl : Http.Url.read address = .ok url)
    (hanswer : net trace.requests (requestTo method url parameters body) = .ok response)
    (hsuccess : Http.isSuccess response.status = true) (hjson : response.json = .ok value)
    (allowAbsent : Bool) :
    ∃ after, (ask net method address parameters body allowAbsent).run trace =
      (.ok (.value value), after) := by
  have hsent : ∃ after, (ExceptT.lift (Traced.sendTo net method address parameters body) :
      Attempt _).run trace =
        (.ok (.ok ((requestTo method url parameters body).url, response)), after) := by
    refine ⟨{ trace with
      requests := trace.requests ++ [requestTo method url parameters body] }, ?_⟩
    rw [Traced.sendTo, hurl]
    show (Except.ok ((net trace.requests (requestTo method url parameters body)).map _), _) = _
    rw [hanswer]
    rfl
  have hfound : (response.status == 404) = false := by
    refine Bool.eq_false_iff.mpr fun heq => ?_
    rw [eq_of_beq heq] at hsuccess
    exact absurd hsuccess (by decide)
  have hread : ∀ sent, readAnswer sent response = .ok (.value value) := by
    intro sent
    rw [readAnswer, Http.Response.accepted, if_pos hsuccess]
    dsimp only
    rw [hjson]
  obtain ⟨after, hsent⟩ := hsent
  refine ⟨after, ?_⟩
  rw [ask, run_bind, hsent]
  dsimp only
  rw [hfound, Bool.and_false, hread]
  rfl

/-- **A value without members ends the fetch at the published sources**, whatever the other places
have. -/
theorem resolve_of_no_members {trace : Trace} {url : Http.Url} {response : Http.Response}
    {value : Json} (hvalid : Address.isValid address = true)
    (hchain : (Chain.ofId? chainId).isSome = true)
    (hurl : Http.Url.read (publishedUrl settings chainId (Text.lowerString address)) = .ok url)
    (hanswer : net trace.requests (requestTo .get url
      [("fields", "sources,abi,compilation")] none) = .ok response)
    (hsuccess : Http.isSuccess response.status = true) (hjson : response.json = .ok value)
    (hobject : Shape.object value = false) :
    ((resolve net settings chainId address).run trace).1 = .error .noMembers := by
  have haddress : Address.validate address = .ok address := if_pos hvalid
  obtain ⟨chain, hchain⟩ := Option.isSome_iff_exists.mp hchain
  have hmember : member value "match" = .error .noMembers := by
    cases value with
    | object members => cases hobject
    | _ => rfl
  obtain ⟨after, hask⟩ := run_ask_of_value hurl hanswer hsuccess hjson true
  have hsourcify : (fromSourcify net settings chainId address).run trace =
      (.error .noMembers, after) := by
    rw [fromSourcify, run_bind, hask]
    dsimp only
    rw [hmember]
    rfl
  unfold resolve
  rw [haddress, chainOf_of_some hchain]
  simp only [Attempt.ofExcept, pure_bind, run_bind, hsourcify]

end Values

/-- **A list for an answer ends the fetch**, although the node has the code. -/
theorem resolve_of_list :
    Address.isValid somewhere = true ∧ (Chain.ofId? 1).isSome = true ∧
      ((resolve (answeringNetwork "[]") Settings.usual 1 somewhere).run {}).1 =
        .error .noMembers := by
  refine ⟨by decide, by decide, ?_⟩
  exact resolve_of_no_members (by decide) (by decide) rfl rfl (by decide) rfl rfl

end ContractLens.Fetch
