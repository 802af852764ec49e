import ContractLens.Proofs.Fetch.Inquiry
/-!
# The requests of a fetch

An attempt to fetch a contract asks the published sources, then with a key the explorer, then the
node, and each of them once. It stops where it finds verified source or fails for good; a failure
after which the attempt is made again comes from the node alone, so that such an attempt has asked
everyone (`asks_resolve`).
-/

namespace ContractLens

namespace Fetch

variable [Platform] {net : Http.Network}

/-! ## What is read off answers -/

omit [Platform] in
theorem lasts_member (value : Json) (name : String) : Lasts (member value name) := by
  cases value with
  | object members => exact .ok _
  | _ => exact .error rfl

omit [Platform] in
theorem lasts_memberOr (value : Json) (name : String) (absent : Json) :
    Lasts (memberOr value name absent) := by
  cases value with
  | object members => exact .ok _
  | _ => exact .error rfl

omit [Platform] in
theorem lasts_verifiedInput (address : String) (chainId : Int) (contractName compilerVersion : Json)
    (files : List SourceFile) (abi : Json) :
    Lasts (verifiedInput address chainId contractName compilerVersion files abi) := by
  rw [verifiedInput]
  split
  · exact .ok _
  · exact .error rfl

omit [Platform] in
theorem lasts_fileOf (path : String) (content : Json) :
    Lasts (StandardJson.fileOf path content) := by
  cases content with
  | text content => exact .ok _
  | _ => exact .error rfl

omit [Platform] in
theorem lasts_publishedFiles (sources : Json) : Lasts (publishedFiles sources) := by
  rw [publishedFiles]
  split
  · refine lasts_mapM (fun entry => ?_) _
    exact lasts_fileOf entry.1 _
  · exact .error rfl

omit [Platform] in
theorem lasts_publishedInput (address : String) (chainId : Int) (value : Json)
    (files : List SourceFile) : Lasts (publishedInput address chainId value files) :=
  (lasts_member value _).bind fun _ => (lasts_member _ _).bind fun _ =>
    (lasts_member _ _).bind fun _ => (lasts_member value _).bind fun _ =>
      lasts_verifiedInput address chainId _ _ files _

omit [Platform] in
theorem lasts_explorerResult? (value : Json) : Lasts (explorerResult? value) := by
  refine (lasts_member value _).bind fun results => (lasts_member value _).bind fun status => ?_
  split <;> exact .ok _

theorem lasts_explorerAbi (described : Json) : Lasts (explorerAbi described) := by
  rw [explorerAbi]
  split
  · split
    all_goals first | exact .ok _ | exact .error rfl
  · exact .error rfl

omit [Platform] in
theorem lasts_filesOf (sources : List (String × Json)) : Lasts (StandardJson.filesOf sources) := by
  refine lasts_mapM (fun entry => ?_) sources
  have hcontent : Lasts (StandardJson.contentOf entry.2) := by
    rw [StandardJson.contentOf.eq_def]
    split
    · exact .ok _
    · split
      · exact .ok _
      · exact .error rfl
  exact hcontent.bind fun content => lasts_fileOf entry.1 content

theorem lasts_parse? (source : String) : Lasts (StandardJson.parse? source) := by
  unfold StandardJson.parse?
  split
  · exact .ok _
  · exact .error rfl
  · split
    · exact (lasts_filesOf _).map some
    · exact .ok _

theorem lasts_explorerFiles (contractName : Json) (source : String) :
    Lasts (explorerFiles contractName source) := by
  rw [explorerFiles]
  split
  · exact (lasts_parse? source).bind fun _ => .ok _
  · exact .ok _

omit [Platform] in
theorem lasts_bytecodeInput (address : String) (chainId : Int) (code : Json) :
    Lasts (bytecodeInput address chainId code) := by
  rw [bytecodeInput]
  split
  · exact .ok _
  · exact .error rfl

theorem lasts_readAnswer (url : String) (response : Http.Response) :
    Lasts (readAnswer url response) := by
  rw [readAnswer]
  split
  · exact .ok _
  · split
    all_goals first | exact .ok _ | exact .error rfl

/-! ## The places -/

/-- An inquiry whose address is none fails for good; whatever else comes of one is read without
asking more. -/
theorem takes_ask (inquiry : Inquiry) (allowAbsent : Bool) :
    Takes False [inquiry] (ask net inquiry.method inquiry.address inquiry.parameters inquiry.body
      allowAbsent) := by
  intro trace
  refine Attempt.asks_bind (Attempt.asks_lift (asks_sendTo net inquiry trace)) ?_ ?_
  case refine_1 =>
    rintro answer after asked - ⟨_, hanswer, hsent | ⟨rfl, message, rfl⟩⟩
    · cases answer with
      | error fault =>
        dsimp only
        split
        · exact (takes_pure _ after).imp fun _ => Taken.append hsent
        · rename_i hnetwork
          have hlasting : Failure.Lasting (.http fault) := by
            rw [Failure.Lasting, RetryPolicy.retries?, Failure.isFetchFailure,
              Bool.eq_false_iff.mpr hnetwork, Bool.false_and]
          exact (takes_fail hlasting after).imp fun _ => Taken.append hsent
      | ok answer =>
        dsimp only
        split
        · exact (takes_pure _ after).imp fun _ => Taken.append hsent
        · exact (takes_ofExcept (lasts_readAnswer _ _) after).imp fun _ => Taken.append hsent
    · cases hanswer
      exact asks_nothing rfl (.ended _ (begun_nil _) rfl)
  case refine_2 =>
    rintro failure asked ⟨_, hanswer, -⟩
    cases hanswer

/-- What is asked of the published sources. -/
def publishedInquiry (settings : Settings) (chainId : Int) (address : String) : Inquiry :=
  ⟨.get, publishedUrl settings chainId (Text.lowerString address),
    [("fields", "sources,abi,compilation")], none⟩

/-- What is asked of the explorer. -/
def explorerInquiry (settings : Settings) (chainId : Int) (address : String) : Inquiry :=
  ⟨.get, settings.etherscanApiUrl, explorerParameters settings chainId address, none⟩

/-- What is asked of the explorer, if there is a key. -/
def explorerInquiries (settings : Settings) (chainId : Int) (address : String) : List Inquiry :=
  if settings.etherscanApiKey.isEmpty then [] else [explorerInquiry settings chainId address]

/-- What is asked of the node. -/
def nodeInquiry (settings : Settings) (chain : Chain) (address : String) : Inquiry :=
  ⟨.post, nodeUrl settings chain, [], some (codeRequest address)⟩

variable {settings : Settings} {chainId : Int} {address : String}

omit [Platform] in
/-- A place that reports and has nothing. -/
theorem takes_note_none (entry : Log.Entry) :
    Takes False [] (do Attempt.note entry; return none : Attempt (Option VerifiedInput)) :=
  (takes_note entry).bind fun _ => takes_pure none

theorem takes_fromSourcify (net : Http.Network) (settings : Settings) (chainId : Int)
    (address : String) :
    Takes False [publishedInquiry settings chainId address]
      (fromSourcify net settings chainId address) := by
  refine (takes_ask (publishedInquiry settings chainId address) true).bind fun answer => ?_
  cases answer with
  | absent => exact takes_note_none _
  | useless reason cause => exact takes_note_none _
  | value value =>
    refine (takes_ofExcept (lasts_member value _)).bind fun found => ?_
    split
    · exact takes_pure none
    refine (takes_ofExcept ((lasts_member value _).bind lasts_publishedFiles)).bind fun files => ?_
    split
    · exact takes_note_none _
    · exact (takes_ofExcept (lasts_publishedInput _ _ value files)).bind fun _ => takes_pure _

/-- What is done with files that the explorer gave. -/
theorem takes_explored (address : String) (chainId : Int) (result name : Json)
    (files : List SourceFile) :
    Takes False [] (do
      let abi ← Attempt.ofExcept (do explorerAbi (← member result "ABI"))
      let version ← Attempt.ofExcept (memberOr result "CompilerVersion" (.text ""))
      return some (← Attempt.ofExcept
        (verifiedInput address chainId name version files abi)) :
        Attempt (Option VerifiedInput)) :=
  (takes_ofExcept ((lasts_member result _).bind lasts_explorerAbi)).bind fun abi =>
    (takes_ofExcept (lasts_memberOr result _ _)).bind fun version =>
      (takes_ofExcept (lasts_verifiedInput address chainId name version files abi)).bind
        fun _ => takes_pure _

theorem takes_fromEtherscan (net : Http.Network) (settings : Settings) (chainId : Int)
    (address : String) :
    Takes False (explorerInquiries settings chainId address)
      (fromEtherscan net settings chainId address) := by
  rw [explorerInquiries, fromEtherscan]
  split
  · exact takes_pure none
  refine (takes_ask (explorerInquiry settings chainId address) false).bind fun answer => ?_
  cases answer with
  | absent => exact takes_pure none
  | useless reason cause => exact takes_note_none _
  | value value =>
    refine (takes_ofExcept (lasts_explorerResult? value)).bind fun found => ?_
    cases found with
    | none => exact takes_pure none
    | some result =>
      refine (takes_ofExcept (lasts_memberOr result _ _)).bind fun code => ?_
      split
      · rename_i source
        split
        · exact takes_pure none
        refine (takes_ofExcept (lasts_memberOr result _ _)).bind fun name => ?_
        refine (takes_ofExcept (lasts_explorerFiles name source)).bind fun files => ?_
        dsimp only
        split
        · exact (takes_note _).bind fun _ => takes_explored address chainId result name files.1
        · exact takes_explored address chainId result name files.1
      · split
        · exact takes_pure none
        · exact takes_fail rfl

theorem takes_bytecode {chain : Chain} (hchain : Chain.ofId? chainId = some chain) :
    Takes True [nodeInquiry settings chain address] (bytecode net settings chainId address) := by
  rw [bytecode, chainOf_of_some hchain]
  refine (takes_ask (nodeInquiry settings chain address) false).bind fun answer => ?_
  cases answer with
  | absent => exact takes_pure _
  | useless reason cause => exact takes_fail_again _
  | value value =>
    refine (takes_ofExcept (lasts_member value _)).bind fun error => ?_
    split
    · exact takes_fail_again _
    · exact (takes_ofExcept (lasts_member value _)).bind fun _ => takes_pure _

/-! ## An attempt -/

/-- What is asked for verified source, in order. -/
def sourceInquiries (settings : Settings) (chainId : Int) (address : String) : List Inquiry :=
  publishedInquiry settings chainId address :: explorerInquiries settings chainId address

/-- What a full attempt asks, in order. -/
def inquiries (settings : Settings) (chain : Chain) (chainId : Int) (address : String) :
    List Inquiry :=
  sourceInquiries settings chainId address ++ [nodeInquiry settings chain address]

/-- Neither place has verified source, on this trace. -/
def Unverified (net : Http.Network) (settings : Settings) (chainId : Int) (address : String)
    (trace : Trace) : Prop :=
  ∃ after last, (fromSourcify net settings chainId address).run trace = (.ok none, after) ∧
    (fromEtherscan net settings chainId address).run after = (.ok none, last)

/-- What an attempt to fetch a contract asks, and how it ends. -/
structure Course (net : Http.Network) (settings : Settings) (chain : Chain) (chainId : Int)
    (address : String) (trace : Trace) (asked : List Http.Request)
    (result : Except Failure AnalysisInput) : Prop where
  /-- It is an attempt to fetch the contract. -/
  ended : ((resolve net settings chainId address).run trace).1 = result
  /-- It asks the places in order, each at most once. -/
  begun : Begun (inquiries settings chain chainId address) asked
  /-- If it fails for the moment, it has asked them all. -/
  again : ∀ failure, result = .error failure → RetryPolicy.retries? failure = true →
    Sent (inquiries settings chain chainId address) asked
  /-- So it has if it ends with the code. -/
  deployed : ∀ input, result = .ok (.bytecode input) →
    Sent (inquiries settings chain chainId address) asked
  /-- If it ends with verified source, it has not asked the node. -/
  verified : ∀ input, result = .ok (.verified input) →
    Begun (sourceInquiries settings chainId address) asked
  /-- It asks the node only where no place has verified source. -/
  unverified : (∃ request ∈ asked, request.method = .post) →
    Unverified net settings chainId address trace

variable {chain : Chain} {trace after : Trace} {asked : List Http.Request}
  {result : Except Failure AnalysisInput}

omit [Platform] in
/-- Places for verified source are only read. -/
theorem method_of_begun (h : Begun (sourceInquiries settings chainId address) asked) :
    ∀ request ∈ asked, request.method = .get := by
  intro request hrequest
  have hmem := h.methods.subset (List.mem_map_of_mem hrequest)
  rw [sourceInquiries, explorerInquiries] at hmem
  split at hmem
  · simpa [publishedInquiry] using hmem
  · simpa [publishedInquiry, explorerInquiry] using hmem

/-- An attempt that ends at a place for verified source. -/
theorem asks_of_begun
    (hrun : (resolve net settings chainId address).run trace = (result, after))
    (hrequests : after.requests = trace.requests ++ asked)
    (h : Begun (sourceInquiries settings chainId address) asked)
    (hresult : (∃ source, result = .ok (.verified source)) ∨
      ∃ failure, result = .error failure ∧ failure.Lasting) :
    Asks trace (Course net settings chain chainId address trace)
      ((resolve net settings chainId address).run trace) := by
  have hended := congrArg Prod.fst hrun
  rw [hrun]
  refine ⟨asked, hrequests, ?_⟩
  exact {
    ended := hended
    begun := h.append _
    again := by
      rintro failure rfl hagain
      obtain ⟨source, hsource⟩ | ⟨_, hfailure, hlasting⟩ := hresult
      · cases hsource
      · cases hfailure
        exact hlasting.elim hagain
    deployed := by
      rintro input rfl
      obtain ⟨source, hsource⟩ | ⟨_, hfailure, -⟩ := hresult
      · cases hsource
      · cases hfailure
    verified := fun _ _ => h
    unverified := by
      rintro ⟨request, hrequest, hpost⟩
      rw [method_of_begun h request hrequest] at hpost
      cases hpost }

/-- An attempt that goes on to the node. -/
theorem asks_of_sent
    (hrun : (resolve net settings chainId address).run trace = (result, after))
    (hunverified : Unverified net settings chainId address trace) {rest : List Http.Request}
    (hrequests : after.requests = trace.requests ++ (asked ++ rest))
    (h : Sent (sourceInquiries settings chainId address) asked)
    (hrest : Taken True [nodeInquiry settings chain address] rest result)
    (hcode : ∀ source, result ≠ .ok (.verified source)) :
    Asks trace (Course net settings chain chainId address trace)
      ((resolve net settings chainId address).run trace) := by
  have hended := congrArg Prod.fst hrun
  rw [hrun]
  refine ⟨asked ++ rest, hrequests, ?_⟩
  exact {
    ended := hended
    begun := by
      cases hrest with
      | returned _ hsent => exact h.append_begun hsent.begun
      | failed _ _ hsent => exact h.append_begun hsent.begun
      | ended _ hbegun _ => exact h.append_begun hbegun
    again := by
      rintro failure rfl hagain
      cases hrest with
      | failed _ _ hsent => exact h.append hsent
      | ended _ _ hlasting => exact hlasting.elim hagain
    deployed := by
      rintro input rfl
      cases hrest with
      | returned _ hsent => exact h.append hsent
    verified := fun source hsource => absurd hsource (hcode source)
    unverified := fun _ => hunverified }

/-- What an attempt does once no place has verified source. -/
def fromNode (net : Http.Network) (settings : Settings) (chainId : Int) (address : String) :
    Attempt AnalysisInput := do
  let code ← bytecode net settings chainId address
  return .bytecode (← Attempt.ofExcept (bytecodeInput address chainId code))

/-- What an attempt does after it asked the published sources. -/
def afterSourcify (net : Http.Network) (settings : Settings) (chainId : Int) (address : String) :
    Option VerifiedInput → Attempt AnalysisInput
  | some input => do
    Attempt.note (entry .info "Found verified source on Sourcify" (about address chainId))
    return .verified input
  | none => do
    match ← fromEtherscan net settings chainId address with
    | some input =>
      Attempt.note (entry .info "Found verified source on Etherscan" (about address chainId))
      return .verified input
    | none =>
      Attempt.note (entry .info "No verified source; falling back to bytecode"
        (about address chainId))
      fromNode net settings chainId address

theorem resolve_eq (hvalid : Address.isValid address = true)
    (hchain : Chain.ofId? chainId = some chain) :
    resolve net settings chainId address =
      fromSourcify net settings chainId address >>= afterSourcify net settings chainId address := by
  have haddress : Address.validate address = .ok address := if_pos hvalid
  have hok : ∀ {γ : Type} (a : γ), Attempt.ofExcept (.ok a) = pure a := fun _ => rfl
  unfold resolve
  simp only [haddress, chainOf_of_some hchain, hok, pure_bind]
  refine congrArg (fromSourcify net settings chainId address >>= ·) (funext fun found => ?_)
  cases found with
  | some input => rfl
  | none =>
    refine congrArg (fromEtherscan net settings chainId address >>= ·) (funext fun found => ?_)
    cases found <;> rfl

theorem takes_fromNode (net : Http.Network) (settings : Settings) (address : String)
    (hchain : Chain.ofId? chainId = some chain) :
    Takes True [nodeInquiry settings chain address] (fromNode net settings chainId address) :=
  (takes_bytecode hchain).bind_nil fun code =>
    (takes_ofExcept (lasts_bytecodeInput address chainId code)).bind fun _ => takes_pure _

theorem returns_fromNode (net : Http.Network) (settings : Settings) (chainId : Int)
    (address : String) :
    Returns (fromNode net settings chainId address) fun input => ∃ code, input = .bytecode code :=
  (returns_true _).bind fun _ _ => (returns_true _).bind fun code _ => returns_pure ⟨code, rfl⟩

/-- The course of an attempt that the published sources have nothing for. -/
theorem asks_of_unpublished (hvalid : Address.isValid address = true)
    (hchain : Chain.ofId? chainId = some chain)
    (hsourcify : (fromSourcify net settings chainId address).run trace = (.ok none, after))
    (hasked : after.requests = trace.requests ++ asked)
    (hsent : Sent [publishedInquiry settings chainId address] asked) :
    Asks trace (Course net settings chain chainId address trace)
      ((resolve net settings chainId address).run trace) := by
  have hfirst : (resolve net settings chainId address).run trace =
      (afterSourcify net settings chainId address none).run after := by
    rw [resolve_eq hvalid hchain]
    exact run_bind_of_ok hsourcify
  cases hetherscan : (fromEtherscan net settings chainId address).run after with
  | mk result last =>
  obtain ⟨more, hmore, htaken⟩ :=
    (takes_fromEtherscan net settings chainId address).of_run hetherscan
  rw [hasked, List.append_assoc] at hmore
  cases htaken with
  | failed _ hfalse _ => exact hfalse.elim
  | ended failure hbegun hlasting =>
    have hrun : (resolve net settings chainId address).run trace = (.error failure, last) :=
      hfirst.trans (run_bind_of_error hetherscan)
    exact asks_of_begun hrun hmore (hsent.append_begun hbegun) (.inr ⟨failure, rfl, hlasting⟩)
  | returned found hexplored =>
  have hrun := hfirst.trans (run_bind_of_ok hetherscan)
  cases found with
  | some input =>
    exact asks_of_begun (hrun.trans rfl) (hmore.trans rfl) (hsent.append hexplored).begun
      (.inl ⟨input, rfl⟩)
  | none =>
    -- the report that the node will be asked is no request
    cases hnode : (fromNode net settings chainId address).run (reported chainId address last) with
    | mk result final =>
    obtain ⟨rest, hrest, htaken⟩ :=
      (takes_fromNode net settings address hchain).of_run hnode
    replace hrest : final.requests = trace.requests ++ ((asked ++ more) ++ rest) := by
      rw [hrest, ← List.append_assoc, ← hmore]
      rfl
    refine asks_of_sent (hrun.trans hnode) ⟨after, last, hsourcify, hetherscan⟩ hrest
      (hsent.append hexplored) htaken ?_
    rintro source rfl
    obtain ⟨code, hcode⟩ := returns_fromNode net settings chainId address _ _ _ hnode
    cases hcode

/-- **An attempt takes its course.** -/
theorem asks_resolve (net : Http.Network) (settings : Settings)
    (hvalid : Address.isValid address = true) (hchain : Chain.ofId? chainId = some chain)
    (trace : Trace) :
    Asks trace (Course net settings chain chainId address trace)
      ((resolve net settings chainId address).run trace) := by
  cases hsourcify : (fromSourcify net settings chainId address).run trace with
  | mk result after =>
  obtain ⟨asked, hasked, htaken⟩ :=
    (takes_fromSourcify net settings chainId address).of_run hsourcify
  cases htaken with
  | failed _ hfalse _ => exact hfalse.elim
  | ended failure hbegun hlasting =>
    have hrun : (resolve net settings chainId address).run trace = (.error failure, after) := by
      rw [resolve_eq hvalid hchain]
      exact run_bind_of_error hsourcify
    exact asks_of_begun hrun hasked (hbegun.append _) (.inr ⟨failure, rfl, hlasting⟩)
  | returned found hsent =>
  have hrun : (resolve net settings chainId address).run trace =
      (afterSourcify net settings chainId address found).run after := by
    rw [resolve_eq hvalid hchain]
    exact run_bind_of_ok hsourcify
  cases found with
  | some input =>
    exact asks_of_begun (hrun.trans rfl) (hasked.trans rfl) (hsent.begun.append _)
      (.inl ⟨input, rfl⟩)
  | none => exact asks_of_unpublished hvalid hchain hsourcify hasked hsent

/-- An attempt on an unknown chain asks nothing and fails. -/
theorem asks_resolve_of_unknown (net : Http.Network) (settings : Settings)
    (hchain : Chain.ofId? chainId = none) (address : String) (trace : Trace) :
    Asks trace (fun asked result => asked = [] ∧ ∃ failure, result = .error failure)
      ((resolve net settings chainId address).run trace) := by
  obtain ⟨failure, hunknown⟩ : ∃ failure, chainOf chainId = .error failure := by
    rw [chainOf, hchain]
    cases numberText chainId <;> exact ⟨_, rfl⟩
  unfold resolve
  rw [hunknown, Address.validate]
  split
  · exact asks_nothing rfl ⟨rfl, _, rfl⟩
  · exact asks_nothing rfl ⟨rfl, _, rfl⟩

end Fetch

end ContractLens
