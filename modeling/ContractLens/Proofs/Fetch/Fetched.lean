import ContractLens.Fetch.Resolve
import ContractLens.Proofs.Fallible
import ContractLens.Proofs.Fetch.Address
import ContractLens.Proofs.Json.Size
import ContractLens.Proofs.Source.Size
/-!
# What a fetch gives

Whatever place the contract at an address is found in, the input that a fetch gives is for the chain
that was asked for and for a spelling of the address (`returns_resolve`): one place gives the
address in small letters, the others as it was given. On a network whose answers are not absurdly
long the input is not absurdly large either.
-/

namespace ContractLens

/-- The answers of a network are texts that memory can hold. -/
def Http.Fits (net : Http.Network) : Prop :=
  ∀ earlier request response, net earlier request = .ok response → response.body.length < 2 ^ 63

open Json SourceFile

/-! ## Parts of an answer -/

theorem StandardJson.of_fileOf {path : String} {value : Json} {file : SourceFile}
    (h : fileOf path value = .ok file) : file.path = path ∧ value = .text file.content := by
  cases value with
  | text content =>
    cases h
    exact ⟨rfl, rfl⟩
  | _ => cases h

/-- Files that are made of the members of an object are no heavier than the members. -/
theorem weight_of_mapM {read : String × Json → Except Failure SourceFile}
    (hread : ∀ member file, read member = .ok file →
      file.path = member.1 ∧ file.content.length ≤ member.2.size)
    {members : List (String × Json)} {files : List SourceFile}
    (h : members.mapM read = .ok files) : weight files ≤ sizeMembers members := by
  induction members generalizing files with
  | nil =>
    cases h
    exact Nat.le_refl _
  | cons member members ih =>
    rw [List.mapM_cons] at h
    cases hfile : read member with
    | error failure =>
      rw [hfile] at h
      cases h
    | ok file =>
      rw [hfile] at h
      cases hrest : members.mapM read with
      | error failure =>
        simp only [hrest] at h
        cases h
      | ok rest =>
        simp only [hrest] at h
        cases h
        obtain ⟨hpath, hcontent⟩ := hread member file hfile
        have hweight := ih hrest
        rw [weight_cons, sizeMembers, hpath]
        omega

namespace StandardJson

theorem length_unwrap (cs : List Char) : (unwrap cs).length ≤ cs.length := by
  rw [unwrap]
  split
  · rw [List.length_dropLast, List.length_drop]
    omega
  · exact Nat.le_refl _

theorem size_contentOf {value content : Json} (h : contentOf value = .ok content) :
    content.size ≤ value.size := by
  rw [contentOf.eq_def] at h
  split at h
  · rename_i members
    cases h
    cases hfound : Table.get? members "content" with
    | none => exact Nat.zero_le _
    | some found => exact size_of_get? hfound
  · split at h
    · cases h
      exact Nat.zero_le _
    · cases h

theorem weight_filesOf {sources : List (String × Json)} {files : List SourceFile}
    (h : filesOf sources = .ok files) : weight files ≤ sizeMembers sources := by
  refine weight_of_mapM (fun member file hfile => ?_) h
  cases hcontent : contentOf member.2 with
  | error failure =>
    simp only [hcontent] at hfile
    cases hfile
  | ok content =>
    simp only [hcontent] at hfile
    obtain ⟨hpath, htext⟩ := of_fileOf hfile
    have hsize := size_contentOf hcontent
    rw [htext] at hsize
    exact ⟨hpath, hsize⟩

/-- The files in a text are no heavier than the text. -/
theorem weight_parse? [Platform] {source : String} {files : List SourceFile}
    (h : parse? source = .ok (some files)) : weight files ≤ source.length := by
  unfold parse? at h
  split at h
  · cases h
  · cases h
  · rename_i value hread
    split at h
    · rename_i sources hsources
      cases hfiles : filesOf sources with
      | error failure =>
        rw [hfiles] at h
        cases h
      | ok found =>
        rw [hfiles] at h
        cases h
        have hsize := size_read hread
        have htext := length_unwrap (Text.trim source.toList)
        have htrim := Text.length_trimBy Text.isBlank source.toList
        rw [String.length_ofList] at hsize
        rw [String.length_toList, ← Text.trim] at htrim
        have hmember : sizeMembers sources ≤ value.size := by
          cases value with
          | object members => exact size_of_get? hsources
          | _ => cases hsources
        have hweight := weight_filesOf hfiles
        omega
    · cases h

end StandardJson

namespace Fetch

theorem size_member {value found : Json} {name : String} (h : member value name = .ok found) :
    found.size ≤ value.size := by
  cases value with
  | object members =>
    cases h
    cases hfound : Table.get? members name with
    | none => exact Nat.zero_le _
    | some found => exact size_of_get? hfound
  | _ => cases h

theorem size_memberOr {value absent found : Json} {name : String}
    (h : memberOr value name absent = .ok found) : found.size ≤ value.size + absent.size := by
  cases value with
  | object members =>
    cases h
    cases hfound : Table.get? members name with
    | none => exact Nat.le_add_left _ _
    | some found => exact Nat.le_trans (size_of_get? hfound) (Nat.le_add_right _ _)
  | _ => cases h

theorem size_orElse (value absent : Json) :
    (orElse value absent).size ≤ value.size + absent.size := by
  rw [orElse, filled?]
  split
  · exact Nat.le_add_left _ _
  · exact Nat.le_add_right _ _

/-! ## Requests -/

variable {net : Http.Network}

theorem size_json [Platform] {response : Http.Response} {value : Json}
    (h : response.json = .ok value) : value.size ≤ response.body.length := by
  rw [Http.Response.json] at h
  refine Nat.le_trans (size_readWithin h) ?_
  rw [← String.length_toList]
  split
  · rw [List.length_drop]
    exact Nat.sub_le _ _
  · exact Nat.le_refl _

theorem fits_sendTo (hnet : Http.Fits net) {method : Http.Method} {address : String}
    {parameters : List (String × String)} {body : Option Json} {trace : Trace} {url : String}
    {response : Http.Response}
    (h : ((Traced.sendTo net method address parameters body).run trace).1 = .ok (url, response)) :
    response.body.length < 2 ^ 63 := by
  rw [Traced.sendTo] at h
  split at h
  · cases h
  · rename_i parsed _
    -- which address the request goes to is of no matter
    generalize (if parameters.isEmpty then parsed else parsed.withParameters parameters).toText =
      sent at h
    have h : (net trace.requests ⟨method, sent, body⟩).map (fun answer => (sent, answer)) =
        .ok (url, response) := h
    cases hanswer : net trace.requests ⟨method, sent, body⟩ with
    | error fault =>
      rw [hanswer] at h
      cases h
    | ok answer =>
      rw [hanswer] at h
      cases h
      exact hnet _ _ _ hanswer

/-- The value of an answer, if it has one, is not absurdly large. -/
def Answer.Fits (answer : Answer) : Prop := ∀ value, answer = .value value → value.size < 2 ^ 63

theorem fits_readAnswer [Platform] {url : String} {response : Http.Response}
    (hfits : response.body.length < 2 ^ 63) {answer : Answer}
    (h : readAnswer url response = .ok answer) : answer.Fits := by
  intro value hvalue
  rw [readAnswer] at h
  split at h
  · cases h
    cases hvalue
  · rename_i accepted haccepted
    have hsame : accepted = response := by
      rw [Http.Response.accepted] at haccepted
      split at haccepted
      · exact (Except.ok.inj haccepted).symm
      · cases haccepted
    split at h
    · rename_i found hfound
      cases h
      cases hvalue
      rw [hsame] at hfound
      exact Nat.lt_of_le_of_lt (size_json hfound) hfits
    · cases h
    · cases h
      cases hvalue

theorem returns_ask [Platform] (net : Http.Network) (method : Http.Method) (url : String)
    (parameters : List (String × String)) (body : Option Json) (allowAbsent : Bool) :
    Returns (ask net method url parameters body allowAbsent) fun answer =>
      Http.Fits net → answer.Fits := by
  refine Returns.bind (returns_lift (fun answer => Http.Fits net → ∀ url response,
    answer = .ok (url, response) → response.body.length < 2 ^ 63) fun trace hnet url response heq =>
      fits_sendTo hnet heq) fun answer hanswer => ?_
  cases answer with
  | error fault =>
    dsimp only
    split
    · exact returns_pure fun _ _ hvalue => nomatch hvalue
    · exact Attempt.returns_fail _
  | ok found =>
    obtain ⟨url, response⟩ := found
    dsimp only
    split
    · exact returns_pure fun _ _ hvalue => nomatch hvalue
    · exact Attempt.returns_ofExcept _ fun answer h hnet =>
        fits_readAnswer (hanswer hnet url response rfl) h

/-! ## Inputs -/

/-- The address of the contract that is analysed. -/
def inputAddress : AnalysisInput → String
  | .verified input => input.address
  | .bytecode input => input.address

/-- The chain of the contract that is analysed. -/
def inputChain : AnalysisInput → Int
  | .verified input => input.chainId
  | .bytecode input => input.chainId

/-- An input that is not absurdly large. -/
def Small : AnalysisInput → Prop
  | .verified input => SourceFile.Small input.files
  | .bytecode input => input.bytecodeHex.length < 10 ^ 40

/-- What the fetch of the contract at an address promises of its input. -/
structure Fetched (net : Http.Network) (chainId : Int) (address : String)
    (input : AnalysisInput) : Prop where
  /-- It is for the chain that was asked for. -/
  chainId : inputChain input = chainId
  /-- It is for the address, in some spelling. -/
  address : Text.lowerString (inputAddress input) = Text.lowerString address
  /-- It is not absurdly large if no answer of the network is. -/
  small : Http.Fits net → Small input

theorem of_verifiedInput {address : String} {chainId : Int} {contractName compilerVersion : Json}
    {files : List SourceFile} {abi : Json} {input : VerifiedInput}
    (h : verifiedInput address chainId contractName compilerVersion files abi = .ok input) :
    input.address = address ∧ input.chainId = chainId ∧ input.files = files ∧
      ∃ name, contractName = .text name := by
  rw [verifiedInput] at h
  split at h
  · rename_i found hfound
    cases h
    obtain ⟨withAbi, abi, hversion, -, rfl⟩ := Schema.Checked.seq_eq_accepted hfound
    obtain ⟨withVersion, version, hname, -, rfl⟩ := Schema.Checked.seq_eq_accepted hversion
    obtain ⟨name, htext, rfl⟩ := Schema.Checked.map_eq_accepted hname
    exact ⟨rfl, rfl, rfl, name,
      Schema.text_eq_accepted (Schema.Checked.under_eq_accepted htext)⟩
  · cases h

/-! ## Published sources -/

theorem weight_publishedFiles {sources : Json} {files : List SourceFile}
    (h : publishedFiles sources = .ok files) : weight files ≤ sources.size := by
  have hsize := size_orElse sources (.object [])
  rw [publishedFiles] at h
  split at h
  · rename_i members hmembers
    rw [hmembers] at hsize
    refine Nat.le_trans (weight_of_mapM (fun member file hfile => ?_) h) hsize
    obtain ⟨hpath, htext⟩ := StandardJson.of_fileOf hfile
    have hcontent := size_orElse member.2 (.text "")
    rw [htext] at hcontent
    exact ⟨hpath, hcontent⟩
  · cases h

theorem of_publishedInput {address : String} {chainId : Int} {value : Json}
    {files : List SourceFile} {input : VerifiedInput}
    (h : publishedInput address chainId value files = .ok input) :
    input.address = address ∧ input.chainId = chainId ∧ input.files = files := by
  simp only [publishedInput, bind, Except.bind] at h
  split at h
  · cases h
  split at h
  · cases h
  split at h
  · cases h
  split at h
  · cases h
  obtain ⟨haddress, hchain, hfiles, -⟩ := of_verifiedInput h
  exact ⟨haddress, hchain, hfiles⟩

theorem small_of_weight {files : List SourceFile} (h : weight files < 2 ^ 66) :
    SourceFile.Small files :=
  Nat.lt_trans h (by decide)

/-- What a place promises of the verified source it gives, if it gives any. -/
def Found (net : Http.Network) (chainId : Int) (address : String)
    (found : Option VerifiedInput) : Prop :=
  ∀ input ∈ found, Fetched net chainId address (.verified input)

theorem found_none (net : Http.Network) (chainId : Int) (address : String) :
    Found net chainId address none :=
  fun _ h => absurd h (Option.not_mem_none _)

theorem returns_fromSourcify [Platform] (net : Http.Network) (settings : Settings) (chainId : Int)
    {address : String} (hvalid : Address.isValid address = true) :
    Returns (fromSourcify net settings chainId address) (Found net chainId address) := by
  refine (returns_ask net _ _ _ _ _).bind fun answer hanswer => ?_
  cases answer with
  | absent => exact (returns_true _).bind fun _ _ => returns_pure (found_none _ _ _)
  | useless reason cause => exact (returns_true _).bind fun _ _ => returns_pure (found_none _ _ _)
  | value value =>
    refine (returns_true _).bind fun matched _ => ?_
    split
    · exact returns_pure (found_none _ _ _)
    refine (Attempt.returns_ofExcept (fun files => weight files ≤ value.size)
      fun files hfiles => ?_).bind fun files hfiles => ?_
    · cases hsources : member value "sources" with
      | error failure =>
        rw [hsources] at hfiles
        cases hfiles
      | ok sources =>
        rw [hsources] at hfiles
        exact Nat.le_trans (weight_publishedFiles hfiles) (size_member hsources)
    · split
      · exact (returns_true _).bind fun _ _ => returns_pure (found_none _ _ _)
      refine (Attempt.returns_ofExcept (fun input =>
        Fetched net chainId address (.verified input)) fun input hinput => ?_).bind fun input h =>
          returns_pure fun other hother => Option.mem_some.mp hother ▸ h
      obtain ⟨haddress, hchain, rfl⟩ := of_publishedInput hinput
      refine ⟨hchain, ?_, fun hnet => ?_⟩
      -- this place alone is asked, and answers, in small letters
      · rw [inputAddress, haddress, Address.lowerString_lowerString hvalid]
      · have hvalue := hanswer hnet value rfl
        exact small_of_weight (Nat.lt_of_le_of_lt hfiles (by omega))

/-! ## The explorer -/

theorem length_display_orElse (name absent : String) :
    ((orElse (.text name) (.text absent)).display).length ≤ name.length + absent.length := by
  rw [orElse, filled?]
  split
  · exact Nat.le_add_left _ _
  · exact Nat.le_add_right _ _

/-- A single file is named by the contract. -/
theorem weight_single (name source : String) :
    weight [⟨(orElse (.text name) (.text "Contract")).display ++ ".sol", source⟩] ≤
      name.length + source.length + 13 := by
  have hname := length_display_orElse name "Contract"
  have hcontract : "Contract".length = 8 := by decide
  have hending : ".sol".length = 4 := by decide
  rw [hcontract] at hname
  rw [weight_cons]
  simp only [String.length_append, hending, weight, List.map_nil, List.sum_nil]
  omega

theorem weight_explorerFiles [Platform] {name source : String} {files : List SourceFile}
    {unparsed : Bool} (h : explorerFiles (.text name) source = .ok (files, unparsed)) :
    weight files ≤ name.length + source.length + 13 := by
  have hsingle := weight_single name source
  rw [explorerFiles] at h
  split at h
  · cases hparsed : StandardJson.parse? source with
    | error failure =>
      rw [hparsed] at h
      cases h
    | ok found =>
      rw [hparsed] at h
      cases h
      cases found with
      | none => exact hsingle
      | some several =>
        have hseveral := StandardJson.weight_parse? hparsed
        rw [Option.getD_some]
        split
        · exact hsingle
        · omega
  · cases h
    exact hsingle

theorem size_explorerResult? {value result : Json}
    (h : explorerResult? value = .ok (some result)) : result.size ≤ value.size := by
  rw [explorerResult?] at h
  cases hresults : member value "result" with
  | error failure =>
    rw [hresults] at h
    cases h
  | ok results =>
    have hsize := size_member hresults
    rw [hresults] at h
    cases hstatus : member value "status" with
    | error failure =>
      simp only [hstatus] at h
      cases h
    | ok status =>
      simp only [hstatus, bind, Except.bind] at h
      split at h
      · rename_i first rest
        cases h
        refine Nat.le_trans ?_ hsize
        rw [size_list, sizeItems]
        omega
      · cases h

/-- The files that the explorer gives are taken with the address as it was given. -/
theorem returns_explored [Platform] (net : Http.Network) (address : String) (chainId : Int)
    {name : Json} {source : String} {files : List SourceFile} {unparsed : Bool}
    (hfiles : explorerFiles name source = .ok (files, unparsed))
    (hfits : Http.Fits net → name.size < 2 ^ 63 ∧ source.length < 2 ^ 63) (version abi : Json) :
    Returns (do
      let input ← Attempt.ofExcept (verifiedInput address chainId name version files abi)
      return some input) (Found net chainId address) := by
  refine (Attempt.returns_ofExcept (fun input =>
    Fetched net chainId address (.verified input)) fun input hinput => ?_).bind fun input h =>
      returns_pure fun other hother => Option.mem_some.mp hother ▸ h
  -- an input is only made if the name is a text, whose length then counts for the files
  obtain ⟨haddress, hchain, rfl, text, rfl⟩ := of_verifiedInput hinput
  have hweight := weight_explorerFiles hfiles
  rw [size_text] at hfits
  refine ⟨hchain, congrArg Text.lowerString haddress, fun hnet => small_of_weight ?_⟩
  have hboth := hfits hnet
  omega

theorem returns_ofMember (value : Json) (name : String) :
    Returns (Attempt.ofExcept (memberOr value name (.text ""))) fun found =>
      found.size ≤ value.size :=
  Attempt.returns_ofExcept _ fun _ h => size_memberOr h

theorem returns_fromEtherscan [Platform] (net : Http.Network) (settings : Settings)
    (chainId : Int) (address : String) :
    Returns (fromEtherscan net settings chainId address) (Found net chainId address) := by
  rw [fromEtherscan]
  split
  · exact returns_pure (found_none _ _ _)
  refine (returns_ask net _ _ _ _ _).bind fun answer hanswer => ?_
  cases answer with
  | absent => exact returns_pure (found_none _ _ _)
  | useless reason cause => exact (returns_true _).bind fun _ _ => returns_pure (found_none _ _ _)
  | value value =>
    refine (Attempt.returns_ofExcept (fun result => ∀ r ∈ result, r.size ≤ value.size)
      fun result h r hr => size_explorerResult? (Option.mem_def.mp hr ▸ h)).bind
        fun result hresult => ?_
    cases result with
    | none => exact returns_pure (found_none _ _ _)
    | some result =>
      have hresult := hresult result rfl
      refine (Attempt.returns_ofExcept (fun source => source.size ≤ value.size)
        fun source h => ?_).bind fun source hsource => ?_
      · exact Nat.le_trans (size_memberOr h) hresult
      split
      · rename_i source
        split
        · exact returns_pure (found_none _ _ _)
        refine (returns_ofMember result "ContractName").bind fun name hname => ?_
        refine (Attempt.returns_ofExcept (fun found =>
          explorerFiles name source = .ok found) fun _ h => h).bind fun found hfound => ?_
        obtain ⟨files, unparsed⟩ := found
        have hexplored := returns_explored net address chainId hfound fun hnet =>
          have hvalue := hanswer hnet value rfl
          ⟨by omega, Nat.lt_of_le_of_lt hsource hvalue⟩
        dsimp only
        -- a source that could not be taken apart is reported, and goes on like any other
        split
        · exact (returns_true _).bind fun _ _ => (returns_true _).bind fun abi _ =>
            (returns_true _).bind fun version _ => hexplored version abi
        · exact (returns_true _).bind fun abi _ =>
            (returns_true _).bind fun version _ => hexplored version abi
      · split
        · exact returns_pure (found_none _ _ _)
        · exact Attempt.returns_fail _

/-! ## The node -/

theorem returns_bytecode [Platform] (net : Http.Network) (settings : Settings) (chainId : Int)
    (address : String) :
    Returns (bytecode net settings chainId address) fun code =>
      Http.Fits net → code.size < 2 ^ 64 := by
  have hnothing : (Json.text "0x").size < 2 ^ 64 := by decide
  refine (returns_true _).bind fun chain _ => ?_
  refine (returns_ask net _ _ _ _ _).bind fun answer hanswer => ?_
  cases answer with
  | absent => exact returns_pure fun _ => hnothing
  | useless reason cause => exact Attempt.returns_fail _
  | value value =>
    refine (returns_true _).bind fun error _ => ?_
    split
    · exact Attempt.returns_fail _
    refine (Attempt.returns_ofExcept (fun result => result.size ≤ value.size)
      fun _ h => size_member h).bind fun result hresult => ?_
    have hsize := size_orElse result (.text "0x")
    have htwo : (Json.text "0x").size = 2 := by decide
    refine returns_pure fun hnet => ?_
    have hvalue := hanswer hnet value rfl
    omega

theorem fetched_bytecodeInput {address : String} {chainId : Int} {code : Json}
    (hcode : Http.Fits net → code.size < 2 ^ 64) {input : BytecodeInput}
    (h : bytecodeInput address chainId code = .ok input) :
    Fetched net chainId address (.bytecode input) := by
  rw [bytecodeInput] at h
  split at h
  · rename_i chars hchars
    cases h
    rw [Schema.text_eq_accepted (Schema.Checked.under_eq_accepted hchars), size_text] at hcode
    exact ⟨rfl, rfl, fun hnet => Nat.lt_trans (hcode hnet) (by decide)⟩
  · cases h

/-! ## All three -/

/-- **A fetch gives an input for the contract that was asked for**, wherever it finds it. -/
theorem returns_resolve [Platform] (net : Http.Network) (settings : Settings) (chainId : Int)
    (address : String) :
    Returns (resolve net settings chainId address) fun input =>
      Fetched net chainId address input ∧ (Chain.ofId? chainId).isSome = true := by
  refine (Attempt.returns_ofExcept (fun _ => Address.isValid address = true)
    fun _ h => ?_).bind fun _ hvalid => ?_
  · rw [Address.validate] at h
    split at h
    · assumption
    · cases h
  refine (Attempt.returns_ofExcept (fun _ => (Chain.ofId? chainId).isSome = true)
    fun chain h => ?_).bind fun _ hchain => ?_
  · rw [chainOf] at h
    split at h
    · rename_i found hfound
      rw [hfound]
      rfl
    · cases hnumber : numberText chainId <;> rw [hnumber] at h <;> cases h
  refine (returns_fromSourcify net settings chainId hvalid).bind fun found hfound => ?_
  cases found with
  | some input => exact (returns_true _).bind fun _ _ => returns_pure ⟨hfound input rfl, hchain⟩
  | none =>
    refine (returns_fromEtherscan net settings chainId address).bind fun found hfound => ?_
    cases found with
    | some input => exact (returns_true _).bind fun _ _ => returns_pure ⟨hfound input rfl, hchain⟩
    | none =>
      refine (returns_true _).bind fun _ _ => ?_
      refine (returns_bytecode net settings chainId address).bind fun code hcode => ?_
      refine (Attempt.returns_ofExcept _ fun input h => fetched_bytecodeInput hcode h).bind
        fun input h => returns_pure ⟨h, hchain⟩

end Fetch

end ContractLens
