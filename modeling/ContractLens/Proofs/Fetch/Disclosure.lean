import ContractLens.Proofs.Fetch.Degrade
import ContractLens.Proofs.Twins
/-!
# Who gets to know the key

The key to the explorer is sent to the explorer and nowhere else, and what a fetch gives does not
depend on it (`undisclosed_of_blind`). It gets into the log in one way: where the explorer refuses
the request, the report quotes the address, and the key is part of that (`disclosed_by_refusal`).
Two fetches with different keys, on a network that does not tell the keys apart, are followed side
by side.
-/

namespace ContractLens.Fetch

/-- The settings with another key to the explorer. -/
def withKey (settings : Settings) (key : String) : Settings :=
  { settings with etherscanApiKey := key }

/-- The request to the explorer at an address that was read. -/
def explorerRequest (settings : Settings) (chainId : Int) (address : String) (url : Http.Url) :
    Http.Request :=
  requestTo .get url (explorerParameters settings chainId address) none

/-- The report that the explorer refused a request. -/
def refusedEntry (settings : Settings) (chainId : Int) (address : String) (url : Http.Url)
    (response : Http.Response) : Log.Entry :=
  let refusal := Http.refusalText response (explorerRequest settings chainId address url).url
  entry .warning s!"Etherscan fetch failed: {refusal}" (about address chainId)

/-- A request of a fetch, and that of the same fetch with another key. -/
inductive Rekeyed (settings : Settings) (key : String) : Http.Request → Http.Request → Prop
  /-- They are the same. -/
  | same (request : Http.Request) : Rekeyed settings key request request
  /-- Both go to the explorer, each with its key. -/
  | explorer {url : Http.Url} (chainId : Int) (address : String) :
      Http.Url.read settings.etherscanApiUrl = .ok url →
      Rekeyed settings key (explorerRequest settings chainId address url)
        (explorerRequest (withKey settings key) chainId address url)

/-- A network whose answers do not depend on the key. -/
def Blind (net : Http.Network) (settings : Settings) (key : String) : Prop :=
  ∀ ⦃earlier others : List Http.Request⦄ ⦃request other : Http.Request⦄,
    List.Forall₂ (Rekeyed settings key) earlier others → Rekeyed settings key request other →
      net earlier request = net others other

/-- The explorer refuses a request. -/
structure Refuses (net : Http.Network) (settings : Settings) (chainId : Int) (address : String)
    (url : Http.Url) (response : Http.Response) : Prop where
  /-- The request can be made. -/
  read : Http.Url.read settings.etherscanApiUrl = .ok url
  /-- It is answered at some time. -/
  answers : ∃ earlier, net earlier (explorerRequest settings chainId address url) = .ok response
  /-- The answer refuses it. -/
  refused : Http.isSuccess response.status = false

/-- An entry of a fetch, and that of the same fetch with another key. -/
inductive Told (net : Http.Network) (settings : Settings) (key : String) (chainId : Int)
    (contract : String) : Log.Entry → Log.Entry → Prop
  /-- They are the same. -/
  | same (entry : Log.Entry) : Told net settings key chainId contract entry entry
  /-- Both report a refusal by the explorer, and each quotes the address with its key. -/
  | refused {url : Http.Url} {response : Http.Response} :
      Refuses net settings chainId contract url response →
      Told net settings key chainId contract (refusedEntry settings chainId contract url response)
        (refusedEntry (withKey settings key) chainId contract url response)

/-- What corresponds in a fetch of a contract and the same fetch with another key. -/
def rekeying (net : Http.Network) (settings : Settings) (key : String) (chainId : Int)
    (contract : String) : Likeness where
  request := Rekeyed settings key
  entry := Told net settings key chainId contract
  request_same := .same
  entry_same := .same

section Keys

variable [Platform] {net : Http.Network} {settings : Settings} {key contract : String}
  {chainId : Int} {α : Type}

/-! ## Requests -/

/-- What the network brought for a request and for its twin. -/
inductive Delivered (net : Http.Network) (address : String)
    (request twin : Http.Url → Http.Request) :
    Except Http.Fault (String × Http.Response) → Except Http.Fault (String × Http.Response) → Prop
  /-- No answer, for one reason. -/
  | fault (fault : Http.Fault) : Delivered net address request twin (.error fault) (.error fault)
  /-- One answer, to both. -/
  | response {url : Http.Url} {earlier : List Http.Request} {response : Http.Response} :
      Http.Url.read address = .ok url → net earlier (request url) = .ok response →
      Delivered net address request twin (.ok ((request url).url, response))
        (.ok ((twin url).url, response))

/-- What a request at an address comes to when the answer refuses it. -/
def refusal (response : Http.Response) (url : String) : Answer :=
  let text := Http.refusalText response url
  .useless text (.http (.status response.status text))

/-- An answer to a request, and that to its twin. -/
inductive Answered (net : Http.Network) (address : String)
    (request twin : Http.Url → Http.Request) : Answer → Answer → Prop
  /-- They are the same. -/
  | same (answer : Answer) : Answered net address request twin answer answer
  /-- Both are refusals, and each quotes the address of its request. -/
  | refused {url : Http.Url} {earlier : List Http.Request} {response : Http.Response} :
      Http.Url.read address = .ok url → net earlier (request url) = .ok response →
      Http.isSuccess response.status = false →
      Answered net address request twin (refusal response (request url).url)
        (refusal response (twin url).url)

section Requests

variable {method : Http.Method} {address : String} {parameters others : List (String × String)}
  {body : Option Json}

omit [Platform] in
theorem twins_sendTo (hblind : Blind net settings key)
    (h : ∀ url, Http.Url.read address = .ok url → Rekeyed settings key
      (requestTo method url parameters body) (requestTo method url others body)) :
    Twins (rekeying net settings key chainId contract)
      (ExceptT.lift (Traced.sendTo net method address parameters body))
      (ExceptT.lift (Traced.sendTo net method address others body))
      (Delivered net address (requestTo method · parameters body)
        (requestTo method · others body)) := by
  intro trace other halike
  rw [Traced.sendTo, Traced.sendTo]
  cases hread : Http.Url.read address with
  | error fault => exact ⟨.ok (.fault _), halike⟩
  | ok url =>
    have hanswer := hblind halike.requests (h url hread)
    refine ⟨.ok ?_, {
      requests := List.rel_append halike.requests (.cons (h url hread) .nil)
      entries := halike.entries
      pauses := halike.pauses }⟩
    show Delivered net address _ _
      ((net trace.requests (requestTo method url parameters body)).map _)
      ((net other.requests (requestTo method url others body)).map _)
    rw [← hanswer]
    cases hresponse : net trace.requests (requestTo method url parameters body) with
    | error fault => exact .fault fault
    | ok response => exact .response hread hresponse

/-- An answer that is no refusal is read without regard to the address. -/
theorem readAnswer_congr {response : Http.Response}
    (h : Http.isSuccess response.status = true) (url other : String) :
    readAnswer url response = readAnswer other response := by
  rw [readAnswer, readAnswer, Http.Response.accepted, Http.Response.accepted, if_pos h, if_pos h]

theorem readAnswer_of_refused {response : Http.Response}
    (h : Http.isSuccess response.status = false) (url : String) :
    readAnswer url response = .ok (refusal response url) := by
  rw [readAnswer, Http.Response.accepted, h]
  rfl

/-- **A request and its twin bring the same answer**, or refusals that quote two addresses. -/
theorem twins_ask (hblind : Blind net settings key)
    (h : ∀ url, Http.Url.read address = .ok url → Rekeyed settings key
      (requestTo method url parameters body) (requestTo method url others body))
    (allowAbsent : Bool) :
    Twins (rekeying net settings key chainId contract)
      (ask net method address parameters body allowAbsent)
      (ask net method address others body allowAbsent)
      (Answered net address (requestTo method · parameters body)
        (requestTo method · others body)) := by
  refine (twins_sendTo hblind h).bind fun sent twin hsent => ?_
  cases hsent with
  | fault fault =>
    dsimp only
    split
    · exact twins_pure (.same _)
    · exact fun _ _ halike => ⟨.error _, halike⟩
  | @response url earlier response hread hresponse =>
    dsimp only
    split
    · exact twins_pure (.same _)
    cases hsuccess : Http.isSuccess response.status with
    | false =>
      rw [readAnswer_of_refused hsuccess, readAnswer_of_refused hsuccess]
      exact twins_pure (.refused hread hresponse hsuccess)
    | true =>
      rw [readAnswer_congr hsuccess _ (requestTo method url others body).url]
      exact Twins.imp (steady_ofExcept _) fun answer twin hsame => hsame ▸ .same answer

/-- A request without the key brings the same answer in both fetches. -/
theorem steady_ask (hblind : Blind net settings key) (method : Http.Method) (address : String)
    (parameters : List (String × String)) (body : Option Json) (allowAbsent : Bool) :
    Steady (rekeying net settings key chainId contract)
      (ask net method address parameters body allowAbsent) := by
  refine Twins.imp (twins_ask hblind (fun url _ => .same _) allowAbsent) fun answer twin h => ?_
  cases h with
  | same => rfl
  | refused => rfl

end Requests

/-! ## The places -/

section Places

variable (chainId : Int) (contract : String)

/-- **The published sources do not notice the key.** -/
theorem steady_fromSourcify (hblind : Blind net settings key) :
    Steady (rekeying net settings key chainId contract)
      (fromSourcify net settings chainId contract) := by
  refine Steady.bind (steady_ask hblind _ _ _ _ _) fun answer => ?_
  cases answer with
  | absent => exact steady_note_bind _ (steady_pure _)
  | useless reason cause => exact steady_note_bind _ (steady_pure _)
  | value value =>
    refine Steady.bind (steady_ofExcept _) fun found => ?_
    split
    · exact steady_pure _
    refine Steady.bind (steady_ofExcept _) fun files => ?_
    split
    · exact steady_note_bind _ (steady_pure _)
    · exact Steady.bind (steady_ofExcept _) fun input => steady_pure _

/-- Nor does the node. -/
theorem steady_bytecode (hblind : Blind net settings key) :
    Steady (rekeying net settings key chainId contract)
      (bytecode net settings chainId contract) := by
  refine Steady.bind (steady_ofExcept _) fun chain => ?_
  refine Steady.bind (steady_ask hblind _ _ _ _ _) fun answer => ?_
  cases answer with
  | absent => exact steady_pure _
  | useless reason cause => exact steady_fail _
  | value value =>
    refine Steady.bind (steady_ofExcept _) fun error => ?_
    dsimp only
    split
    · exact steady_fail _
    · exact Steady.bind (steady_ofExcept _) fun code => steady_pure _

theorem steady_explored (likeness : Likeness) (name result : Json) (files : List SourceFile) :
    Steady likeness (do
      let abi ← Attempt.ofExcept (do explorerAbi (← member result "ABI"))
      let version ← Attempt.ofExcept (memberOr result "CompilerVersion" (.text ""))
      return some (← Attempt.ofExcept
        (verifiedInput contract chainId name version files abi))) := by
  refine Steady.bind (steady_ofExcept _) fun abi => ?_
  refine Steady.bind (steady_ofExcept _) fun version => ?_
  exact Steady.bind (steady_ofExcept _) fun input => steady_pure _

/-- **The explorer is asked with the key**, and what it answers is taken without it. -/
theorem twins_fromEtherscan (hkey : settings.etherscanApiKey.isEmpty = false)
    (hother : key.isEmpty = false) (hblind : Blind net settings key) :
    Twins (rekeying net settings key chainId contract) (fromEtherscan net settings chainId contract)
      (fromEtherscan net (withKey settings key) chainId contract) Eq := by
  have hkeyed : (withKey settings key).etherscanApiKey.isEmpty = false := hother
  rw [fromEtherscan, fromEtherscan, if_neg (Bool.eq_false_iff.mp hkey),
    if_neg (Bool.eq_false_iff.mp hkeyed)]
  refine (twins_ask hblind (fun url hread => .explorer chainId contract hread) false).bind ?_
  intro answer twin hanswer
  cases hanswer with
  | @refused url earlier response hread hresponse hrefused =>
    -- the one place where the runs part: each report quotes the address of its own request
    have htold : Told net settings key chainId contract
        (refusedEntry settings chainId contract url response)
        (refusedEntry (withKey settings key) chainId contract url response) :=
      .refused ⟨hread, ⟨earlier, hresponse⟩, hrefused⟩
    exact Twins.bind (twins_note htold) fun _ _ _ => steady_pure none
  | same =>
    cases answer with
    | absent => exact steady_pure _
    | useless reason cause => exact steady_note_bind _ (steady_pure _)
    | value value =>
      refine Steady.bind (steady_ofExcept _) fun found => ?_
      split
      · exact steady_pure _
      rename_i result
      refine Steady.bind (steady_ofExcept _) fun source => ?_
      split
      · split
        · exact steady_pure _
        refine Steady.bind (steady_ofExcept _) fun name => ?_
        refine Steady.bind (steady_ofExcept _) fun files => ?_
        have hrest := steady_explored chainId contract (rekeying net settings key chainId contract)
          name result files.1
        dsimp only
        split
        · exact steady_note_bind _ hrest
        · exact hrest
      · split
        · exact steady_pure _
        · exact steady_fail _

/-! ## All three -/

/-- **A fetch with one key and a fetch with another** go side by side. -/
theorem twins_resolve (hkey : settings.etherscanApiKey.isEmpty = false)
    (hother : key.isEmpty = false) (hblind : Blind net settings key) :
    Twins (rekeying net settings key chainId contract) (resolve net settings chainId contract)
      (resolve net (withKey settings key) chainId contract) Eq := by
  have hsourcify : fromSourcify net (withKey settings key) = fromSourcify net settings := rfl
  have hnode : bytecode net (withKey settings key) = bytecode net settings := rfl
  rw [resolve, resolve, hsourcify, hnode]
  refine Twins.bind (steady_ofExcept _) fun _ _ _ => ?_
  refine Twins.bind (steady_ofExcept _) fun _ _ _ => ?_
  refine Twins.bind (steady_fromSourcify chainId contract hblind) fun found _ hfound => ?_
  subst hfound
  cases found with
  | some input => exact steady_note_bind _ (steady_pure _)
  | none =>
    refine (twins_fromEtherscan chainId contract hkey hother hblind).bind fun found _ hfound => ?_
    subst hfound
    cases found with
    | some input => exact steady_note_bind _ (steady_pure _)
    | none =>
      refine steady_note_bind _ ?_
      refine Steady.bind (steady_bytecode chainId contract hblind) fun code => ?_
      exact Steady.bind (steady_ofExcept _) fun input => steady_pure _

end Places

/-- Two fetches with different keys cannot be told apart, save by the requests to the explorer and
by reports that it refused one. -/
structure Undisclosed (net : Http.Network) (settings : Settings) (key : String) (chainId : Int)
    (contract : String) (ended twin : Except Failure α × Trace) : Prop where
  /-- They give the same, or fail in the same way. -/
  result : ended.1 = twin.1
  /-- What they did corresponds one by one. -/
  trace : ended.2.Alike (rekeying net settings key chainId contract) twin.2
  /-- They log the same, unless the explorer refuses the request. -/
  entries : (∀ url response, ¬ Refuses net settings chainId contract url response) →
    ended.2.entries = twin.2.entries

omit [Platform] in
theorem eq_of_told
    (hserved : ∀ url response, ¬ Refuses net settings chainId contract url response)
    {entry twin : Log.Entry} (h : Told net settings key chainId contract entry twin) :
    entry = twin := by
  cases h with
  | same => rfl
  | refused hrefuses => exact absurd hrefuses (hserved _ _)

omit [Platform] in
theorem undisclosed_of_twins {m twin : Attempt α}
    (h : Twins (rekeying net settings key chainId contract) m twin Eq) (trace : Trace) :
    Undisclosed net settings key chainId contract (m.run trace) (twin.run trace) := by
  obtain ⟨hresult, htrace⟩ := h trace trace (Trace.alike_refl _ trace)
  refine ⟨hresult.eq, htrace, fun hserved => ?_⟩
  exact List.forall₂_eq_eq_eq ▸ htrace.entries.imp fun _ _ => eq_of_told hserved

/-- **The key does not show**, on a network that does not tell the keys apart: a lookup at the
explorer and a whole fetch give the same with any two keys and log the same, but for the reports
that the explorer refused a request. -/
theorem undisclosed_of_blind (hkey : settings.etherscanApiKey.isEmpty = false)
    (hother : key.isEmpty = false) (hblind : Blind net settings key) (chainId : Int)
    (contract : String) (trace : Trace) :
    Undisclosed net settings key chainId contract
        ((fromEtherscan net settings chainId contract).run trace)
        ((fromEtherscan net (withKey settings key) chainId contract).run trace) ∧
      Undisclosed net settings key chainId contract
        ((resolve net settings chainId contract).run trace)
        ((resolve net (withKey settings key) chainId contract).run trace) :=
  ⟨undisclosed_of_twins (twins_fromEtherscan chainId contract hkey hother hblind) trace,
    undisclosed_of_twins (twins_resolve chainId contract hkey hother hblind) trace⟩

omit [Platform] in
/-- A network that tells requests apart by their kind only does not tell keys apart. -/
theorem blind_of_method (h : ∀ earlier others (request other : Http.Request),
      request.method = other.method → net earlier request = net others other) :
    Blind net settings key := by
  intro earlier others request other _ hrequest
  cases hrequest with
  | same => exact h _ _ _ _ rfl
  | explorer => exact h _ _ _ _ rfl

end Keys

/-- With one key and with another, a fetch gives the code from the node where the explorer answers
with a text that is no JSON. -/
theorem undisclosed_of_blind_somewhere :
    Undisclosed (answeringNetwork "not found") keyedSettings "other" 1 somewhere
        ((fromEtherscan (answeringNetwork "not found") keyedSettings 1 somewhere).run {})
        ((fromEtherscan (answeringNetwork "not found") (withKey keyedSettings "other") 1
          somewhere).run {}) ∧
      Undisclosed (answeringNetwork "not found") keyedSettings "other" 1 somewhere
        ((resolve (answeringNetwork "not found") keyedSettings 1 somewhere).run {})
        ((resolve (answeringNetwork "not found") (withKey keyedSettings "other") 1
          somewhere).run {}) := by
  refine undisclosed_of_blind (by decide) (by decide) ?_ 1 somewhere {}
  exact blind_of_method fun _ _ _ _ hmethod => by rw [answeringNetwork, answeringNetwork, hmethod]

/-- A network where every read is refused, and every contract has one code. -/
def refusingNetwork : Http.Network := fun _ request =>
  match request.method with
  | .get => .ok ⟨500, [], ""⟩
  | .post => .ok ⟨200, [], "\x7b\"result\":\"0x6000\"\x7d"⟩

/-- **A refusal by the explorer discloses the key**: the reports on it are different with different
keys. -/
theorem disclosed_by_refusal :
    keyedSettings.etherscanApiKey.isEmpty = false ∧ "other".isEmpty = false ∧
      Blind refusingNetwork keyedSettings "other" ∧
      ((fromEtherscan refusingNetwork keyedSettings 1 somewhere).run {}).2.entries ≠
        ((fromEtherscan refusingNetwork (withKey keyedSettings "other") 1
          somewhere).run {}).2.entries ∧
      ((resolve refusingNetwork keyedSettings 1 somewhere).run {}).2.entries ≠
        ((resolve refusingNetwork (withKey keyedSettings "other") 1
          somewhere).run {}).2.entries := by
  refine ⟨by decide, by decide, blind_of_method fun _ _ _ _ hmethod => ?_, ?_, ?_⟩
  · rw [refusingNetwork, refusingNetwork, hmethod]
  · decide +kernel
  · decide +kernel

end ContractLens.Fetch
