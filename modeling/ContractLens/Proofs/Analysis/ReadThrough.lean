import ContractLens.Proofs.Analysis.Desk
import ContractLens.Proofs.Cache.RoundTrip
import ContractLens.Proofs.Cache.Skipped
/-!
# Reading through the cache

A call that the cache does not answer leaves behind what the next call for the same contract needs:
the record it returned is kept under the key that the next call reads, in whatever case the next
address is written (`hit?_of_kept`). A record of an upgradeable contract is not kept, and neither is
one that has half of a pair of units in a text, which cannot be written; then the next call fetches
again (`hit?_of_vetoed`, `hit?_of_unwritable`).

The key that is read is made from the caller's address and the key that is written from the
record's; they are the same because every place that a contract is fetched from keeps the address up
to case (`Analysed`).
-/

namespace ContractLens

open Cache Service

/-- An office with a cache that works: no command fails, and records are kept for some time. -/
structure Office.Caches (office : Office) (config : Config) : Prop where
  /-- There is a cache. -/
  cache : office.cache = some config
  /-- No command to it fails. -/
  calm : office.schedule = .calm
  /-- It keeps records for some time. -/
  seconds : 0 < config.seconds

/-- The same office at another bench. -/
def Office.atBench (office : Office) (bench : Workbench) : Office := { office with bench := bench }

namespace Office

section ReadThrough

variable [Platform] {office : Office} {config : Config} {desk : Desk} {chainId : Int}
  {address : String} {record : AnalysisRecord}

omit [Platform] in
theorem Caches.atBench (h : office.Caches config) (bench : Workbench) :
    (office.atBench bench).Caches config :=
  ⟨h.cache, h.calm, h.seconds⟩

omit [Platform] in
theorem operated_atBench {α : Type} (office : Office) (bench : Workbench)
    (operation : Operation α) (desk : Desk) :
    operated (office.atBench bench) operation desk = operated office operation desk := rfl

/-! ## What the cache holds -/

theorem Caches.operated_get (h : office.Caches config) (hshort : Json.Short chainId) (desk : Desk)
    (hconnection : desk.connection ≠ .disabled) (now : Timestamp) (address : String) :
    (operated office (Cache.get config now address chainId) desk).server.store =
        desk.server.store ∧
      (operated office (Cache.get config now address chainId) desk).connection = .active := by
  obtain ⟨hvalue, hstore⟩ :=
    run_get_calm config now (recordKey_of_short hshort address) hconnection desk.server
  rw [operated, run_cached, h.calm]
  exact ⟨hstore, congrArg Prod.snd hvalue⟩

/-- The cache answers with the record that the text of the address's key decodes to. -/
theorem Caches.hit?_eq (h : office.Caches config) (hshort : Json.Short chainId)
    (hvalid : Address.isValid address = true) (hconnection : desk.connection ≠ .disabled) :
    office.hit? chainId address true desk =
      recordAt? desk.server.store office.bench.now (config.keyText address chainId) := by
  obtain ⟨hvalue, -⟩ := run_get_calm config office.bench.now (recordKey_of_short hshort address)
    hconnection desk.server
  rw [hit?_eq_get h.cache hvalid, answered, h.calm, hvalue]
  rfl

theorem Caches.operated_store (h : office.Caches config) (hshort : Json.Short record.chainId)
    (hconnection : desk.connection = .active) (hveto : isVetoed record = false) {text : String}
    (htext : record.encoded = .ok text) :
    (operated office (Cache.store config record) desk).server.store.texts =
        desk.server.store.texts.insert (config.keyText record.address record.chainId) text ∧
      (operated office (Cache.store config record) desk).connection = .active := by
  have hused : desk.connection ≠ .disabled := by
    rw [hconnection]
    decide
  obtain ⟨hvalue, htexts⟩ := run_store_calm (recordKey_of_short hshort record.address) htext hveto
    h.seconds hused desk.server
  rw [operated, run_cached, h.calm]
  exact ⟨htexts, congrArg Prod.snd hvalue⟩

/-- **A record that was kept answers the next call** for its address, in whatever spelling. -/
theorem Caches.hit?_of_kept (h : office.Caches config) (hrecord : record.WellFormed)
    (hvalid : Address.isValid address = true)
    (haddress : Text.lowerString address = Text.lowerString record.address)
    (hconnection : desk.connection = .active)
    (htext : desk.server.store.texts.get? (config.keyText record.address record.chainId) =
      some record.encode) :
    office.hit? record.chainId address true desk = some record := by
  have hused : desk.connection ≠ .disabled := by
    rw [hconnection]
    decide
  rw [h.hit?_eq hrecord.chainId hvalid hused, recordAt?, keyText_congr haddress, htext,
    Option.bind_some, AnalysisRecord.decode_encode _ hrecord]
  rfl

/-- A key that holds no record at one time holds none at another. -/
theorem recordAt?_eq_none {store : Store} {now : Timestamp} {key : String}
    (h : recordAt? store now key = none) (later : Timestamp) :
    recordAt? store later key = none := by
  rw [recordAt?] at h ⊢
  cases htext : store.texts.get? key with
  | none => rfl
  | some s =>
    rw [htext, Option.bind_some] at h
    rw [Option.bind_some]
    cases hdecode : AnalysisRecord.decode later s with
    | error failure => rfl
    | ok found =>
      obtain ⟨other, hother⟩ := AnalysisRecord.exists_decode_ok hdecode now
      rw [hother] at h
      cases h

/-- A key whose text stays holds no record if it held none before. -/
theorem Caches.hit?_of_same (h : office.Caches config) (hshort : Json.Short chainId)
    (hvalid : Address.isValid address = true) {now : Timestamp} {before : Store}
    (hnone : recordAt? before now (config.keyText address chainId) = none)
    (hconnection : desk.connection = .active)
    (hsame : desk.server.store.texts.get? (config.keyText address chainId) =
      before.texts.get? (config.keyText address chainId)) :
    office.hit? chainId address true desk = none := by
  have hused : desk.connection ≠ .disabled := by
    rw [hconnection]
    decide
  -- the key may hold a text that is no record, so it is the decoding that fails
  have hlater := recordAt?_eq_none hnone office.bench.now
  rw [recordAt?] at hlater
  rw [h.hit?_eq hshort hvalid hused, recordAt?, hsame]
  exact hlater

/-- **A record that was refused answers no call**: a key that held no record before holds none
after. -/
theorem Caches.hit?_of_vetoed (h : office.Caches config) (hveto : isVetoed record = true)
    (hrecord : Json.Short record.chainId) (hshort : Json.Short chainId)
    (hvalid : Address.isValid address = true) (hconnection : desk.connection = .active)
    {now : Timestamp}
    (hnone : recordAt? desk.server.store now (config.keyText address chainId) = none) :
    office.hit? chainId address true (operated office (Cache.store config record) desk) =
      none := by
  have hkey : config.recordKey record.address record.chainId =
      .ok (config.keyText record.address record.chainId) :=
    recordKey_of_short hrecord _
  have hrefused : Refused config desk.server.store
      (desk.server.run office.schedule (Cache.store config record desk.connection)).2.2.store :=
    (refused_of_vetoed hveto hkey office.schedule desk.server desk.connection).2
  refine h.hit?_of_same hshort hvalid hnone ?_
    (hrefused.texts _ (keyText_ne_skippedKey address chainId))
  rw [operated, run_cached, hconnection]
  exact connection_of_vetoed hveto office.schedule desk.server

/-- **A record that cannot be written answers no call** either. -/
theorem Caches.hit?_of_unwritable (h : office.Caches config) (hveto : isVetoed record = false)
    {reason : String} (htext : record.encoded = .error reason)
    (hrecord : Json.Short record.chainId) (hshort : Json.Short chainId)
    (hvalid : Address.isValid address = true) (hconnection : desk.connection = .active)
    {now : Timestamp}
    (hnone : recordAt? desk.server.store now (config.keyText address chainId) = none) :
    office.hit? chainId address true (operated office (Cache.store config record) desk) =
      none := by
  have hused : desk.connection ≠ .disabled := by
    rw [hconnection]
    decide
  have hkey : config.recordKey record.address record.chainId =
      .ok (config.keyText record.address record.chainId) :=
    recordKey_of_short hrecord _
  obtain ⟨hvalue, hstore⟩ := run_store_unwritable hkey htext hveto hused desk.server
  refine h.hit?_of_same hshort hvalid hnone ?_ ?_
  · rw [operated, run_cached, h.calm]
    exact congrArg Prod.snd hvalue
  · rw [operated, run_cached, h.calm]
    exact congrArg (Table.get? ·.texts _) hstore

/-! ## One call after another -/

/-- What a call leaves behind that the cache did not answer and that returned a record: a fetch gave
the record, on a desk where the key of the address held none, and then the record was handed to the
cache. -/
theorem exists_fetched (h : office.Caches config) (hconnection : desk.connection ≠ .disabled)
    {around : Option String} (hmiss : office.hit? chainId address true desk = none) {after : Desk}
    (hcall : (office.analyzeAddress around chainId address true).run desk = (.ok record, after)) :
    ∃ name asked fetched,
      (office.fetchAndAnalyze name chainId address).run asked = (.ok record, fetched) ∧
      Json.Short chainId ∧
      recordAt? fetched.server.store office.bench.now (config.keyText address chainId) = none ∧
      fetched.connection = .active ∧
      after = operated office (Cache.store config record) fetched := by
  have hvalid := isValid_of_run hcall
  obtain ⟨name, given, hrun | ⟨-, hrun⟩⟩ :=
    run_analyzeAddress_of_miss h.cache hvalid hmiss around
  case inr => cases congrArg Prod.fst (hcall.symm.trans hrun)
  rw [hcall] at hrun
  -- the fetch touches neither the store nor the connection
  generalize hasked : operated office (Cache.get config office.bench.now address chainId)
    { desk with given := given } = asked at hrun
  obtain ⟨hserver, hsame⟩ := office.offline_fetchAndAnalyze name chainId address asked
  cases hfetch : (office.fetchAndAnalyze name chainId address).run asked with
  | mk result fetched =>
    rw [hfetch] at hrun hserver hsame
    cases result with
    | error failure => cases congrArg Prod.fst hrun
    | ok found =>
      obtain ⟨hfound, hafter⟩ := Prod.mk.inj hrun
      cases hfound
      obtain ⟨-, hshort⟩ := office.returns_fetchAndAnalyze name chainId address asked _ _ hfetch
      obtain ⟨hstore, hactive⟩ := h.operated_get hshort { desk with given := given } hconnection
        office.bench.now address
      rw [hasked] at hstore hactive
      rw [h.hit?_eq hshort hvalid hconnection] at hmiss
      refine ⟨name, asked, fetched, hfetch, hshort, ?_, hsame.trans hactive, hafter⟩
      rw [hserver, hstore]
      exact hmiss

/-- **Reading through the cache is coherent.** Let the cache work and not answer a call, and let the
call return a record. The record is for the chain and, up to case, for the address of the call. The
next call for another spelling of the address, at any bench, gets the very record without a request
if the contract is not upgradeable and the record can be written, and else goes back to the fetcher.
A call that is not to use a cache issues no command to it: the server's count of commands, its store
and the connection stay. -/
theorem readThrough_coherent (h : office.Caches config) (hnet : Http.Fits office.bench.net)
    (hconnection : desk.connection ≠ .disabled) (around : Option String)
    (hmiss : office.hit? chainId address true desk = none) {after : Desk}
    (hcall : (office.analyzeAddress around chainId address true).run desk = (.ok record, after)) :
    record.chainId = chainId ∧ Text.lowerString record.address = Text.lowerString address ∧
    (∀ address', Address.Recased address address' → ∀ bench around',
      (record.isUpgradeable = false → record.encoded = .ok record.encode →
        (((office.atBench bench).analyzeAddress around' chainId address' true).run after).1 =
            .ok record ∧
          (((office.atBench bench).analyzeAddress around' chainId address' true).run
            after).2.trace.requests = after.trace.requests) ∧
      (record.isUpgradeable = true ∨ (∃ reason, record.encoded = .error reason) →
        (office.atBench bench).hit? chainId address' true after = none ∧
          (office.atBench bench).Refetches around' chainId address' after)) ∧
    ∀ (other : Office) around' chainId' address' (there : Desk),
      ((other.analyzeAddress around' chainId' address' false).run there).2.server =
          there.server ∧
        ((other.analyzeAddress around' chainId' address' false).run there).2.connection =
          there.connection := by
  have hvalid := isValid_of_run hcall
  -- the record is the one of the fetch, and the cache was handed it last
  obtain ⟨name, asked, fetched, hfetch, hshort, hnone, hactive, rfl⟩ :=
    exists_fetched h hconnection hmiss hcall
  obtain ⟨rfl, haddress, heligible, hwellFormed⟩ :=
    (office.returns_fetchAndAnalyze name chainId address asked record fetched hfetch).1
  refine ⟨rfl, haddress, fun address' hrecased bench around' => ?_, fun other around' chainId'
    address' => other.offline_analyzeAddress around' chainId' address'⟩
  have hvalid' := Address.isValid_of_recased hvalid hrecased
  have hlower : Text.lowerString address' = Text.lowerString address :=
    Address.lowerString_of_recased hvalid hrecased
  refine ⟨fun hplain htext => ?_, fun hunkept => ?_⟩
  · have hveto : isVetoed record = false := by
      simp [isVetoed, heligible, hplain]
    obtain ⟨htexts, hopen⟩ := h.operated_store hshort hactive hveto htext
    -- the key was made from the record's address, and is read under the caller's
    refine run_analyzeAddress_of_hit ((h.atBench bench).hit?_of_kept (hwellFormed hnet) hvalid'
      (hlower.trans haddress.symm) hopen ?_) around'
    rw [htexts, Table.get?_insert, beq_self_eq_true, if_pos rfl]
  · rw [← keyText_congr hlower record.chainId] at hnone
    have hmiss' : (office.atBench bench).hit? record.chainId address' true
        (operated office (Cache.store config record) fetched) = none := by
      rw [← operated_atBench office bench]
      cases hveto : isVetoed record with
      | true => exact (h.atBench bench).hit?_of_vetoed hveto hshort hshort hvalid' hactive hnone
      | false =>
        rcases hunkept with hupgradeable | ⟨reason, htext⟩
        · simp [isVetoed, hupgradeable] at hveto
        · exact (h.atBench bench).hit?_of_unwritable hveto htext hshort hshort hvalid' hactive hnone
    exact ⟨hmiss', refetches_of_miss (h.atBench bench).cache hshort hvalid' hmiss' around'⟩

end ReadThrough

/-- Settings without a key to the explorer. -/
def keylessSettings : Settings where
  appName := "Owdit Engine"
  stage := .development
  logLevel := "INFO"
  redisUrl := dayConfig.url
  cachePrefix := dayConfig.keyStart
  cacheTtlHours := 24
  etherscanApiKey := ""
  etherscanApiUrl := "https://api.etherscan.io/v2/api"
  sourcifyApiUrl := "https://sourcify.dev/server"
  httpTimeoutSeconds := Settings.halves 20
  rpcOverrides := []
  fetchRetries := 0
  retryDelaySeconds := Settings.halves 1
  importCdnEnabled := false
  importCdnUrl := "https://cdn.jsdelivr.net/npm"
  importTimeoutSeconds := Settings.halves 10
  thresholds := ⟨10, 100, 5⟩

/-- A network where no source is published, and where every contract has one code. -/
def codeNetwork (code : String) : Http.Network := fun _ request =>
  match request.method with
  | .get => .ok ⟨404, [], ""⟩
  | .post => .ok ⟨200, [], "\x7b\"result\":\"" ++ code ++ "\"\x7d"⟩

theorem fits_codeNetwork {code : String} (h : code.length < 2 ^ 62) :
    Http.Fits (codeNetwork code) := by
  intro earlier request response hresponse
  rw [codeNetwork] at hresponse
  cases hmethod : request.method with
  | get =>
    rw [hmethod] at hresponse
    cases hresponse
    decide
  | post =>
    rw [hmethod] at hresponse
    cases hresponse
    have hframe : "\x7b\"result\":\"".length = 11 ∧ "\"\x7d".length = 2 := by decide
    rw [String.length_append, String.length_append, hframe.1, hframe.2]
    omega

/-- The office that works on this network, with records kept for a day. -/
def codeOffice (code : String) : Office :=
  ⟨⟨keylessSettings, codeNetwork code, none, .epoch⟩, some dayConfig, .calm, fun _ => "scope"⟩

theorem caches_codeOffice (code : String) : (codeOffice code).Caches dayConfig :=
  ⟨rfl, rfl, by decide⟩

/-- A first call for one contract of this office. -/
def firstCall (code : String) : Except Failure AnalysisRecord × Desk :=
  ((codeOffice code).analyzeAddress none 1 "0x00000000000000000000000000000000000000aB" true).run {}

/-- The code of a minimal proxy. -/
def proxyCode : String :=
  "0x" ++ Code.minimalProxyStart ++ "bebebebebebebebebebebebebebebebebebebebe" ++
    Code.minimalProxyEnd

theorem exists_of_any {result : Except Failure AnalysisRecord} {test : AnalysisRecord → Bool}
    (h : result.toOption.any test = true) : ∃ record, result = .ok record ∧ test record = true := by
  cases result with
  | error failure => cases h
  | ok record => exact ⟨record, rfl, h⟩

theorem exists_firstCall (code : String) (test : AnalysisRecord → Bool)
    (h : (firstCall code).1.toOption.any test = true) :
    ∃ record after, firstCall code = (.ok record, after) ∧ test record = true := by
  obtain ⟨record, hrecord, htest⟩ := exists_of_any h
  refine ⟨record, (firstCall code).2, ?_, htest⟩
  rw [← hrecord]

/-- The record of code with one instruction is kept, and given to a call for another spelling. The
record of a minimal proxy is not, and the call goes back to the fetcher. -/
theorem readThrough_coherent_spellings :
    (∃ record after, firstCall "0x00" = (.ok record, after) ∧
      (((codeOffice "0x00").analyzeAddress none 1
        "0x00000000000000000000000000000000000000Ab" true).run after).1 = .ok record) ∧
    ∃ record after, firstCall proxyCode = (.ok record, after) ∧
      (codeOffice proxyCode).Refetches none 1 "0x00000000000000000000000000000000000000Ab"
        after := by
  have hrecased : Address.Recased "0x00000000000000000000000000000000000000aB"
      "0x00000000000000000000000000000000000000Ab" := by
    decide
  have hidle : Connection.idle ≠ .disabled := by decide
  constructor
  · obtain ⟨record, after, hcall, htest⟩ :=
      exists_firstCall "0x00" (fun record =>
        !record.isUpgradeable && (record.toJson .wire).unwritable?.isNone) (by decide +kernel)
    obtain ⟨hplain, hwritable⟩ := Bool.and_eq_true_iff.mp htest
    have htext : record.encoded = .ok record.encode := by
      rw [AnalysisRecord.encoded, Option.isNone_iff_eq_none.mp hwritable]
    have hnext := (readThrough_coherent (caches_codeOffice "0x00") (fits_codeNetwork (by decide))
      hidle none rfl hcall).2.2.1 _ hrecased (codeOffice "0x00").bench none
    exact ⟨record, after, hcall, (hnext.1 (by simpa using hplain) htext).1⟩
  · obtain ⟨record, after, hcall, hproxy⟩ :=
      exists_firstCall proxyCode (·.isUpgradeable) (by decide +kernel)
    have hnext := (readThrough_coherent (caches_codeOffice proxyCode) (fits_codeNetwork (by decide))
      hidle none rfl hcall).2.2.1 _ hrecased (codeOffice proxyCode).bench none
    exact ⟨record, after, hcall, (hnext.2 (.inl hproxy)).2⟩

/-- A network where a source is published whose contract is named by half of a pair of units. -/
def halfNetwork : Http.Network := fun _ _ =>
  .ok ⟨200, [], "\x7b\"match\":\"match\",\"sources\":\x7b\"A.sol\":\"contract A \x7b\x7d\"\x7d," ++
    "\"compilation\":\x7b\"name\":\"\\ud800\"\x7d\x7d"⟩

/-- The office that works on this network. -/
def halfOffice : Office := (codeOffice "0x").atBench ⟨keylessSettings, halfNetwork, none, .epoch⟩

/-- A call for the contract of this office. -/
def halfCall (desk : Desk) : Except Failure AnalysisRecord × Desk :=
  (halfOffice.analyzeAddress none 1 "0x00000000000000000000000000000000000000aB" true).run desk

/-- **A record that is not upgradeable may be fetched twice**: when half of a pair of units stands
in one of its texts, the cache does not keep it. -/
theorem refetched_of_half :
    halfOffice.Caches dayConfig ∧
      halfOffice.hit? 1 "0x00000000000000000000000000000000000000aB" true {} = none ∧
      (∃ record, (halfCall {}).1 = .ok record ∧ record.isUpgradeable = false) ∧
      (halfCall (halfCall {}).2).2.trace.requests ≠ (halfCall {}).2.trace.requests := by
  refine ⟨⟨rfl, rfl, by decide⟩, rfl, ?_, ?_⟩
  · have hplain : (halfCall {}).1.toOption.any (fun record => !record.isUpgradeable) = true := by
      decide +kernel
    obtain ⟨record, hrecord, htest⟩ := exists_of_any hplain
    exact ⟨record, hrecord, by simpa using htest⟩
  · have hcount : (halfCall (halfCall {}).2).2.trace.requests.length = 2 ∧
        (halfCall {}).2.trace.requests.length = 1 := by decide +kernel
    intro hsame
    rw [hsame, hcount.2] at hcount
    cases hcount.1

end Office

end ContractLens
