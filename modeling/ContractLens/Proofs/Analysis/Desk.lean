import ContractLens.Proofs.Analysis.Analysed
import ContractLens.Proofs.Cache.Skipped
/-!
# Services and the cache

A service is offline when it issues no command: it leaves the server of the cache and the connection
to it as they are. Fetching and analysing are offline (`offline_fetchAndAnalyze`), so that a service
touches the cache only where it runs one of its operations.

An operation of the cache that fails ends a call. It does only for a chain whose number is too long
to be written, where a fetch ends the same way (`refetches_of_miss`).
-/

namespace ContractLens

variable [Platform] {α β : Type}

namespace Service

/-! ## Runs -/

omit [Platform] in
theorem run_cached (office : Office) (operation : Cache.Operation α) (desk : Desk) :
    (cached office operation).run desk =
      (.ok (desk.server.run office.schedule (operation desk.connection)).1.1,
        { desk with
          server := (desk.server.run office.schedule (operation desk.connection)).2.2
          connection := (desk.server.run office.schedule (operation desk.connection)).1.2
          trace := { desk.trace with
            entries := desk.trace.entries ++
              (desk.server.run office.schedule (operation desk.connection)).2.1 } }) := rfl

/-- The answer of an operation of the cache. -/
def answered (office : Office) (operation : Cache.Operation α) (desk : Desk) : α :=
  (desk.server.run office.schedule (operation desk.connection)).1.1

/-- The desk after an operation of the cache. -/
def operated (office : Office) (operation : Cache.Operation α) (desk : Desk) : Desk :=
  ((cached office operation).run desk).2

omit [Platform] in
/-- An operation that may fail ends with its answer. -/
theorem run_asked (office : Office) (operation : Cache.Operation (Except Failure α))
    (desk : Desk) :
    (asked office operation).run desk =
      (answered office operation desk, operated office operation desk) := by
  rw [asked, run_bind, run_cached, operated, run_cached, answered]
  dsimp only
  cases (desk.server.run office.schedule (operation desk.connection)).1.1 <;> rfl

/-! ## Services without commands -/

/-- A service that issues no command to the cache. -/
def Offline (m : Service α) : Prop :=
  ∀ desk : Desk, (m.run desk).2.server = desk.server ∧ (m.run desk).2.connection = desk.connection

omit [Platform] in
theorem Offline.bind {m : Service α} {f : α → Service β} (hm : m.Offline)
    (hf : ∀ a, (f a).Offline) : (m >>= f).Offline := by
  intro desk
  obtain ⟨hserver, hconnection⟩ := hm desk
  rw [run_bind]
  cases h : m.run desk with
  | mk result after =>
    rw [h] at hserver hconnection
    cases result with
    | error failure => exact ⟨hserver, hconnection⟩
    | ok a =>
      obtain ⟨hserver', hconnection'⟩ := hf a after
      exact ⟨hserver'.trans hserver, hconnection'.trans hconnection⟩

omit [Platform] in
theorem offline_pure (a : α) : (pure a : Service α).Offline := fun _ => ⟨rfl, rfl⟩

omit [Platform] in
theorem offline_throw (failure : Failure) : (throw failure : Service α).Offline :=
  fun _ => ⟨rfl, rfl⟩

omit [Platform] in
theorem offline_traced (run : Traced α) : (traced run).Offline := fun _ => ⟨rfl, rfl⟩

omit [Platform] in
theorem offline_ofExcept (result : Except Failure α) : (ofExcept result).Offline := by
  cases result with
  | ok a => exact offline_pure a
  | error failure => exact offline_throw failure

omit [Platform] in
theorem offline_attempt (run : Attempt α) : (attempt run).Offline := by
  refine (offline_traced run.run).bind fun result => ?_
  cases result with
  | ok a => exact offline_pure a
  | error failure => exact offline_throw failure

omit [Platform] in
theorem offline_nameFor (office : Office) (around : Option String) :
    (nameFor office around).Offline := by
  cases around with
  | some name => exact offline_pure name
  | none => exact fun _ => ⟨rfl, rfl⟩

end Service

namespace Office

open Service

theorem offline_fetchAndAnalyze (office : Office) (name : String) (chainId : Int)
    (address : String) : (office.fetchAndAnalyze name chainId address).Offline :=
  (offline_attempt _).bind fun _ =>
    (offline_nameFor office (some name)).bind fun _ => offline_traced _

/-- **A call that is not to use the cache issues no command to it.** -/
theorem offline_analyzeAddress (office : Office) (around : Option String) (chainId : Int)
    (address : String) : (office.analyzeAddress around chainId address false).Offline :=
  (offline_ofExcept _).bind fun _ => (offline_nameFor office around).bind fun name =>
    office.offline_fetchAndAnalyze name chainId address

/-! ## Calls with the cache -/

/-- The record that the cache gives to a call for the contract at an address, if it gives one. -/
def hit? (office : Office) (chainId : Int) (address : String) (useCache : Bool) (desk : Desk) :
    Option AnalysisRecord :=
  match Address.validate address, if useCache then office.cache else none with
  | .ok _, some config =>
    (answered office (Cache.get config office.bench.now address chainId) desk).toOption.join
  | _, _ => none

/-- For an address that is one, the cache is read under the key of the address. -/
theorem hit?_eq_get {office : Office} {config : Cache.Config} (hcache : office.cache = some config)
    {address : String} (hvalid : Address.isValid address = true) (chainId : Int) (desk : Desk) :
    office.hit? chainId address true desk =
      (answered office (Cache.get config office.bench.now address chainId) desk).toOption.join := by
  have hvalidate : Address.validate address = .ok address := if_pos hvalid
  rw [hit?, hvalidate, if_pos rfl, hcache]

/-- A call for a text that is no address does not return. -/
theorem isValid_of_run {office : Office} {around : Option String} {chainId : Int}
    {address : String} {useCache : Bool} {desk after : Desk} {record : AnalysisRecord}
    (h : (office.analyzeAddress around chainId address useCache).run desk = (.ok record, after)) :
    Address.isValid address = true := by
  rw [analyzeAddress, run_bind, Address.validate] at h
  cases hvalid : Address.isValid address with
  | true => rfl
  | false =>
    rw [hvalid] at h
    cases congrArg Prod.fst h

/-- A call for an address that is one, with the cache, is a lookup under the name of its scope. -/
theorem analyzeAddress_eq_lookUp {office : Office} {config : Cache.Config}
    (hcache : office.cache = some config) {address : String}
    (hvalid : Address.isValid address = true) (around : Option String) (chainId : Int) :
    office.analyzeAddress around chainId address true =
      nameFor office around >>= fun name => office.lookUp config name chainId address := by
  have hvalidate : Address.validate address = .ok address := if_pos hvalid
  rw [analyzeAddress, hvalidate, hcache]
  rfl

theorem run_analyzeAddress {office : Office} {config : Cache.Config}
    (hcache : office.cache = some config) {address : String}
    (hvalid : Address.isValid address = true) (around : Option String) (chainId : Int)
    (desk : Desk) :
    ∃ name given, (office.analyzeAddress around chainId address true).run desk =
      (office.lookUp config name chainId address).run { desk with given := given } := by
  rw [analyzeAddress_eq_lookUp hcache hvalid]
  cases around with
  | some name => exact ⟨name, desk.given, rfl⟩
  | none => exact ⟨office.fresh desk.given, desk.given + 1, rfl⟩

/-- What the cache gives is given to a call for an address that is one. -/
theorem exists_of_hit? {office : Office} {chainId : Int} {address : String} {useCache : Bool}
    {desk : Desk} {record : AnalysisRecord}
    (h : office.hit? chainId address useCache desk = some record) :
    useCache = true ∧ Address.isValid address = true ∧ ∃ config, office.cache = some config ∧
      answered office (Cache.get config office.bench.now address chainId) desk =
        .ok (some record) := by
  rw [hit?] at h
  split at h
  · rename_i found config hvalid hcache
    rw [Address.validate] at hvalid
    split at hvalid
    · rename_i haddress
      cases useCache with
      | true =>
        cases hfound : answered office (Cache.get config office.bench.now address chainId) desk with
        | error failure =>
          rw [hfound] at h
          cases h
        | ok answer =>
          rw [hfound] at h
          exact ⟨rfl, haddress, config, hcache, hfound.trans (congrArg _ h)⟩
      | false => cases hcache
    · cases hvalid
  · cases h

/-- **A call ends with the record that the cache gives**, and makes no request. -/
theorem run_analyzeAddress_of_hit {office : Office} {chainId : Int} {address : String}
    {useCache : Bool} {desk : Desk} {record : AnalysisRecord}
    (h : office.hit? chainId address useCache desk = some record) (around : Option String) :
    ((office.analyzeAddress around chainId address useCache).run desk).1 = .ok record ∧
      ((office.analyzeAddress around chainId address useCache).run desk).2.trace.requests =
        desk.trace.requests := by
  obtain ⟨rfl, hvalid, config, hcache, hfound⟩ := exists_of_hit? h
  obtain ⟨name, given, hrun⟩ := run_analyzeAddress hcache hvalid around chainId desk
  have hanswer : answered office (Cache.get config office.bench.now address chainId)
      { desk with given := given } = .ok (some record) := hfound
  rw [hrun, lookUp, run_bind, run_asked, hanswer]
  exact ⟨rfl, rfl⟩

/-- A lookup that the cache does not answer fetches the contract and hands the record to the
cache. -/
theorem run_lookUp_of_miss {office : Office} {config : Cache.Config} {chainId : Int}
    {address : String} {desk : Desk}
    (h : answered office (Cache.get config office.bench.now address chainId) desk = .ok none)
    (name : String) :
    (office.lookUp config name chainId address).run desk =
      match (office.fetchAndAnalyze name chainId address).run
        (operated office (Cache.get config office.bench.now address chainId) desk) with
      | (.ok record, fetched) => (.ok record, operated office (Cache.store config record) fetched)
      | (.error failure, fetched) => (.error failure, fetched) := by
  rw [lookUp, run_bind, run_asked, h]
  simp only
  rw [run_bind]
  have hfetched := office.returns_fetchAndAnalyze name chainId address
    (operated office (Cache.get config office.bench.now address chainId) desk)
  generalize (office.fetchAndAnalyze name chainId address).run _ = found at hfetched
  obtain ⟨result, fetched⟩ := found
  cases result with
  | error failure => rfl
  | ok record =>
    -- the record of a fetched contract has a key
    obtain ⟨hanalysed, hshort⟩ := hfetched record fetched rfl
    have hkey : config.recordKey record.address record.chainId =
        .ok (config.keyText record.address record.chainId) :=
      Cache.recordKey_of_short (hanalysed.chainId ▸ hshort) _
    obtain ⟨kept, hkept⟩ :=
      Cache.exists_answer_store hkey office.schedule fetched.server fetched.connection
    have hanswer : answered office (Cache.store config record) fetched = .ok kept := hkept
    simp only
    rw [run_bind, run_asked, hanswer]
    rfl

/-- **A call that the cache does not answer fetches the contract** and hands the record to the
cache; or the contract has no key, and the call fails. -/
theorem run_analyzeAddress_of_miss {office : Office} {config : Cache.Config}
    (hcache : office.cache = some config) {chainId : Int} {address : String} {desk : Desk}
    (hvalid : Address.isValid address = true)
    (h : office.hit? chainId address true desk = none) (around : Option String) :
    ∃ name given, (office.analyzeAddress around chainId address true).run desk =
        (match (office.fetchAndAnalyze name chainId address).run
          (operated office (Cache.get config office.bench.now address chainId)
            { desk with given := given }) with
        | (.ok record, fetched) => (.ok record, operated office (Cache.store config record) fetched)
        | (.error failure, fetched) => (.error failure, fetched)) ∨
      ¬ Json.Short chainId ∧ (office.analyzeAddress around chainId address true).run desk =
        (.error .overlong, operated office (Cache.get config office.bench.now address chainId)
          { desk with given := given }) := by
  obtain ⟨name, given, hrun⟩ := run_analyzeAddress hcache hvalid around chainId desk
  rw [hit?_eq_get hcache hvalid] at h
  refine ⟨name, given, ?_⟩
  have hsame : answered office (Cache.get config office.bench.now address chainId)
      { desk with given := given } =
        answered office (Cache.get config office.bench.now address chainId) desk := rfl
  rcases Cache.answer_get_cases config office.bench.now address chainId office.schedule desk.server
    desk.connection with ⟨found, hfound⟩ | ⟨hlong, hfailed⟩
  · have hfound : answered office (Cache.get config office.bench.now address chainId) desk =
        .ok found := hfound
    rw [hfound] at h
    obtain rfl : found = none := h
    exact .inl (hrun.trans (run_lookUp_of_miss (hsame.trans hfound) name))
  · have hfailed : answered office (Cache.get config office.bench.now address chainId) desk =
        .error .overlong := hfailed
    refine .inr ⟨hlong, hrun.trans ?_⟩
    rw [lookUp, run_bind, run_asked, hsame, hfailed]

omit [Platform] in
theorem requests_operated (office : Office) (operation : Cache.Operation α) (desk : Desk) :
    (operated office operation desk).trace.requests = desk.trace.requests := rfl

/-- A call that goes back to the fetcher: it ends as a fetch does, and makes the same requests. -/
def Refetches (office : Office) (around : Option String) (chainId : Int) (address : String)
    (desk : Desk) : Prop :=
  ∃ name asked, asked.trace.requests = desk.trace.requests ∧
    ((office.analyzeAddress around chainId address true).run desk).1 =
      ((office.fetchAndAnalyze name chainId address).run asked).1 ∧
    ((office.analyzeAddress around chainId address true).run desk).2.trace.requests =
      ((office.fetchAndAnalyze name chainId address).run asked).2.trace.requests

theorem refetches_of_miss {office : Office} {config : Cache.Config}
    (hcache : office.cache = some config) {chainId : Int} (hshort : Json.Short chainId)
    {address : String} {desk : Desk} (hvalid : Address.isValid address = true)
    (h : office.hit? chainId address true desk = none) (around : Option String) :
    office.Refetches around chainId address desk := by
  obtain ⟨name, given, hrun | ⟨hlong, -⟩⟩ := run_analyzeAddress_of_miss hcache hvalid h around
  · refine ⟨name, _, requests_operated office
      (Cache.get config office.bench.now address chainId) { desk with given := given }, ?_⟩
    rw [hrun]
    generalize (office.fetchAndAnalyze name chainId address).run _ = found
    obtain ⟨result, fetched⟩ := found
    cases result with
    | error failure => exact ⟨rfl, rfl⟩
    | ok record => exact ⟨rfl, rfl⟩
  · exact absurd hshort hlong

end Office

end ContractLens
