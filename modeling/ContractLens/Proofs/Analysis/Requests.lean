import ContractLens.Proofs.Analysis.Desk
import ContractLens.Proofs.Fetch.Requests
import ContractLens.Proofs.Import.Requests
/-!
# The requests of a call

A call for a text that is no address, for an unknown chain, or for a record in the cache makes no
request (`requests_of_unfetched`). Any other makes those of its attempts to fetch the contract, all
but the last one full, and after verified source those of the imports that are looked up over the
network (`asks_fetchAndAnalyze`). With libraries that ask no network there are only the attempts.
-/

namespace ContractLens

open Fetch Service

section Requests

variable [Platform] {α : Type}

namespace Workbench

/-- What is asked for the imports of a fetched contract. -/
def inquiries (bench : Workbench) : AnalysisInput → List Inquiry
  | .verified input => Import.inquiries (bench.library.getD (libraryOf bench.settings))
      (Import.wanted input.files)
  | .bytecode _ => []

omit [Platform] in
/-- Where no library asks the network, nothing is asked for imports. -/
theorem inquiries_eq_nil {bench : Workbench}
    (h : (bench.library.getD (libraryOf bench.settings)).bases = []) (input : AnalysisInput) :
    bench.inquiries input = [] := by
  cases input with
  | verified input =>
    rw [inquiries, Import.inquiries, h]
    exact List.flatMap_eq_nil_iff.mpr fun _ _ => rfl
  | bytecode input => rfl

omit [Platform] in
theorem asks_analyze (bench : Workbench) (id : String) (input : AnalysisInput) (trace : Trace) :
    Asks trace (fun asked record => SentSome (bench.inquiries input) asked ∧
        (record.verified = true ↔ ∃ source, input = .verified source))
      ((bench.analyze id input).run trace) := by
  cases input with
  | verified input =>
    -- the reports around the resolution of the imports are no requests
    obtain ⟨asked, hasked, hsome⟩ := Import.asks_resolveWith bench.net
      (bench.library.getD (libraryOf bench.settings))
      (.ofSeconds bench.settings.importTimeoutSeconds) input.files
      { trace with entries := trace.entries ++ [(ParsedSources.ofFiles input.files).entry] }
    exact ⟨asked, hasked, hsome, fun _ => ⟨input, rfl⟩, fun _ => rfl⟩
  | bytecode input =>
    refine ⟨[], (List.append_nil _).symm, sentSome_nil _, fun hverified => ?_, ?_⟩
    · cases hverified
    · rintro ⟨source, hsource⟩
      cases hsource

end Workbench

namespace Service

omit [Platform] in
theorem run_attempt (m : Attempt α) (desk : Desk) :
    (attempt m).run desk = ((m.run desk.trace).1, { desk with trace := (m.run desk.trace).2 }) := by
  have htraced : (traced m.run).run desk =
      (.ok (m.run desk.trace).1, { desk with trace := (m.run desk.trace).2 }) := rfl
  rw [attempt, run_bind, htraced]
  cases (m.run desk.trace).1 <;> rfl

end Service

namespace Office

variable {office : Office} {chain : Chain} {chainId : Int} {address : String}

/-- What a call asks that fetches a contract: attempts, and then imports. -/
structure Fetches (office : Office) (chain : Chain) (chainId : Int) (address : String)
    (earlier asked : List Http.Request) (result : Except Failure AnalysisRecord)
    (rounds : Rounds AnalysisInput) (lookups : List Http.Request) : Prop where
  /-- It makes the requests of the attempts, and then those of the imports. -/
  asked : asked = rounds.asked ++ lookups
  /-- The attempts are made one after the other, at most as often again as allowed. -/
  made : rounds.Made (Course office.bench.net office.bench.settings chain chainId address)
    office.bench.settings.fetchRetries earlier
  /-- Every attempt but the last is full. -/
  full : ∀ round ∈ rounds.failed,
    Sent (inquiries office.bench.settings chain chainId address) round.asked
  /-- The last is the beginning of a full one. -/
  begun : Begun (inquiries office.bench.settings chain chainId address) rounds.last.asked
  /-- Imports are looked up when the last attempt found verified source. -/
  imports : SentSome ((rounds.last.result.toOption.map office.bench.inquiries).getD []) lookups
  /-- Without a library that asks the network there are none. -/
  offline : (office.bench.library.getD (Workbench.libraryOf office.bench.settings)).bases = [] →
    lookups = []
  /-- It returns a record of what the last attempt found, or fails as the attempts did. -/
  ends : Meets (fun record => ∃ input, rounds.last.result = .ok input ∧
      (record.verified = true ↔ ∃ source, input = .verified source))
    (fun failure => rounds.Ended (office.fetchPolicy address) 0 (.error failure)) result

/-- Attempts that take their course, and what was asked for imports after them. -/
theorem fetches_of_made {earlier lookups : List Http.Request}
    {result : Except Failure AnalysisRecord} {rounds : Rounds AnalysisInput}
    (h : rounds.Made (Course office.bench.net office.bench.settings chain chainId address)
      office.bench.settings.fetchRetries earlier)
    (hlookups : SentSome ((rounds.last.result.toOption.map office.bench.inquiries).getD []) lookups)
    (hends : Meets (fun record => ∃ input, rounds.last.result = .ok input ∧
        (record.verified = true ↔ ∃ source, input = .verified source))
      (fun failure => rounds.Ended (office.fetchPolicy address) 0 (.error failure)) result) :
    office.Fetches chain chainId address earlier (rounds.asked ++ lookups) result rounds
      lookups where
  asked := rfl
  made := h
  full := by
    intro round hround
    obtain ⟨failure, hfailure, hagain⟩ := h.again round hround
    exact (h.course round (List.mem_append_left _ hround)).again failure hfailure hagain
  begun := (h.course _ (List.mem_append_right _ List.mem_cons_self)).begun
  imports := hlookups
  offline := by
    intro hbases
    refine SentSome.eq_nil ?_
    cases hresult : rounds.last.result with
    | error failure => rwa [hresult] at hlookups
    | ok input =>
      rw [hresult] at hlookups
      exact Workbench.inquiries_eq_nil hbases input ▸ hlookups
  ends := hends

/-- A fetch is tried as often as the policy allows; what it found is analysed. -/
theorem run_fetchAndAnalyze (office : Office) (name : String) (chainId : Int) (address : String)
    (desk : Desk) :
    (office.fetchAndAnalyze name chainId address).run desk =
      match ((office.fetchPolicy address).run fun _ =>
        resolve office.bench.net office.bench.settings chainId address).run desk.trace with
      | (.ok input, after) =>
        (.ok ((office.bench.analyze name input).run after).1,
          { desk with trace := ((office.bench.analyze name input).run after).2 })
      | (.error failure, after) => (.error failure, { desk with trace := after }) := by
  rw [fetchAndAnalyze, run_bind, fetch, Service.run_attempt]
  cases ((office.fetchPolicy address).run fun _ =>
    resolve office.bench.net office.bench.settings chainId address).run desk.trace with
  | mk result after => cases result <;> rfl

theorem asks_fetchAndAnalyze (office : Office) (hvalid : Address.isValid address = true)
    (hchain : Chain.ofId? chainId = some chain) (name : String) (desk : Desk) :
    Asks desk.trace (fun asked result => ∃ rounds lookups,
        office.Fetches chain chainId address desk.trace.requests asked result rounds lookups)
      (((office.fetchAndAnalyze name chainId address).run desk).1,
        ((office.fetchAndAnalyze name chainId address).run desk).2.trace) := by
  have hfetch := (office.fetchPolicy address).asks_run
    (fun _ => asks_resolve office.bench.net office.bench.settings hvalid hchain) desk.trace
  rw [run_fetchAndAnalyze]
  generalize ((office.fetchPolicy address).run fun _ =>
    resolve office.bench.net office.bench.settings chainId address).run desk.trace = tried at hfetch
  obtain ⟨fetched, after⟩ := tried
  obtain ⟨asked, hasked, rounds, hmade, rfl, hended⟩ := hfetch
  cases fetched with
  | error failure =>
    have hfetches : office.Fetches chain chainId address desk.trace.requests (rounds.asked ++ [])
        (.error failure) rounds [] := fetches_of_made hmade (sentSome_nil _) hended
    rw [List.append_nil] at hfetches
    exact ⟨rounds.asked, hasked, rounds, [], hfetches⟩
  | ok input =>
    have hfetched := hended.result_eq_ok
    obtain ⟨lookups, hlookups, hsome, hverified⟩ := office.bench.asks_analyze name input after
    refine ⟨rounds.asked ++ lookups, ?_, rounds, lookups, fetches_of_made hmade ?_ ?_⟩
    · rw [← List.append_assoc, ← hasked, ← hlookups]
    · rw [hfetched]
      exact hsome
    · exact ⟨input, hfetched, hverified⟩

/-- On an unknown chain nothing is asked. -/
theorem requests_fetchAndAnalyze_of_unknown (office : Office)
    (hchain : Chain.ofId? chainId = none) (address name : String) (desk : Desk) :
    ((office.fetchAndAnalyze name chainId address).run desk).2.trace.requests =
      desk.trace.requests := by
  have hfetch := (office.fetchPolicy address).asks_run
    (fun _ => asks_resolve_of_unknown office.bench.net office.bench.settings hchain address)
    desk.trace
  rw [run_fetchAndAnalyze]
  generalize ((office.fetchPolicy address).run fun _ =>
    resolve office.bench.net office.bench.settings chainId address).run desk.trace = tried at hfetch
  obtain ⟨fetched, after⟩ := tried
  obtain ⟨asked, hasked, rounds, hmade, rfl, hended⟩ := hfetch
  have hnone : rounds.asked = [] :=
    List.flatMap_eq_nil_iff.mpr fun round hround => (hmade.course round hround).1
  rw [hnone, List.append_nil] at hasked
  cases fetched with
  | error failure => exact hasked
  | ok input =>
    obtain ⟨-, failure, hfailure⟩ := hmade.course _ (List.mem_append_right _ List.mem_cons_self)
    cases hended.result_eq_ok.symm.trans hfailure

/-- A call that the cache does not answer is a fetch, past the cache or before the record is handed
to it; or there is no key to ask the cache for, and nothing is requested. -/
theorem exists_fetchAndAnalyze_of_miss {useCache : Bool} {desk : Desk}
    (hvalid : Address.isValid address = true)
    (hmiss : office.hit? chainId address useCache desk = none) (around : Option String) :
    (∃ name asked, asked.trace.requests = desk.trace.requests ∧
      ((office.analyzeAddress around chainId address useCache).run desk).1 =
        ((office.fetchAndAnalyze name chainId address).run asked).1 ∧
      ((office.analyzeAddress around chainId address useCache).run desk).2.trace.requests =
        ((office.fetchAndAnalyze name chainId address).run asked).2.trace.requests) ∨
    ¬ Json.Short chainId ∧
      ((office.analyzeAddress around chainId address useCache).run desk).2.trace.requests =
        desk.trace.requests := by
  have hvalidate : Address.validate address = .ok address := if_pos hvalid
  have hpast (h : (if useCache then office.cache else none) = none) :
      ∃ name asked, asked.trace.requests = desk.trace.requests ∧
        (office.analyzeAddress around chainId address useCache).run desk =
          (office.fetchAndAnalyze name chainId address).run asked := by
    rw [analyzeAddress, hvalidate, h]
    cases around with
    | some name => exact ⟨name, desk, rfl, rfl⟩
    | none => exact ⟨office.fresh desk.given, { desk with given := desk.given + 1 }, rfl, rfl⟩
  cases hconfig : if useCache then office.cache else none with
  | none =>
    obtain ⟨name, asked, hasked, hrun⟩ := hpast hconfig
    exact .inl ⟨name, asked, hasked, by rw [hrun], by rw [hrun]⟩
  | some config =>
    cases useCache with
    | false => cases hconfig
    | true =>
      by_cases hshort : Json.Short chainId
      · exact .inl (refetches_of_miss hconfig hshort hvalid hmiss around)
      obtain ⟨name, given, hrun⟩ := run_analyzeAddress_of_miss hconfig hvalid hmiss around
      refine .inr ⟨hshort, ?_⟩
      rcases hrun with hrun | ⟨-, hrun⟩
      · -- the fetch fails as well, before it requests anything
        have hunknown : Chain.ofId? chainId = none := by
          rw [← Option.not_isSome_iff_eq_none]
          exact fun hknown => hshort (short_of_chain hknown)
        have hfetch := office.requests_fetchAndAnalyze_of_unknown hunknown address name
          (operated office (Cache.get config office.bench.now address chainId)
            { desk with given := given })
        rw [requests_operated] at hfetch
        rw [hrun]
        generalize (office.fetchAndAnalyze name chainId address).run _ = found at hfetch
        obtain ⟨result, fetched⟩ := found
        cases result <;> exact hfetch
      · rw [hrun, requests_operated]

/-- A call that is rejected, or for an unknown chain, or answered by the cache. -/
def Unfetched (office : Office) (chainId : Int) (address : String) (useCache : Bool)
    (desk : Desk) : Prop :=
  Address.isValid address = false ∨ Chain.ofId? chainId = none ∨
    (office.hit? chainId address useCache desk).isSome = true

/-- **Such a call makes no request.** -/
theorem requests_of_unfetched {useCache : Bool} {desk : Desk}
    (h : office.Unfetched chainId address useCache desk) (around : Option String) :
    ((office.analyzeAddress around chainId address useCache).run desk).2.trace.requests =
      desk.trace.requests := by
  cases hvalid : Address.isValid address with
  | false =>
    rw [analyzeAddress, Address.validate, hvalid]
    rfl
  | true =>
  cases hhit : office.hit? chainId address useCache desk with
  | some record => exact (run_analyzeAddress_of_hit hhit around).2
  | none =>
    obtain hinvalid | hchain | hsome := h
    · rw [hinvalid] at hvalid
      cases hvalid
    · rcases exists_fetchAndAnalyze_of_miss hvalid hhit around with
        ⟨name, asked, hasked, -, hrequests⟩ | ⟨-, hrequests⟩
      · rw [hrequests, office.requests_fetchAndAnalyze_of_unknown hchain, hasked]
      · exact hrequests
    · rw [hhit] at hsome
      cases hsome

/-- **The requests of a call.** It makes none if the text is no address, the chain is unknown, or
the cache answers. Else they are those of at most one attempt more than there are retries, each
attempt but the last a full one and the last the beginning of one, and after them those of imports.
Imports are asked for only where the last attempt found verified source and a library asks the
network, and each at most once below each of the library's addresses. -/
theorem requests_analyzeAddress (office : Office) (around : Option String) (chainId : Int)
    (address : String) (useCache : Bool) (desk : Desk) :
    ∃ asked, ((office.analyzeAddress around chainId address useCache).run desk).2.trace.requests =
        desk.trace.requests ++ asked ∧
      (office.Unfetched chainId address useCache desk → asked = []) ∧
      ∀ chain, Address.isValid address = true → Chain.ofId? chainId = some chain →
        office.hit? chainId address useCache desk = none →
        ∃ rounds lookups, office.Fetches chain chainId address desk.trace.requests asked
          ((office.analyzeAddress around chainId address useCache).run desk).1 rounds lookups := by
  by_cases hunfetched : office.Unfetched chainId address useCache desk
  · refine ⟨[], ?_, fun _ => rfl, fun chain hvalid hchain hmiss => ?_⟩
    · rw [requests_of_unfetched hunfetched around, List.append_nil]
    · obtain hinvalid | hunknown | hhit := hunfetched
      · rw [hinvalid] at hvalid
        cases hvalid
      · rw [hunknown] at hchain
        cases hchain
      · rw [hmiss] at hhit
        cases hhit
  · have hneeded := hunfetched
    rw [Unfetched, not_or, not_or, Bool.not_eq_false, ← Ne, Option.ne_none_iff_exists',
      Bool.not_eq_true, Option.isSome_eq_false_iff, Option.isNone_iff_eq_none] at hneeded
    obtain ⟨hvalid, ⟨chain, hchain⟩, hmiss⟩ := hneeded
    have hshort : Json.Short chainId := short_of_chain (by rw [hchain]; rfl)
    obtain ⟨name, desk', hsame, hresult, hrequests⟩ :=
      (exists_fetchAndAnalyze_of_miss hvalid hmiss around).resolve_right fun hlong =>
        hlong.1 hshort
    obtain ⟨asked, hasked, hfetches⟩ := office.asks_fetchAndAnalyze hvalid hchain name desk'
    refine ⟨asked, ?_, fun h => absurd h hunfetched, fun other _ hother _ => ?_⟩
    · rw [hrequests, ← hsame]
      exact hasked
    · cases hchain.symm.trans hother
      rw [hresult, ← hsame]
      exact hfetches

end Office

end Requests

namespace Office

/-! ## Imports over the network -/

/-- Settings that let imports be looked up over the network. -/
def importingSettings : Settings := { Settings.usual with importCdnEnabled := true }

/-- The published source of a contract with one import. -/
def importingAnswer : String :=
  "\x7b\"match\":\"match\",\"sources\":\x7b\"Vault.sol\":\"import '@aave/IPool.sol';\"\x7d\x7d"

/-- An office where every read brings that source. -/
def importingOffice : Office :=
  ⟨⟨importingSettings, answeringNetwork importingAnswer, none, .epoch⟩, none, .calm,
    fun _ => "scope"⟩

/-- **The requests need not be those of attempts alone**: after the one read that brings the source
of a contract comes another for its import, where a full attempt would go on to the node. -/
theorem reads_import_after_fetch :
    Address.isValid somewhere = true ∧ importingOffice.hit? 1 somewhere true {} = none ∧
      ∃ chain, Chain.ofId? 1 = some chain ∧ ¬ ∃ (full : List (List Http.Request)) (last : _),
        ((importingOffice.analyzeAddress none 1 somewhere true).run {}).2.trace.requests =
            full.flatten ++ last ∧
          full.length ≤ importingSettings.fetchRetries ∧
          (∀ attempt ∈ full, Sent (inquiries importingSettings chain 1 somewhere) attempt) ∧
          Begun (inquiries importingSettings chain 1 somewhere) last := by
  have hreads : ((importingOffice.analyzeAddress none 1 somewhere true).run
      {}).2.trace.requests.map Http.Request.method = [.get, .get] := by
    decide +kernel
  have hfull : ∀ chain, (inquiries importingSettings chain 1 somewhere).map Inquiry.method =
      [.get, .post] := fun _ => rfl
  refine ⟨by decide, rfl, _, rfl, ?_⟩
  rintro ⟨full, last, hrequests, -, hsent, hbegun⟩
  rw [hrequests, List.map_append] at hreads
  cases full with
  | nil =>
    have hprefix := hbegun.methods
    rw [hfull] at hprefix
    rw [List.flatten_nil, List.map_nil, List.nil_append] at hreads
    rw [hreads] at hprefix
    exact absurd hprefix (by decide)
  | cons attempt full =>
    rw [List.flatten_cons, List.map_append, (hsent attempt List.mem_cons_self).methods,
      hfull] at hreads
    cases hreads

end Office

end ContractLens
