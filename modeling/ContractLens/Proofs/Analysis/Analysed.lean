import ContractLens.Analysis.Lookup
import ContractLens.Proofs.Bytecode.Size
import ContractLens.Proofs.Fetch.Fetched
/-!
# Records of fetched contracts

The record of an input is for the input's address and chain, may be kept exactly when the contract
is not upgradeable, and is well-formed when the input is not absurdly large. So the record of a
fetched contract is for the contract that was asked for, and survives being stored
(`Office.returns_fetchAndAnalyze`).
-/

namespace ContractLens

open Fetch

/-- What the analysis of a fetched contract promises of its record. -/
structure Analysed (net : Http.Network) (chainId : Int) (address : String)
    (record : AnalysisRecord) : Prop where
  /-- It is for the chain that was asked for. -/
  chainId : record.chainId = chainId
  /-- It is for the address, in some spelling. -/
  address : Text.lowerString record.address = Text.lowerString address
  /-- It may be kept if the contract is not upgradeable. -/
  eligible : record.cacheEligible = !record.isUpgradeable
  /-- It is well-formed if no answer of the network is absurdly large. -/
  wellFormed : Http.Fits net → record.WellFormed

theorem short_of_chain {chainId : Int} (h : (Chain.ofId? chainId).isSome = true) :
    Json.Short chainId := by
  have hall : ∀ chain ∈ Chain.all, Json.Short chain.id := by decide
  obtain ⟨chain, hchain⟩ := Option.isSome_iff_exists.mp h
  have hid : chain.id = chainId := by simpa using List.find?_some hchain
  exact hid ▸ hall chain (List.mem_of_find?_eq_some hchain)

namespace Workbench

theorem wellFormed_verifiedRecord (bench : Workbench) (id : String) {input : VerifiedInput}
    (imports : Resolution) (hchain : Json.Short input.chainId)
    (h : SourceFile.Small input.files) :
    (bench.verifiedRecord id input (ParsedSources.ofFiles input.files) imports).WellFormed where
  chainId := hchain
  parsed _ hparsed := Option.mem_some.mp hparsed ▸ ParsedSources.wellFormed_ofFiles h
  dependencyGraph := Table.nodup_names_ofEntries _
  features _ hfeatures := Option.mem_some.mp hfeatures ▸ Features.wellFormed_ofFiles h
  bytecodeAnalysis _ hbytecode := absurd hbytecode (Option.not_mem_none _)

theorem wellFormed_bytecodeRecord (bench : Workbench) (id : String) {input : BytecodeInput}
    (hchain : Json.Short input.chainId) (h : input.bytecodeHex.length < 10 ^ 40) :
    (bench.bytecodeRecord id input (BytecodeReport.ofText bench.settings.thresholds input.address
      input.bytecodeHex)).WellFormed where
  chainId := hchain
  parsed _ hparsed := absurd hparsed (Option.not_mem_none _)
  dependencyGraph := List.nodup_nil
  features _ hfeatures := absurd hfeatures (Option.not_mem_none _)
  bytecodeAnalysis _ hreport := Option.mem_some.mp hreport ▸ BytecodeReport.wellFormed_ofText _ _ h

/-- **The record of an input is well-formed.** -/
theorem wellFormed_analyze (bench : Workbench) (id : String) {input : AnalysisInput}
    (hchain : Json.Short (inputChain input)) (hsmall : Small input) (trace : Trace) :
    ((bench.analyze id input).run trace).1.WellFormed := by
  cases input with
  | verified input => exact bench.wellFormed_verifiedRecord id _ hchain hsmall
  | bytecode input => exact bench.wellFormed_bytecodeRecord id hchain hsmall

/-- **The record of a fetched input is for the contract that was asked for.** -/
theorem analysed_analyze (bench : Workbench) (id : String) {net : Http.Network} {chainId : Int}
    {address : String} {input : AnalysisInput} (h : Fetched net chainId address input)
    (hchain : (Chain.ofId? chainId).isSome = true) (trace : Trace) :
    Analysed net chainId address ((bench.analyze id input).run trace).1 := by
  have hshort : Json.Short (inputChain input) := h.chainId ▸ short_of_chain hchain
  have hwell (hnet : Http.Fits net) := bench.wellFormed_analyze id hshort (h.small hnet) trace
  cases input with
  | verified input => exact ⟨h.chainId, h.address, rfl, hwell⟩
  | bytecode input => exact ⟨h.chainId, h.address, rfl, hwell⟩

end Workbench

namespace Service

variable {α : Type} {post : α → Prop}

theorem returns_attempt {run : Attempt α} (h : Returns run post) : Returns (attempt run) post := by
  refine (returns_lift (fun result => ∀ a, result = .ok a → post a) fun desk a heq => ?_).bind
    fun result hresult => ?_
  · exact h desk.trace a _ (Prod.ext heq rfl)
  · cases result with
    | ok a => exact returns_pure (hresult a rfl)
    | error failure => exact returns_throw failure

end Service

/-- **A call past the cache returns a record of the contract that was asked for.** -/
theorem Office.returns_fetchAndAnalyze [Platform] (office : Office) (name : String)
    (chainId : Int) (address : String) :
    Returns (office.fetchAndAnalyze name chainId address) fun record =>
      Analysed office.bench.net chainId address record ∧ Json.Short chainId := by
  have hfetch : Returns (office.fetch chainId address) fun input =>
      Fetched office.bench.net chainId address input ∧ (Chain.ofId? chainId).isSome = true :=
    Service.returns_attempt ((office.fetchPolicy address).returns_run fun _ =>
      returns_resolve office.bench.net office.bench.settings chainId address)
  refine hfetch.bind fun input hinput => ?_
  refine (returns_true (Service.nameFor office (some name))).bind fun id _ => ?_
  exact returns_lift _ fun desk =>
    ⟨office.bench.analysed_analyze id hinput.1 hinput.2 desk.trace, short_of_chain hinput.2⟩

end ContractLens
