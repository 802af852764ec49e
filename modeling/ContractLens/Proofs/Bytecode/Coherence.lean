import ContractLens.Proofs.Bytecode.Counts
import ContractLens.Proofs.Bytecode.Findings
import ContractLens.Proofs.Text.Keyword
import ContractLens.Proofs.Upgradeable.Verdict
/-!
# Records of deployed code

The verdict on deployed code is found by going through the code once more, apart from the report
that stands in the record. Both go through the same normal form, so the record agrees with itself
(`coherent_recordOf`): the verdict can be read off the proxy sign, the counts and the functions of
the report, and where there is no code there is nothing to report.
-/

namespace ContractLens

open Text

/-! ## Findings -/

namespace Risk

/-- What is found where code is delegated to. -/
def delegation : String := "Contract uses delegatecall - potential proxy pattern"

/-- **Delegation is found where it is counted.** -/
theorem delegation_mem_risks_iff {thresholds : Thresholds} {counts : Table Int}
    {selectors : List Selector} :
    delegation ∈ (rate thresholds counts selectors).risks ↔
      counted counts "DELEGATECALL" = true := by
  rw [mem_risks_iff]
  constructor
  · rintro ⟨s, found, hfound, hrisk⟩
    -- the words of the finding are those of its signal
    obtain rfl : s = .delegation := by
      have hvoices := voices_of_finding? hfound .delegation
      rw [hrisk] at hvoices
      exact beq_iff_eq.mp (hvoices.symm.trans (by decide))
    exact isSome_signal.symm.trans (Option.isSome_of_mem hfound)
  · intro hcounted
    exact ⟨.delegation, _, if_pos hcounted, rfl⟩

end Risk

/-! ## Code of less than a byte -/

namespace Code

theorem isUpgradeable_iff {code : List Char} {selectors : List Selector} :
    isUpgradeable code selectors = true ↔
      "DELEGATECALL" ∈ Opcode.all (normalize code) ∨
        ∃ s ∈ selectors, s.selector ∈ Selector.proxyAdminGroup := by
  rw [isUpgradeable, Bool.or_eq_true, Opcode.counted_count_iff, List.any_eq_true]
  simp only [List.contains_iff_mem]

theorem isMinimalProxy_of_short {code : List Char} (h : (normalize code).length < 2) :
    isMinimalProxy code = false := by
  rw [isMinimalProxy]
  split
  · rename_i rest hrest
    have htext := dropStart?_eq_some_iff.mp hrest
    have hstart : 2 ≤ minimalProxyStart.toList.length := by decide
    rw [htext, List.length_append] at h
    omega
  · rfl

end Code

/-! ## Kinds of contract -/

theorem Archetype.words_eq_proxy_iff {kind : Archetype} :
    kind.words = proxy.words ↔ kind = proxy := by
  cases kind <;> decide

theorem Archetype.exists_of_proxy {present : List String} (h : ofSelectors present = proxy) :
    ∃ selector ∈ present, selector ∈ Selector.proxyAdminGroup := by
  rw [ofSelectors] at h
  split at h
  · cases h
  split at h
  · cases h
  split at h
  · cases h
  split at h
  · cases h
  split at h
  · rename_i hproxy
    obtain ⟨selector, hselector, hpresent⟩ := List.any_eq_true.mp hproxy
    exact ⟨selector, List.contains_iff_mem.mp hpresent, hselector⟩
  · cases h

/-! ## Reports -/

namespace Selector

theorem window?_of_short {code : List Char} (h : code.length < 8) : window? code = none := by
  rw [window?, if_neg]
  simp only [List.length_take, beq_iff_eq]
  omega

/-- Less than eight characters hold no function. -/
theorem occurrences_of_short {code : List Char} (h : code.length < 8) : occurrences code = [] := by
  induction code using occurrences.induct with
  | case1 high low rest found hfound ih =>
    rw [window?_of_short h] at hfound
    cases hfound
  | case2 high low rest hnone ih =>
    rw [occurrences, hnone]
    exact ih (Nat.lt_of_le_of_lt (Nat.le_add_right _ 2) h)
  | case3 code hshort =>
    rw [occurrences.eq_def]
    split
    · exact absurd rfl (hshort _ _ _)
    · rfl

end Selector

namespace BytecodeReport

variable (thresholds : Thresholds) (address bytecode : String)

/-- The report on less than a byte is empty. -/
theorem ofText_of_short (h : (Code.normalize bytecode.toList).length < 2) :
    ∃ shown, ofText thresholds address bytecode = empty address shown :=
  ⟨_, if_pos h⟩

/-- The report on at least a byte is that on its normal form. -/
theorem ofText_of_code (h : ¬ (Code.normalize bytecode.toList).length < 2) :
    ∃ shown, ofText thresholds address bytecode =
      ofCode thresholds address shown (Code.normalize bytecode.toList) :=
  ⟨_, if_neg h⟩

/-- What holds of an empty report where there is less than a byte, and of a report on the normal
form, holds of the report on a text. -/
theorem of_ofText {p : BytecodeReport → Prop}
    (hshort : (Code.normalize bytecode.toList).length < 2 → ∀ shown, p (empty address shown))
    (hcode : ∀ shown, p (ofCode thresholds address shown (Code.normalize bytecode.toList))) :
    p (ofText thresholds address bytecode) := by
  by_cases h : (Code.normalize bytecode.toList).length < 2
  · obtain ⟨shown, hreport⟩ := ofText_of_short thresholds address bytecode h
    rw [hreport]
    exact hshort h shown
  · obtain ⟨shown, hreport⟩ := ofText_of_code thresholds address bytecode h
    rw [hreport]
    exact hcode shown

theorem opcodeCounters_ofText : (ofText thresholds address bytecode).opcodeCounters =
    Opcode.count (Code.normalize bytecode.toList) := by
  refine of_ofText (p := fun report => report.opcodeCounters = _) _ _ _ (fun h shown => ?_) ?_
  · rw [Opcode.count, Opcode.all_of_short h]
    rfl
  · exact fun shown => rfl

theorem functionSelectors_ofText : (ofText thresholds address bytecode).functionSelectors =
    Selector.extract (Code.normalize bytecode.toList) := by
  refine of_ofText (p := fun report => report.functionSelectors = _) _ _ _ (fun h shown => ?_) ?_
  · rw [Selector.extract, Selector.occurrences_of_short (by omega)]
    rfl
  · exact fun shown => rfl

theorem contractType_ofText : (ofText thresholds address bytecode).contractType =
    (Archetype.ofSelectors ((Selector.extract (Code.normalize bytecode.toList)).map
      (·.selector))).words := by
  refine of_ofText (p := fun report => report.contractType = _) _ _ _ (fun h shown => ?_) ?_
  · rw [Selector.extract, Selector.occurrences_of_short (by omega)]
    rfl
  · exact fun shown => rfl

theorem delegation_mem_ofText_iff :
    Risk.delegation ∈ (ofText thresholds address bytecode).riskAssessment.risks ↔
      "DELEGATECALL" ∈ Opcode.all (Code.normalize bytecode.toList) := by
  refine of_ofText (p := fun report => Risk.delegation ∈ report.riskAssessment.risks ↔ _) _ _ _
    (fun h shown => ?_) fun shown => ?_
  · rw [Opcode.all_of_short h]
    exact ⟨nofun, nofun⟩
  · rw [← Opcode.counted_count_iff]
    exact Risk.delegation_mem_risks_iff

theorem isContract_ofText : (ofText thresholds address bytecode).isContract = false ↔
    (Code.normalize bytecode.toList).length < 2 := by
  constructor
  · intro hnone
    by_contra h
    obtain ⟨shown, hreport⟩ := ofText_of_code thresholds address bytecode h
    rw [hreport] at hnone
    cases hnone
  · intro h
    obtain ⟨shown, hreport⟩ := ofText_of_short thresholds address bytecode h
    rw [hreport]
    rfl

end BytecodeReport

/-! ## Records -/

/-- A record of deployed code that agrees with the report in it. -/
structure AnalysisRecord.Coherent (record : AnalysisRecord) (report : BytecodeReport) : Prop where
  /-- The report stands in the record. -/
  reported : record.bytecodeAnalysis = some report
  /-- The contract is upgradeable just when its code has the layout of a minimal proxy, delegates,
  or has one of the functions that administrate a proxy. -/
  upgradeable_iff : record.isUpgradeable = true ↔ record.proxy.minimal = true ∨
    "DELEGATECALL" ∈ report.opcodeCounters.names ∨
    ∃ s ∈ report.functionSelectors, s.selector ∈ Selector.proxyAdminGroup
  /-- Delegation is among the risks just when it is counted. -/
  delegation_iff : Risk.delegation ∈ report.riskAssessment.risks ↔
    "DELEGATECALL" ∈ report.opcodeCounters.names
  /-- What is called a proxy is upgradeable. -/
  of_proxy : report.contractType = Archetype.proxy.words → record.isUpgradeable = true
  /-- The record may be kept just when the contract is not upgradeable. -/
  eligible : record.cacheEligible = !record.isUpgradeable
  /-- Where there is no contract there is nothing to report. -/
  of_none : report.isContract = false → report.functionSelectors = [] ∧
    report.opcodeCounters = [] ∧ report.riskAssessment = .none ∧ report.estimatedComplexity = 0 ∧
    record.isUpgradeable = false

namespace Workbench

variable (bench : Workbench) (id : String) (trace : Trace)

/-- The record of deployed code holds the report on it. -/
theorem recordOf_bytecode (input : BytecodeInput) :
    bench.recordOf id trace (.bytecode input) =
      bench.bytecodeRecord id input (BytecodeReport.ofText bench.settings.thresholds input.address
        input.bytecodeHex) :=
  rfl

theorem isUpgradeable_recordOf_iff (input : BytecodeInput) :
    (bench.recordOf id trace (.bytecode input)).isUpgradeable = true ↔
      Code.isMinimalProxy input.bytecodeHex.toList = true ∨
      "DELEGATECALL" ∈ Opcode.all (Code.normalize input.bytecodeHex.toList) ∨
      ∃ s ∈ Selector.extract (Code.normalize input.bytecodeHex.toList),
        s.selector ∈ Selector.proxyAdminGroup := by
  rw [recordOf_bytecode, ← BytecodeReport.functionSelectors_ofText bench.settings.thresholds
    input.address, ← Code.isUpgradeable_iff, ← Bool.or_eq_true]
  rfl

/-- **The record of deployed code agrees with itself**, whatever the code text. -/
theorem coherent_recordOf (input : BytecodeInput) : ∃ report,
    (bench.recordOf id trace (.bytecode input)).Coherent report := by
  refine ⟨BytecodeReport.ofText bench.settings.thresholds input.address input.bytecodeHex,
    rfl, ?_, ?_, ?_, bench.cacheEligible_recordOf id trace _, ?_⟩
  · rw [isUpgradeable_recordOf_iff, BytecodeReport.opcodeCounters_ofText,
      BytecodeReport.functionSelectors_ofText, Opcode.count, Opcode.mem_names_tally_iff]
    rfl
  · rw [BytecodeReport.delegation_mem_ofText_iff, BytecodeReport.opcodeCounters_ofText,
      Opcode.count, Opcode.mem_names_tally_iff]
  · intro hproxy
    rw [BytecodeReport.contractType_ofText, Archetype.words_eq_proxy_iff] at hproxy
    obtain ⟨selector, hselector, hgroup⟩ := Archetype.exists_of_proxy hproxy
    obtain ⟨s, hs, rfl⟩ := List.mem_map.mp hselector
    exact (bench.isUpgradeable_recordOf_iff id trace input).mpr (.inr (.inr ⟨s, hs, hgroup⟩))
  · intro hnone
    have hshort := (BytecodeReport.isContract_ofText _ _ _).mp hnone
    obtain ⟨shown, hreport⟩ := BytecodeReport.ofText_of_short bench.settings.thresholds
      input.address input.bytecodeHex hshort
    rw [hreport]
    refine ⟨rfl, rfl, rfl, rfl, Bool.eq_false_iff.mpr fun hupgradeable => ?_⟩
    rw [isUpgradeable_recordOf_iff, Code.isMinimalProxy_of_short hshort,
      Opcode.all_of_short hshort, Selector.extract, Selector.occurrences_of_short (by omega)]
      at hupgradeable
    simp [Selector.firsts] at hupgradeable

end Workbench

end ContractLens
