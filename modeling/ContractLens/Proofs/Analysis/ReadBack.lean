import ContractLens.Proofs.Calendar.ReadBack
import ContractLens.Proofs.Json.Plain
import ContractLens.Proofs.Schema.Accepted
import Mathlib.Algebra.Ring.Nat
/-!
# Records are read back

A record is written as a plain value (`AnalysisRecord.plain_toJson`) and its reader accepts that
value as the same record (`AnalysisRecord.read_toJson`); together, its text is read back as the
record it was written from (`AnalysisRecord.decode_encode`). What this asks of a record,
`AnalysisRecord.WellFormed`, is what the data types of its parts promise: the names of a table are
distinct, a score lies between 0 and 100, and whole numbers have no more digits than JSON text may
hold.

Without any of it a text that is read back at all has the two flags that decide whether a record may
be kept (`AnalysisRecord.flags_of_decode_encode`).
-/

namespace ContractLens

open Json Schema

variable {strict : Prop}

/-! ## Source -/

theorem Contract.read_toJson (c : Contract) : Contract.read (c.toJson .wire) = .accepted c := by
  simp only [Contract.read, Contract.toJson, record]
  rw [required_accepted (a := c.name) rfl rfl, required_accepted (a := c.path) rfl rfl,
    defaulted_accepted rfl (texts_accepted c.functions),
    defaulted_accepted rfl (texts_accepted c.events),
    defaulted_accepted rfl (texts_accepted c.modifiers),
    defaulted_accepted (a := c.isAbstract) rfl rfl,
    defaulted_accepted rfl (texts_accepted c.inherits),
    defaulted_accepted (a := c.lineCount) rfl rfl]
  rfl

theorem Contract.plain_toJson {c : Contract} (h : strict → Short c.lineCount) :
    Plain strict 2 (c.toJson .wire) := by
  refine .object (fun _ => of_decide_eq_true (by rfl)) ?_
  simp only [List.forall_mem_cons]
  exact ⟨.text _, .text _, plain_texts _ _, plain_texts _ _, plain_texts _ _, .bool _,
    plain_texts _ _, .int h, by simp⟩

theorem CallNode.read_toJson (node : CallNode) :
    CallNode.read (node.toJson .wire) = .accepted node := by
  simp only [CallNode.read, CallNode.toJson, record]
  rw [defaulted_accepted rfl (nameSet_accepted node.calls),
    defaulted_accepted rfl (nameSet_accepted node.calledBy)]
  rfl

theorem CallNode.plain_toJson (node : CallNode) : Plain strict 2 (node.toJson .wire) := by
  refine .object (fun _ => of_decide_eq_true (by rfl)) ?_
  simp only [List.forall_mem_cons]
  exact ⟨plain_texts _ _, plain_texts _ _, by simp⟩

/-- The names of a call graph are distinct, and its counts short enough for JSON text. -/
structure ParsedSources.WellFormed (p : ParsedSources) : Prop where
  /-- The contracts' counts of lines are short. -/
  contracts : ∀ c ∈ p.contracts, Short c.lineCount
  /-- No contract has two places in the call graph. -/
  callGraph : (Table.names p.callGraph).Nodup
  /-- The totals are short. -/
  totals : Short p.totalLines ∧ Short p.totalFunctions ∧ Short p.totalEvents

theorem ParsedSources.read_toJson (p : ParsedSources) :
    ParsedSources.read (p.toJson .wire) = .accepted p := by
  have hcontracts : list Contract.read (.list (p.contracts.map (Contract.toJson .wire))) =
      .accepted p.contracts := list_accepted fun c _ => c.read_toJson
  have hgraph : CallGraph.read (p.callGraph.toJson .wire) = .accepted p.callGraph :=
    map_accepted fun entry _ => entry.2.read_toJson
  simp only [ParsedSources.read, ParsedSources.toJson, record]
  rw [defaulted_accepted rfl hcontracts, defaulted_accepted rfl hgraph,
    defaulted_accepted rfl (optionalText_accepted p.mainContract),
    defaulted_accepted (a := p.totalLines) rfl rfl,
    defaulted_accepted (a := p.totalFunctions) rfl rfl,
    defaulted_accepted (a := p.totalEvents) rfl rfl]
  rfl

theorem ParsedSources.plain_toJson {p : ParsedSources} (h : strict → p.WellFormed) :
    Plain strict 4 (p.toJson .wire) := by
  refine .object (fun _ => of_decide_eq_true (by rfl)) ?_
  simp only [List.forall_mem_cons]
  exact ⟨plain_list_map fun c hc => Contract.plain_toJson fun hs => (h hs).contracts c hc,
    plain_object_map (fun hs => (h hs).callGraph) fun entry _ => entry.2.plain_toJson,
    plain_optionalText _ _, .int fun hs => (h hs).totals.1, .int fun hs => (h hs).totals.2.1,
    .int fun hs => (h hs).totals.2.2, by simp⟩

/-! ## Imports and features -/

theorem Provenance.read_word (p : Provenance) : Provenance.read (.text p.word) = .accepted p := by
  cases p <;> rfl

theorem ResolvedImport.read_toJson (r : ResolvedImport) :
    ResolvedImport.read (r.toJson .wire) = .accepted r := by
  simp only [ResolvedImport.read, ResolvedImport.toJson, record]
  rw [required_accepted (a := r.path) rfl rfl, required_accepted rfl r.type.read_word,
    defaulted_accepted (a := ()) rfl rfl, required_accepted (a := r.content) rfl rfl]
  rfl

theorem ResolvedImport.plain_toJson (r : ResolvedImport) : Plain strict 1 (r.toJson .wire) := by
  refine .object (fun _ => of_decide_eq_true (by rfl)) ?_
  simp only [List.forall_mem_cons]
  exact ⟨.text _, .text _, .bool _, .text _, by simp⟩

theorem MissingImport.read_toJson (m : MissingImport) :
    MissingImport.read (m.toJson .wire) = .accepted m := by
  simp only [MissingImport.read, MissingImport.toJson, record]
  rw [required_accepted (a := m.path) rfl rfl, required_accepted rfl m.type.read_word,
    defaulted_accepted (a := ()) rfl rfl, required_accepted (a := m.error) rfl rfl]
  rfl

theorem MissingImport.plain_toJson (m : MissingImport) : Plain strict 1 (m.toJson .wire) := by
  refine .object (fun _ => of_decide_eq_true (by rfl)) ?_
  simp only [List.forall_mem_cons]
  exact ⟨.text _, .text _, .bool _, .text _, by simp⟩

theorem Resolution.read_toJson (r : Resolution) :
    Resolution.read (r.toJson .wire) = .accepted r := by
  have himports : ∀ imports : List ResolvedImport,
      list ResolvedImport.read (.list (imports.map (ResolvedImport.toJson .wire))) =
        .accepted imports := fun _ => list_accepted fun i _ => i.read_toJson
  have hmissing : list MissingImport.read (.list (r.missing.map (MissingImport.toJson .wire))) =
      .accepted r.missing := list_accepted fun m _ => m.read_toJson
  simp only [Resolution.read, Resolution.toJson, record]
  rw [defaulted_accepted rfl (himports r.resolved), defaulted_accepted rfl hmissing,
    defaulted_accepted rfl (himports r.autoFetched)]
  rfl

theorem Resolution.plain_toJson (r : Resolution) : Plain strict 3 (r.toJson .wire) := by
  refine .object (fun _ => of_decide_eq_true (by rfl)) ?_
  simp only [List.forall_mem_cons]
  exact ⟨plain_list_map fun i _ => i.plain_toJson, plain_list_map fun m _ => m.plain_toJson,
    plain_list_map fun i _ => i.plain_toJson, by simp⟩

theorem Import.DependencyGraph.read_toJson (graph : Import.DependencyGraph) :
    Import.DependencyGraph.read graph.toJson = .accepted graph :=
  map_accepted fun entry _ => texts_accepted entry.2

theorem Import.DependencyGraph.plain_toJson {graph : Import.DependencyGraph}
    (h : strict → (Table.names graph).Nodup) : Plain strict 2 graph.toJson :=
  plain_object_map h fun entry _ => plain_texts _ entry.2

/-- The counts of features are short enough for JSON text. -/
def Features.WellFormed (f : Features) : Prop :=
  Short f.fileCount ∧ Short f.contractCount ∧ Short f.lineCount ∧ Short f.functionCount

theorem Features.read_toJson (f : Features) : Features.read (f.toJson .wire) = .accepted f := by
  rfl

theorem Features.plain_toJson {f : Features} (h : strict → f.WellFormed) :
    Plain strict 1 (f.toJson .wire) := by
  refine .object (fun _ => of_decide_eq_true (by rfl)) ?_
  simp only [List.forall_mem_cons]
  exact ⟨.int fun hs => (h hs).1, .int fun hs => (h hs).2.1, .int fun hs => (h hs).2.2.1,
    .int fun hs => (h hs).2.2.2, .bool _, .bool _, .bool _,
    .bool _, .bool _, .bool _, .bool _, .bool _, .bool _, .bool _, .bool _, .bool _, .bool _,
    .bool _, .bool _, by simp⟩

/-! ## Deployed code -/

theorem Selector.read_toJson (s : Selector) : Selector.read (s.toJson .wire) = .accepted s := by
  simp only [Selector.read, Selector.toJson, record]
  rw [required_accepted (a := s.selector) rfl rfl, required_accepted (a := s.name) rfl rfl,
    required_accepted (a := s.signature) rfl rfl, defaulted_accepted rfl (texts_accepted s.inputs)]
  rfl

theorem Selector.plain_toJson (s : Selector) : Plain strict 2 (s.toJson .wire) := by
  refine .object (fun _ => of_decide_eq_true (by rfl)) ?_
  simp only [List.forall_mem_cons]
  exact ⟨.text _, .text _, .text _, plain_texts _ _, by simp⟩

theorem Severity.read_word (s : Severity) : Severity.read (.text s.word) = .accepted s := by
  cases s <;> rfl

theorem RiskAssessment.read_toJson (r : RiskAssessment) :
    RiskAssessment.read (r.toJson .wire) = .accepted r := by
  simp only [RiskAssessment.read, RiskAssessment.toJson, record]
  rw [defaulted_accepted rfl r.severity.read_word, defaulted_accepted rfl (texts_accepted r.risks),
    defaulted_accepted rfl (texts_accepted r.recommendations)]
  rfl

theorem RiskAssessment.plain_toJson (r : RiskAssessment) : Plain strict 2 (r.toJson .wire) := by
  refine .object (fun _ => of_decide_eq_true (by rfl)) ?_
  simp only [List.forall_mem_cons]
  exact ⟨.text _, plain_texts _ _, plain_texts _ _, by simp⟩

/-- The counters of a report are a table of short numbers, and its score lies on the scale. -/
structure BytecodeReport.WellFormed (r : BytecodeReport) : Prop where
  /-- No instruction is counted in two places. -/
  distinct : (Table.names r.opcodeCounters).Nodup
  /-- The counts are short. -/
  counts : ∀ entry ∈ r.opcodeCounters, Short entry.2
  /-- The score is not negative. -/
  scoreFrom : 0 ≤ r.estimatedComplexity
  /-- The score is at most 100. -/
  scoreTo : r.estimatedComplexity ≤ 100

theorem BytecodeReport.read_toJson {r : BytecodeReport} (h : r.WellFormed) :
    BytecodeReport.read (r.toJson .wire) = .accepted r := by
  have hselectors : list Selector.read (.list (r.functionSelectors.map (Selector.toJson .wire))) =
      .accepted r.functionSelectors := list_accepted fun s _ => s.read_toJson
  have hcounters : map integer (.object (r.opcodeCounters.map fun entry =>
      (entry.1, .int entry.2))) = .accepted r.opcodeCounters := map_accepted fun _ _ => rfl
  simp only [BytecodeReport.read, BytecodeReport.toJson, record]
  rw [defaulted_accepted (a := r.address) rfl rfl, defaulted_accepted (a := r.bytecode) rfl rfl,
    defaulted_accepted (a := r.isContract) rfl rfl, defaulted_accepted rfl hselectors,
    defaulted_accepted rfl hcounters, defaulted_accepted (a := r.contractType) rfl rfl,
    defaulted_accepted rfl r.riskAssessment.read_toJson,
    defaulted_accepted rfl (integerBetween_accepted h.scoreFrom h.scoreTo)]
  rfl

theorem short_of_natAbs_lt {n : Int} (h : n.natAbs < 10 ^ 100) : Short n :=
  Nat.le_trans ((Nat.length_toDigits_le_iff (by decide) (by decide)).mpr h) (by decide)

theorem BytecodeReport.WellFormed.score {r : BytecodeReport} (h : r.WellFormed) :
    Short r.estimatedComplexity := by
  have hfrom := h.scoreFrom
  have hto := h.scoreTo
  exact short_of_natAbs_lt (Nat.lt_of_le_of_lt (by omega : _ ≤ 100) (by decide))

theorem BytecodeReport.plain_toJson {r : BytecodeReport} (h : strict → r.WellFormed) :
    Plain strict 4 (r.toJson .wire) := by
  have hcounters : Plain strict 1
      (.object (r.opcodeCounters.map fun entry => (entry.1, .int entry.2))) :=
    plain_object_map (fun hs => (h hs).distinct) fun entry he => .int fun hs =>
      (h hs).counts entry he
  refine .object (fun _ => of_decide_eq_true (by rfl)) ?_
  simp only [List.forall_mem_cons]
  exact ⟨.text _, .text _, .bool _, plain_list_map fun s _ => s.plain_toJson,
    hcounters.mono (by decide),
    .text _, r.riskAssessment.plain_toJson.mono (by decide), .int fun hs => (h hs).score, by simp⟩

theorem ProxySigns.read_toJson (p : ProxySigns) :
    ProxySigns.read (p.toJson .wire) = .accepted p := by
  rfl

theorem ProxySigns.plain_toJson (p : ProxySigns) : Plain strict 1 (p.toJson .wire) := by
  refine .object (fun _ => of_decide_eq_true (by rfl)) ?_
  simp only [List.forall_mem_cons]
  exact ⟨.bool _, by simp⟩

/-! ## Records -/

namespace AnalysisRecord

/-- What the data types of a record's parts promise. -/
structure WellFormed (r : AnalysisRecord) : Prop where
  /-- The number of the chain is short. -/
  chainId : Short r.chainId
  /-- What was found in the source is well-formed. -/
  parsed : ∀ p ∈ r.parsed, p.WellFormed
  /-- No file has two places in the dependency graph. -/
  dependencyGraph : (Table.names r.dependencyGraph).Nodup
  /-- The features are well-formed. -/
  features : ∀ f ∈ r.features, f.WellFormed
  /-- The report on the code is well-formed. -/
  bytecodeAnalysis : ∀ b ∈ r.bytecodeAnalysis, b.WellFormed

theorem plain_optionalJson {α : Type} {depth : Nat} {toJson : α → Json} {part : Option α}
    (h : ∀ a ∈ part, Plain strict depth (toJson a)) :
    Plain strict depth (optionalJson toJson part) := by
  cases part with
  | none => exact .null
  | some a => exact h a rfl

/-- **A record is accepted as itself.** -/
theorem read_toJson (now : Timestamp) {r : AnalysisRecord} (h : r.WellFormed) :
    read now (r.toJson .wire) = .accepted r := by
  have hparsed : optional ParsedSources.read (optionalJson (ParsedSources.toJson .wire) r.parsed) =
      .accepted r.parsed := optional_accepted (fun _ _ => nofun) fun p _ => p.read_toJson
  have himports : optional Resolution.read (optionalJson (Resolution.toJson .wire) r.imports) =
      .accepted r.imports := optional_accepted (fun _ _ => nofun) fun i _ => i.read_toJson
  have hfeatures : optional Features.read (optionalJson (Features.toJson .wire) r.features) =
      .accepted r.features := optional_accepted (fun _ _ => nofun) fun f _ => f.read_toJson
  have hbytecode : optional BytecodeReport.read
      (optionalJson (BytecodeReport.toJson .wire) r.bytecodeAnalysis) =
        .accepted r.bytecodeAnalysis :=
    optional_accepted (fun _ _ => nofun) fun b hb =>
      BytecodeReport.read_toJson (h.bytecodeAnalysis b hb)
  simp only [read, toJson, record]
  rw [required_accepted (a := r.address) rfl rfl, required_accepted (a := r.chainId) rfl rfl,
    required_accepted (a := r.verified) rfl rfl, defaulted_accepted (a := r.contractName) rfl rfl,
    defaulted_accepted rfl hparsed, defaulted_accepted rfl himports,
    defaulted_accepted rfl (Import.DependencyGraph.read_toJson r.dependencyGraph),
    defaulted_accepted rfl hfeatures, defaulted_accepted rfl hbytecode,
    defaulted_accepted rfl r.proxy.read_toJson, defaulted_accepted (a := r.isUpgradeable) rfl rfl,
    defaulted_accepted (a := r.cacheEligible) rfl rfl,
    defaulted_accepted rfl (timestamp_toText r.analyzedAt),
    defaulted_accepted (a := r.analysisId) rfl rfl]
  rfl

theorem plain_toJson {r : AnalysisRecord} (h : strict → r.WellFormed) :
    Plain strict 5 (r.toJson .wire) := by
  refine .object (fun _ => of_decide_eq_true (by rfl)) ?_
  simp only [List.forall_mem_cons]
  exact ⟨.text _, .int fun hs => (h hs).chainId, .bool _, .text _,
    plain_optionalJson fun p hp => ParsedSources.plain_toJson fun hs => (h hs).parsed p hp,
    plain_optionalJson fun i _ => i.plain_toJson.mono (by decide),
    (Import.DependencyGraph.plain_toJson fun hs => (h hs).dependencyGraph).mono (by decide),
    plain_optionalJson fun f hf =>
      (Features.plain_toJson fun hs => (h hs).features f hf).mono (by decide),
    plain_optionalJson fun b hb =>
      BytecodeReport.plain_toJson fun hs => (h hs).bytecodeAnalysis b hb,
    r.proxy.plain_toJson.mono (by decide), .bool _, .bool _, .text _, .text _, by simp⟩

/-- **A record is read back from its text.** -/
theorem decode_encode [Platform] (now : Timestamp) {r : AnalysisRecord} (h : r.WellFormed) :
    decode now r.encode = .ok r := by
  have hplain : Plain r.WellFormed Platform.levels (r.toJson .wire) :=
    (plain_toJson id).mono (Nat.le_trans (by decide) Platform.roomy)
  have hread := read_write_of_plain Layout.gapped_compact hplain h
  simp only [decode, encode, hread, read_toJson now h]

/-! ## The time of reading -/

theorem exists_read_accepted {now : Timestamp} {value : Json} {found : AnalysisRecord}
    (h : read now value = .accepted found) (later : Timestamp) :
    ∃ other, read later value = .accepted other := by
  cases value with
  | object members =>
    simp only [read, record] at h ⊢
    obtain ⟨withId, id, htime, hid, -⟩ := Checked.seq_eq_accepted h
    obtain ⟨withTime, time, hrest, hnow, -⟩ := Checked.seq_eq_accepted htime
    obtain ⟨other, hlater⟩ := exists_defaulted_accepted hnow later
    rw [hrest, hid, hlater]
    exact ⟨_, rfl⟩
  | _ => cases h

/-- **Whether a text is a record does not depend on when it is read.** -/
theorem exists_decode_ok [Platform] {now : Timestamp} {s : String} {found : AnalysisRecord}
    (h : decode now s = .ok found) (later : Timestamp) : ∃ other, decode later s = .ok other := by
  cases hvalue : Json.read s with
  | error reason =>
    rw [decode, hvalue] at h
    cases h
  | ok value =>
    cases hread : read now value with
    | refused problems =>
      simp only [decode, hvalue, hread] at h
      cases h
    | accepted record =>
      obtain ⟨other, hother⟩ := exists_read_accepted hread later
      exact ⟨other, by simp only [decode, hvalue, hother]⟩

/-! ## The flags of any record -/

/-- The flags that a record is read with are those of its value's members. -/
theorem flags_of_read {now : Timestamp} {members : Table Json} {found : AnalysisRecord} {u e : Bool}
    (hu : Table.get? members Names.isUpgradeable.wire = some (.bool u))
    (he : Table.get? members Names.cacheEligible.wire = some (.bool e))
    (h : read now (.object members) = .accepted found) :
    found.isUpgradeable = u ∧ found.cacheEligible = e := by
  simp only [read, record] at h
  obtain ⟨_, _, h13, -, rfl⟩ := Checked.seq_eq_accepted h
  obtain ⟨_, _, h12, -, rfl⟩ := Checked.seq_eq_accepted h13
  obtain ⟨_, _, h11, heligible, rfl⟩ := Checked.seq_eq_accepted h12
  obtain ⟨_, _, h10, hupgradeable, rfl⟩ := Checked.seq_eq_accepted h11
  -- the parts before the flags only complete the record
  obtain ⟨_, _, h9, -, rfl⟩ := Checked.seq_eq_accepted h10
  obtain ⟨_, _, h8, -, rfl⟩ := Checked.seq_eq_accepted h9
  obtain ⟨_, _, h7, -, rfl⟩ := Checked.seq_eq_accepted h8
  obtain ⟨_, _, h6, -, rfl⟩ := Checked.seq_eq_accepted h7
  obtain ⟨_, _, h5, -, rfl⟩ := Checked.seq_eq_accepted h6
  obtain ⟨_, _, h4, -, rfl⟩ := Checked.seq_eq_accepted h5
  obtain ⟨_, _, h3, -, rfl⟩ := Checked.seq_eq_accepted h4
  obtain ⟨_, _, h2, -, rfl⟩ := Checked.seq_eq_accepted h3
  obtain ⟨_, _, h1, -, rfl⟩ := Checked.seq_eq_accepted h2
  obtain ⟨_, -, rfl⟩ := Checked.map_eq_accepted h1
  exact ⟨eq_of_defaulted_bool hu hupgradeable, eq_of_defaulted_bool he heligible⟩

/-- **Whatever is read back from a record's text has the flags of the record.** -/
theorem flags_of_decode_encode [Platform] {now : Timestamp} {r found : AnalysisRecord}
    (h : decode now r.encode = .ok found) :
    found.isUpgradeable = r.isUpgradeable ∧ found.cacheEligible = r.cacheEligible := by
  have hplain : Plain False 5 (r.toJson .wire) := plain_toJson False.elim
  cases hread : Json.read r.encode with
  | error reason =>
    rw [decode, hread] at h
    cases h
  | ok value =>
    have hback := (read_write_eq_ok_iff Layout.gapped_compact hplain.exact).mp hread
    obtain ⟨depth, members, -, rfl, hmembers⟩ :=
      exists_member_of_readBack (of_decide_eq_true (by rfl)) hback
    obtain ⟨_, hu, hget⟩ := hmembers Names.isUpgradeable.wire (.bool r.isUpgradeable) rfl
    obtain ⟨_, he, hget'⟩ := hmembers Names.cacheEligible.wire (.bool r.cacheEligible) rfl
    cases hu
    cases he
    cases haccepted : read now (.object members) with
    | accepted record =>
      simp only [decode, hread, haccepted] at h
      cases h
      exact flags_of_read hget hget' haccepted
    | refused problems =>
      simp only [decode, hread, haccepted] at h
      cases h

end AnalysisRecord

end ContractLens
