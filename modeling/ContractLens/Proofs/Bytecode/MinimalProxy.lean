import ContractLens.Proofs.Bytecode.Coherence
/-!
# The layout of a minimal proxy

A minimal proxy is its fixed beginning, an address and its fixed end, and anything may follow. The
sign of one is given where the end comes right after the address, and also where it comes further
on (`isMinimalProxy_iff`). At whole bytes after the address the end delegates
(`mem_all_of_laidOut`); at half a byte it need not, and there the sign is given of code that counts
no delegation (`minimal_displacedProxy`).
-/

namespace ContractLens

open Text

namespace Code

/-- Code that has the beginning of a minimal proxy, an address, a gap, and the end. -/
def LaidOut (gap code : List Char) : Prop :=
  ∃ address rest, address.length = addressLength ∧
    code = minimalProxyStart.toList ++ (address ++ (gap ++ (minimalProxyEnd.toList ++ rest)))

/-- The layout of a minimal proxy. -/
def MinimalLayout (code : List Char) : Prop := LaidOut [] code

/-- The layout of a minimal proxy but for something between the address and the end. -/
def Displaced (code : List Char) : Prop := ∃ gap, gap ≠ [] ∧ LaidOut gap code

theorem exists_laidOut_iff {code : List Char} :
    (∃ gap, LaidOut gap code) ↔ MinimalLayout code ∨ Displaced code := by
  constructor
  · rintro ⟨gap, h⟩
    by_cases hgap : gap = []
    · subst hgap
      exact .inl h
    · exact .inr ⟨gap, hgap, h⟩
  · rintro (h | ⟨gap, -, h⟩)
    · exact ⟨[], h⟩
    · exact ⟨gap, h⟩

/-- **The sign of a minimal proxy is given where the end comes after the address**, at once or
further on. -/
theorem isMinimalProxy_iff {text : List Char} :
    isMinimalProxy text = true ↔ ∃ gap, LaidOut gap (normalize text) := by
  constructor
  · intro h
    rw [isMinimalProxy] at h
    split at h
    · rename_i rest hrest
      obtain ⟨gap, after, hend⟩ := contains_iff.mp h
      have hend : rest.drop addressLength = gap ++ (minimalProxyEnd.toList ++ after) := by
        rw [← hend, List.append_assoc]
      -- something is left behind the address, so the address is there in full
      have hlong : addressLength < rest.length := by
        have hlength := congrArg List.length hend
        have hpos : 0 < minimalProxyEnd.toList.length := by decide
        rw [List.length_drop, List.length_append, List.length_append] at hlength
        omega
      refine ⟨gap, rest.take addressLength, after, ?_, ?_⟩
      · rw [List.length_take, Nat.min_eq_left (Nat.le_of_lt hlong)]
      · rw [← hend, List.take_append_drop]
        exact dropStart?_eq_some_iff.mp hrest
    · cases h
  · rintro ⟨gap, address, after, hlength, htext⟩
    rw [isMinimalProxy, dropStart?_eq_some_iff.mpr htext]
    refine contains_iff.mpr ⟨gap, after, ?_⟩
    rw [← hlength, List.drop_left, List.append_assoc]

/-- **At whole bytes after the address the end delegates.** -/
theorem mem_all_of_laidOut {gap code : List Char} (hgap : Even gap.length)
    (h : LaidOut gap code) : "DELEGATECALL" ∈ Opcode.all code := by
  obtain ⟨address, rest, hlength, rfl⟩ := h
  have hstart : Even minimalProxyStart.toList.length := by decide
  have haddress : Even address.length := by
    rw [hlength]
    decide
  have hend : Even minimalProxyEnd.toList.length := by decide
  rw [Opcode.all_append hstart, Opcode.all_append haddress, Opcode.all_append hgap,
    Opcode.all_append hend]
  refine List.mem_append_right _ (List.mem_append_right _ (List.mem_append_right _
    (List.mem_append_left _ ?_)))
  decide

end Code

namespace Workbench

variable (bench : Workbench) (id : String) (trace : Trace)

/-- **Only the record of deployed code gives the sign of a minimal proxy**, where the code is laid
out like one, with or without a gap. -/
theorem minimal_recordOf_iff (input : AnalysisInput) :
    (bench.recordOf id trace input).proxy.minimal = true ↔
      ∃ code, input = .bytecode code ∧
        ∃ gap, Code.LaidOut gap (Code.normalize code.bytecodeHex.toList) := by
  cases input with
  | verified input =>
    obtain ⟨imports, hrecord⟩ := bench.exists_recordOf_verified id trace input
    rw [hrecord]
    exact ⟨nofun, fun ⟨_, hinput, _⟩ => nomatch hinput⟩
  | bytecode input =>
    rw [recordOf_bytecode]
    refine Code.isMinimalProxy_iff.trans ⟨fun h => ⟨input, rfl, h⟩, ?_⟩
    rintro ⟨_, hinput, h⟩
    cases hinput
    exact h

/-- The delegations counted in a report on code that delegates. -/
theorem countOf_ofText_pos_iff (thresholds : Thresholds) (address bytecode : String) :
    0 < Risk.countOf (BytecodeReport.ofText thresholds address bytecode).opcodeCounters
        "DELEGATECALL" ↔ "DELEGATECALL" ∈ Opcode.all (Code.normalize bytecode.toList) := by
  rw [BytecodeReport.opcodeCounters_ofText, Opcode.count, Opcode.countOf_tally, Int.natCast_pos,
    List.count_pos_iff]

/-- **The sign of a minimal proxy is given of its layout**, and beyond it just of code in which the
end comes further on. A record that gives the sign counts a delegation, unless the end comes at half
bytes only, and so not where it comes right after the address. -/
theorem minimal_of_layout_or_displaced (text : List Char) (input : AnalysisInput) :
    (Code.isMinimalProxy text = true ↔
      Code.MinimalLayout (Code.normalize text) ∨ Code.Displaced (Code.normalize text)) ∧
    ((bench.recordOf id trace input).proxy.minimal = true →
      ∃ code report, input = .bytecode code ∧
        (bench.recordOf id trace input).bytecodeAnalysis = some report ∧
          (0 < Risk.countOf report.opcodeCounters "DELEGATECALL" ∨
            ¬ Code.MinimalLayout (Code.normalize code.bytecodeHex.toList) ∧
              ∀ gap, Code.LaidOut gap (Code.normalize code.bytecodeHex.toList) →
                ¬ Even gap.length)) := by
  refine ⟨Code.isMinimalProxy_iff.trans Code.exists_laidOut_iff, fun hminimal => ?_⟩
  obtain ⟨code, rfl, hlaid⟩ := (bench.minimal_recordOf_iff id trace input).mp hminimal
  refine ⟨code, _, rfl, rfl, ?_⟩
  rw [countOf_ofText_pos_iff]
  by_cases hwhole : ∃ gap, Even gap.length ∧
      Code.LaidOut gap (Code.normalize code.bytecodeHex.toList)
  · obtain ⟨gap, heven, hgap⟩ := hwhole
    exact .inl (Code.mem_all_of_laidOut heven hgap)
  · exact .inr ⟨fun h => hwhole ⟨[], Even.zero, h⟩, fun gap hgap heven => hwhole ⟨gap, heven, hgap⟩⟩

end Workbench

/-- The beginning of a minimal proxy and an address, then half a byte, then the end. -/
def displacedProxy : String :=
  "363d3d373d3d3d363d73bebebebebebebebebebebebebebebebebebebebe" ++ "0" ++
    "5af43d82803e903d91602b57fd5bf3"

theorem normalize_displacedProxy :
    Code.normalize displacedProxy.toList = displacedProxy.toList := by
  decide +kernel

theorem laidOut_displacedProxy : Code.LaidOut ['0'] (Code.normalize displacedProxy.toList) := by
  rw [normalize_displacedProxy]
  exact ⟨"bebebebebebebebebebebebebebebebebebebebe".toList, [], by decide, by decide +kernel⟩

/-- **The sign is given of code that is not laid out so**, and the record that gives it counts no
delegation. -/
theorem minimal_displacedProxy :
    Code.isMinimalProxy displacedProxy.toList = true ∧
      ¬ Code.MinimalLayout (Code.normalize displacedProxy.toList) ∧
        (Workbench.offline.recordOf "id" {}
          (.bytecode ⟨"0x1", 1, displacedProxy⟩)).proxy.minimal = true ∧
        ∃ report, (Workbench.offline.recordOf "id" {}
            (.bytecode ⟨"0x1", 1, displacedProxy⟩)).bytecodeAnalysis = some report ∧
          Risk.countOf report.opcodeCounters "DELEGATECALL" = 0 := by
  refine ⟨Code.isMinimalProxy_iff.mpr ⟨_, laidOut_displacedProxy⟩, ?_,
    (Workbench.minimal_recordOf_iff _ _ _ _).mpr ⟨_, rfl, _, laidOut_displacedProxy⟩,
    BytecodeReport.ofText Workbench.offline.settings.thresholds "0x1" displacedProxy, ?_, ?_⟩
  · -- laid out so, the code would have the end at a fixed place, where it stands half a byte on
    rw [normalize_displacedProxy]
    rintro ⟨address, rest, hlength, hcode⟩
    have hplace : (displacedProxy.toList.drop 60).take 30 = Code.minimalProxyEnd.toList := by
      have hstart : (Code.minimalProxyStart.toList ++ address).length = 60 := by
        rw [List.length_append, hlength]
        decide
      rw [hcode, ← List.append_assoc, List.drop_left' hstart, List.nil_append]
      exact List.take_left' (by decide)
    exact absurd hplace (by decide +kernel)
  · rw [Workbench.recordOf_bytecode]
    rfl
  · rw [BytecodeReport.opcodeCounters_ofText, normalize_displacedProxy, Opcode.count,
      Opcode.countOf_tally]
    decide +kernel

end ContractLens
