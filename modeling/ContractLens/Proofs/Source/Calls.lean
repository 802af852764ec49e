import ContractLens.Proofs.Source.Size
import ContractLens.Proofs.Text.Captured
/-!
# The two sides of a call

A call graph notes each call twice, with the creator and with the created contract. What adding
one call does to either side is settled by `noted_calls_addCall` and `noted_calledBy_addCall`: both
note the same pair, or nothing. So after all bodies have been gone through, both sides note just the
pairs that some body says (`noted_foldl`), whatever the order, and however often a name is declared
or a call is made.
-/

namespace ContractLens

namespace CallGraph

variable {graph : CallGraph} {caller callee name other : String}

/-- Whether a graph notes a name in a part of a contract's node. -/
def Noted (part : CallNode → NameSet) (graph : CallGraph) (name other : String) : Prop :=
  ∃ node, Table.get? graph name = some node ∧ other ∈ part node

/-! ## One call -/

section Update

variable {part : CallNode → NameSet} {changed added : String}

/-- A change that leaves a part alone notes nothing there. -/
theorem noted_update_of_eq (change : CallNode → CallNode)
    (h : ∀ node, part (change node) = part node) :
    Noted part (Table.update graph changed change) name other ↔ Noted part graph name other := by
  rw [Noted, Noted, Table.get?_update]
  split
  · constructor
    · rintro ⟨node, hnode, hmem⟩
      obtain ⟨old, hold, rfl⟩ := Option.map_eq_some_iff.mp hnode
      exact ⟨old, hold, h old ▸ hmem⟩
    · rintro ⟨node, hnode, hmem⟩
      exact ⟨change node, congrArg (Option.map change) hnode, (h node).symm ▸ hmem⟩
  · exact Iff.rfl

/-- A change that adds a name to a part notes it there, if there is a node. -/
theorem noted_update_of_insert (change : CallNode → CallNode)
    (h : ∀ node x, x ∈ part (change node) ↔ x = added ∨ x ∈ part node) :
    Noted part (Table.update graph changed change) name other ↔ Noted part graph name other ∨
      name = changed ∧ other = added ∧ changed ∈ Table.names graph := by
  rw [Noted, Noted, Table.get?_update]
  split
  · rename_i hname
    subst hname
    constructor
    · rintro ⟨node, hnode, hmem⟩
      obtain ⟨old, hold, rfl⟩ := Option.map_eq_some_iff.mp hnode
      rcases (h old other).mp hmem with rfl | hmem
      · have hplace : changed ∈ Table.names graph := by
          by_contra hnone
          rw [Table.get?_eq_none_iff.mpr hnone] at hold
          cases hold
        exact .inr ⟨rfl, rfl, hplace⟩
      · exact .inl ⟨old, hold, hmem⟩
    · rintro (⟨node, hnode, hmem⟩ | ⟨-, rfl, hplace⟩)
      · exact ⟨change node, congrArg (Option.map change) hnode, (h node other).mpr (.inr hmem)⟩
      · cases hnode : Table.get? graph changed with
        | none => exact absurd hplace (Table.get?_eq_none_iff.mp hnode)
        | some node => exact ⟨change node, rfl, (h node other).mpr (.inl rfl)⟩
  · rename_i hname
    exact ⟨.inl, fun hnoted => hnoted.resolve_right fun hadded => hname hadded.1.symm⟩

end Update

/-- A node with one more call. -/
def withCall (callee : String) (node : CallNode) : CallNode :=
  { node with calls := node.calls.insert callee }

/-- A node called by one more. -/
def withCaller (caller : String) (node : CallNode) : CallNode :=
  { node with calledBy := node.calledBy.insert caller }

/-- A call of another contract of the graph is noted at both ends. -/
theorem addCall_eq_update (hself : callee ≠ caller) (hplace : callee ∈ Table.names graph) :
    addCall graph caller callee =
      Table.update (Table.update graph caller (withCall callee)) callee (withCaller caller) := by
  refine if_neg fun h => ?_
  rw [Bool.or_eq_true, beq_iff_eq, Option.isNone_iff_eq_none, Table.get?_eq_none_iff] at h
  exact h.elim hself fun hnone => hnone hplace

/-- Any other call is not noted. -/
theorem addCall_eq_self (h : ¬ (callee ≠ caller ∧ callee ∈ Table.names graph)) :
    addCall graph caller callee = graph := by
  refine if_pos ?_
  rw [Bool.or_eq_true, beq_iff_eq, Option.isNone_iff_eq_none, Table.get?_eq_none_iff]
  exact or_iff_not_imp_left.mpr fun hself hplace => h ⟨hself, hplace⟩

theorem noted_calls_addCall (hcaller : caller ∈ Table.names graph) :
    Noted CallNode.calls (addCall graph caller callee) name other ↔
      Noted CallNode.calls graph name other ∨
        (name, other) = (caller, callee) ∧ other ≠ name ∧ other ∈ Table.names graph := by
  rw [Prod.mk.injEq]
  by_cases h : callee ≠ caller ∧ callee ∈ Table.names graph
  · rw [addCall_eq_update h.1 h.2, noted_update_of_eq (withCaller caller) fun _ => rfl,
      noted_update_of_insert (withCall callee) fun _ _ => NameSet.mem_insert]
    refine or_congr_right ⟨?_, ?_⟩
    · rintro ⟨rfl, rfl, -⟩
      exact ⟨⟨rfl, rfl⟩, h⟩
    · rintro ⟨⟨rfl, rfl⟩, -⟩
      exact ⟨rfl, rfl, hcaller⟩
  · rw [addCall_eq_self h]
    refine ⟨.inl, fun hnoted => hnoted.resolve_right ?_⟩
    rintro ⟨⟨rfl, rfl⟩, hcounts⟩
    exact h hcounts

theorem noted_calledBy_addCall :
    Noted CallNode.calledBy (addCall graph caller callee) name other ↔
      Noted CallNode.calledBy graph name other ∨
        (other, name) = (caller, callee) ∧ name ≠ other ∧ name ∈ Table.names graph := by
  rw [Prod.mk.injEq]
  by_cases h : callee ≠ caller ∧ callee ∈ Table.names graph
  · rw [addCall_eq_update h.1 h.2,
      noted_update_of_insert (withCaller caller) fun _ _ => NameSet.mem_insert,
      noted_update_of_eq (withCall callee) fun _ => rfl, Table.names_update]
    refine or_congr_right ⟨?_, ?_⟩
    · rintro ⟨rfl, rfl, -⟩
      exact ⟨⟨rfl, rfl⟩, h⟩
    · rintro ⟨⟨rfl, rfl⟩, -⟩
      exact ⟨rfl, rfl, h.2⟩
  · rw [addCall_eq_self h]
    refine ⟨.inl, fun hnoted => hnoted.resolve_right ?_⟩
    rintro ⟨⟨rfl, rfl⟩, hcounts⟩
    exact h hcounts

/-! ## All calls -/

/-- The pairs of a contract and a name that its body creates, in order. -/
def sites (scanned : List ScannedContract) : List (String × String) :=
  scanned.flatMap fun entry => (created entry).map fun callee => (entry.contract.name, callee)

theorem mem_sites {scanned : List ScannedContract} :
    (caller, callee) ∈ sites scanned ↔
      ∃ entry ∈ scanned, entry.contract.name = caller ∧ callee ∈ created entry := by
  rw [sites, List.mem_flatMap]
  refine exists_congr fun entry => and_congr_right fun _ => ?_
  rw [List.mem_map]
  constructor
  · rintro ⟨callee', hcreated, hpair⟩
    cases hpair
    exact ⟨rfl, hcreated⟩
  · rintro ⟨rfl, hcreated⟩
    exact ⟨callee, hcreated, rfl⟩

theorem ofContracts_eq_foldl (scanned : List ScannedContract) :
    ofContracts scanned = (sites scanned).foldl (fun graph site => addCall graph site.1 site.2)
      (ofNames (scanned.map (·.contract.name))) := by
  rw [ofContracts, sites, List.foldl_flatMap]
  simp only [List.foldl_map]

/-- What one call adds is added by all calls together: if adding a call makes a fact of a pair true
just where the call is that pair, between two contracts of the graph, then going through calls makes
it true just where the pair is among them. -/
theorem noted_foldl {noted : CallGraph → Prop} {pair : String × String}
    (hstep : ∀ graph caller callee, caller ∈ Table.names graph →
      (noted (addCall graph caller callee) ↔
        noted graph ∨ pair = (caller, callee) ∧ pair.2 ≠ pair.1 ∧ pair.2 ∈ Table.names graph))
    {calls : List (String × String)} (hcallers : ∀ call ∈ calls, call.1 ∈ Table.names graph) :
    noted (calls.foldl (fun graph call => addCall graph call.1 call.2) graph) ↔
      noted graph ∨ pair ∈ calls ∧ pair.2 ≠ pair.1 ∧ pair.2 ∈ Table.names graph := by
  induction calls generalizing graph with
  | nil => simp
  | cons call calls ih =>
    have hcaller : call.1 ∈ Table.names graph := hcallers call List.mem_cons_self
    have hnames : Table.names (addCall graph call.1 call.2) = Table.names graph :=
      ParsedSources.names_addCall graph call.1 call.2
    have hrest : ∀ other ∈ calls, other.1 ∈ Table.names (addCall graph call.1 call.2) :=
      fun other hother => hnames ▸ hcallers other (List.mem_cons_of_mem _ hother)
    rw [List.foldl_cons, ih hrest, hstep graph call.1 call.2 hcaller, hnames, List.mem_cons,
      or_and_right, or_assoc]

theorem names_foldl (calls : List (String × String)) (graph : CallGraph) :
    Table.names (calls.foldl (fun graph call => addCall graph call.1 call.2) graph) =
      Table.names graph := by
  induction calls generalizing graph with
  | nil => rfl
  | cons call calls ih => rw [List.foldl_cons, ih, ParsedSources.names_addCall]

/-! ## Before the first call -/

theorem mem_names_ofNames {names : List String} :
    name ∈ Table.names (ofNames names) ↔ name ∈ names := by
  suffices h : ∀ graph : CallGraph,
      name ∈ Table.names (names.foldl (fun graph name =>
        if (Table.get? graph name).isSome then graph else graph ++ [(name, .isolated)]) graph) ↔
      name ∈ Table.names graph ∨ name ∈ names by
    exact (h []).trans ⟨fun h => h.resolve_left List.not_mem_nil, .inr⟩
  induction names with
  | nil => exact fun graph => ⟨.inl, fun h => h.resolve_right List.not_mem_nil⟩
  | cons first names ih =>
    intro graph
    rw [List.foldl_cons, ih, List.mem_cons, ← or_assoc]
    refine or_congr_left ?_
    split
    · rename_i hknown
      have hplace : first ∈ Table.names graph := by
        by_contra hnone
        rw [Table.get?_eq_none_iff.mpr hnone] at hknown
        cases hknown
      exact ⟨.inl, fun h => h.elim id fun e => e ▸ hplace⟩
    · rw [Table.names, List.map_append, List.mem_append, List.map_singleton, List.mem_singleton,
        ← Table.names]

theorem eq_isolated_of_mem_ofNames {names : List String} {entry : String × CallNode}
    (h : entry ∈ ofNames names) : entry.2 = .isolated := by
  suffices hfold : ∀ graph : CallGraph, (∀ entry ∈ graph, entry.2 = .isolated) →
      ∀ entry ∈ names.foldl (fun graph name =>
        if (Table.get? graph name).isSome then graph else graph ++ [(name, .isolated)]) graph,
        entry.2 = .isolated from hfold [] nofun entry h
  clear h entry
  induction names with
  | nil => exact fun graph hgraph => hgraph
  | cons first names ih =>
    intro graph hgraph
    refine ih _ fun entry hentry => ?_
    dsimp only at hentry
    split at hentry
    · exact hgraph entry hentry
    · rcases List.mem_append.mp hentry with hentry | hentry
      · exact hgraph entry hentry
      · rw [List.mem_singleton.mp hentry]

/-- Before the first call nothing is noted. -/
theorem not_noted_ofNames {part : CallNode → NameSet} (hpart : part .isolated = ∅)
    (names : List String) : ¬ Noted part (ofNames names) name other := by
  rintro ⟨node, hnode, hmem⟩
  have hisolated : node = .isolated :=
    eq_isolated_of_mem_ofNames (Table.mem_of_get?_eq_some hnode)
  rw [hisolated, hpart] at hmem
  exact NameSet.not_mem_empty hmem

/-! ## The graph of a set -/

theorem mem_names_ofContracts {scanned : List ScannedContract} :
    name ∈ Table.names (ofContracts scanned) ↔ ∃ entry ∈ scanned, entry.contract.name = name := by
  rw [ofContracts_eq_foldl, names_foldl, mem_names_ofNames, List.mem_map]

/-- A body that calls: a contract of the set has it, and it creates another contract of the set. -/
def Creates (scanned : List ScannedContract) (caller callee : String) : Prop :=
  callee ≠ caller ∧ (∃ entry ∈ scanned, entry.contract.name = callee) ∧
    ∃ entry ∈ scanned, entry.contract.name = caller ∧ callee ∈ created entry

instance (scanned : List ScannedContract) (caller callee : String) :
    Decidable (Creates scanned caller callee) := inferInstanceAs (Decidable (_ ∧ _ ∧ _))

theorem noted_ofContracts (noted : CallGraph → Prop) {scanned : List ScannedContract}
    (hstep : ∀ graph caller' callee', caller' ∈ Table.names graph →
      (noted (addCall graph caller' callee') ↔ noted graph ∨
        (caller, callee) = (caller', callee') ∧ callee ≠ caller ∧ callee ∈ Table.names graph))
    (hstart : ∀ names, ¬ noted (ofNames names)) :
    noted (ofContracts scanned) ↔ Creates scanned caller callee := by
  have hcallers : ∀ call ∈ sites scanned,
      call.1 ∈ Table.names (ofNames (scanned.map (·.contract.name))) := by
    rintro ⟨caller', callee'⟩ hcall
    obtain ⟨entry, hentry, rfl, -⟩ := mem_sites.mp hcall
    exact mem_names_ofNames.mpr (List.mem_map_of_mem hentry)
  rw [ofContracts_eq_foldl, noted_foldl hstep hcallers, mem_sites, mem_names_ofNames, List.mem_map,
    Creates]
  constructor
  · rintro (hnoted | ⟨hcall, hself, hplace⟩)
    · exact absurd hnoted (hstart _)
    · exact ⟨hself, hplace, hcall⟩
  · rintro ⟨hself, hplace, hcall⟩
    exact .inr ⟨hcall, hself, hplace⟩

/-- **A contract's calls are what its bodies create.** -/
theorem noted_calls_ofContracts (scanned : List ScannedContract) (caller callee : String) :
    Noted CallNode.calls (ofContracts scanned) caller callee ↔ Creates scanned caller callee :=
  noted_ofContracts (fun graph => Noted CallNode.calls graph caller callee)
    (fun _ _ _ hcaller => noted_calls_addCall hcaller) fun names => not_noted_ofNames rfl names

/-- **What a contract is called by is noted from the same bodies.** -/
theorem noted_calledBy_ofContracts (scanned : List ScannedContract) (caller callee : String) :
    Noted CallNode.calledBy (ofContracts scanned) callee caller ↔ Creates scanned caller callee :=
  noted_ofContracts (fun graph => Noted CallNode.calledBy graph callee caller)
    (fun _ _ _ _ => noted_calledBy_addCall) fun names => not_noted_ofNames rfl names

/-- A call graph that notes every call of some contracts on both sides, and nothing else. -/
structure Consistent (scanned : List ScannedContract) (graph : CallGraph) : Prop where
  /-- No name has two nodes. -/
  once : (Table.names graph).Nodup
  /-- The nodes are the contracts' names. -/
  nodes : ∀ name, name ∈ Table.names graph ↔ ∃ entry ∈ scanned, entry.contract.name = name
  /-- A contract calls another just where that one is called by it. -/
  inverse : ∀ caller callee outNode inNode, Table.get? graph caller = some outNode →
    Table.get? graph callee = some inNode → (callee ∈ outNode.calls ↔ caller ∈ inNode.calledBy)
  /-- Only contracts are noted. -/
  closed : ∀ name node, Table.get? graph name = some node →
    ∀ other, other ∈ node.calls ∨ other ∈ node.calledBy → other ∈ Table.names graph
  /-- No contract is noted with itself. -/
  irreflexive : ∀ name node, Table.get? graph name = some node →
    name ∉ node.calls ∧ name ∉ node.calledBy
  /-- A contract calls the other contracts that are captured behind `new` in a body under its
  name. -/
  calls : ∀ name node, Table.get? graph name = some node → ∀ other, other ∈ node.calls ↔
    other ≠ name ∧ other ∈ Table.names graph ∧
      ∃ entry ∈ scanned, entry.contract.name = name ∧
        ∃ names, Text.Captures "new".toList false entry.bodyText names ∧ other.toList ∈ names

theorem mem_part_iff {part : CallNode → NameSet} {node : CallNode}
    (h : Table.get? graph name = some node) : other ∈ part node ↔ Noted part graph name other := by
  constructor
  · exact fun hmem => ⟨node, h, hmem⟩
  · rintro ⟨node', hnode', hmem⟩
    cases h.symm.trans hnode'
    exact hmem

theorem consistent_ofContracts (scanned : List ScannedContract) :
    Consistent scanned (ofContracts scanned) where
  once := ParsedSources.nodup_names_ofContracts scanned
  nodes _ := mem_names_ofContracts
  inverse caller callee outNode inNode hout hin := by
    rw [mem_part_iff hout, mem_part_iff hin, noted_calls_ofContracts, noted_calledBy_ofContracts]
  closed name node hnode other hother := by
    rw [mem_part_iff hnode, mem_part_iff hnode, noted_calls_ofContracts,
      noted_calledBy_ofContracts] at hother
    rw [mem_names_ofContracts]
    rcases hother with ⟨-, hplace, -⟩ | ⟨-, -, entry, hentry, hname, -⟩
    · exact hplace
    · exact ⟨entry, hentry, hname⟩
  irreflexive name node hnode := by
    rw [mem_part_iff hnode, mem_part_iff hnode, noted_calls_ofContracts,
      noted_calledBy_ofContracts]
    exact ⟨fun h => h.1 rfl, fun h => h.1 rfl⟩
  calls name node hnode other := by
    have hcreated (entry : ScannedContract) : other ∈ created entry ↔
        ∃ names, Text.Captures "new".toList false entry.bodyText names ∧ other.toList ∈ names :=
      Text.mem_findAll_iff_captures
    simp only [mem_part_iff hnode, noted_calls_ofContracts, mem_names_ofContracts, Creates,
      hcreated]

end CallGraph

/-- **The call graph of a set notes every call on both sides.** Its nodes are the names of the
contracts found in the set, and the calls are those that the bodies of these contracts say. -/
theorem ParsedSources.consistent_ofFiles (files : List SourceFile) :
    (ofFiles files).contracts = (scanFiles files).map (·.contract) ∧
      CallGraph.Consistent (scanFiles files) (ofFiles files).callGraph :=
  ⟨rfl, CallGraph.consistent_ofContracts (scanFiles files)⟩

end ContractLens
