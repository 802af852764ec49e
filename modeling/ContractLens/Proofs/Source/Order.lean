import ContractLens.Proofs.Source.Calls
/-!
# Sets of files put together and rearranged

A file is scanned on its own, so what is found in a set is what is found in its files, one after the
other. Only the calls are drawn over the whole set: a body that creates a contract calls it wherever
that one is declared. But which calls there are hangs on the contracts of the set and not on their
order (`get?_ofContracts_congr`), and a contract that is added takes none away (`Creates.mono`).

So two sets put together hold what both hold, and all calls of both (`Merges`); and a set in another
order has the same totals, the same calls, and the same contracts file by file (`Rearranges`).
-/

namespace ContractLens

namespace NameSet

/-- **Sets with the same members are equal.** -/
theorem ext {set other : NameSet} (h : ∀ name, name ∈ set ↔ name ∈ other) : set = other := by
  have hne : ∀ {x y : String}, x < y → x ≠ y := by
    rintro x y hlt rfl
    exact String.lt_irrefl x hlt
  have hnodup : ∀ set : NameSet, set.names.Nodup := fun set => set.ascending.imp hne
  have hperm : set.names.Perm other.names :=
    (List.perm_ext_iff_of_nodup (hnodup set) (hnodup other)).mpr h
  have hnames : set.names = other.names :=
    hperm.eq_of_pairwise
      (fun _ _ _ _ hlt hgt => absurd (String.lt_trans hlt hgt) (String.lt_irrefl _))
      set.ascending other.ascending
  cases set
  cases other
  cases hnames
  rfl

end NameSet

namespace CallGraph

variable {scanned others : List ScannedContract} {caller callee name : String}

/-- A contract that is added takes no call away. -/
theorem Creates.mono (h : scanned ⊆ others) (hcreates : Creates scanned caller callee) :
    Creates others caller callee := by
  obtain ⟨hself, ⟨entry, hentry, hname⟩, ⟨maker, hmaker, hcall⟩⟩ := hcreates
  exact ⟨hself, ⟨entry, h hentry, hname⟩, ⟨maker, h hmaker, hcall⟩⟩

theorem creates_congr (h : ∀ entry, entry ∈ scanned ↔ entry ∈ others) :
    Creates scanned caller callee ↔ Creates others caller callee :=
  ⟨.mono fun _ hentry => (h _).mp hentry, .mono fun _ hentry => (h _).mpr hentry⟩

/-- A node is known by what is noted in its two parts. -/
theorem node_ext {graph graph' : CallGraph} {node node' : CallNode}
    (hnode : Table.get? graph name = some node) (hnode' : Table.get? graph' name = some node')
    (hcalls : ∀ other,
      Noted CallNode.calls graph name other ↔ Noted CallNode.calls graph' name other)
    (hcalledBy : ∀ other,
      Noted CallNode.calledBy graph name other ↔ Noted CallNode.calledBy graph' name other) :
    node = node' := by
  have hfirst : node.calls = node'.calls := NameSet.ext fun other => by
    rw [mem_part_iff hnode, mem_part_iff hnode', hcalls]
  have hsecond : node.calledBy = node'.calledBy := NameSet.ext fun other => by
    rw [mem_part_iff hnode, mem_part_iff hnode', hcalledBy]
  cases node
  cases node'
  cases hfirst
  cases hsecond
  rfl

/-- **The calls of a set hang on its contracts, and not on their order.** -/
theorem get?_ofContracts_congr (h : ∀ entry, entry ∈ scanned ↔ entry ∈ others) (name : String) :
    Table.get? (ofContracts scanned) name = Table.get? (ofContracts others) name := by
  have hplace : name ∈ Table.names (ofContracts scanned) ↔
      name ∈ Table.names (ofContracts others) := by
    simp only [mem_names_ofContracts, h]
  cases hnode : Table.get? (ofContracts scanned) name with
  | none =>
    rw [Table.get?_eq_none_iff, hplace] at hnode
    exact (Table.get?_eq_none_iff.mpr hnode).symm
  | some node =>
    cases hnode' : Table.get? (ofContracts others) name with
    | none =>
      rw [Table.get?_eq_none_iff, ← hplace] at hnode'
      rw [Table.get?_eq_none_iff.mpr hnode'] at hnode
      cases hnode
    | some node' =>
      refine congrArg some (node_ext hnode hnode' (fun other => ?_) fun other => ?_)
      · rw [noted_calls_ofContracts, noted_calls_ofContracts, creates_congr h]
      · rw [noted_calledBy_ofContracts, noted_calledBy_ofContracts, creates_congr h]

end CallGraph

namespace ParsedSources

/-! ## Two sets put together -/

/-- What is found in two sets, and in the set that they make together. -/
structure Merges (left right whole : ParsedSources) : Prop where
  /-- The contracts follow each other. -/
  contracts : whole.contracts = left.contracts ++ right.contracts
  /-- The lines add up. -/
  lines : whole.totalLines = left.totalLines + right.totalLines
  /-- The functions add up. -/
  functions : whole.totalFunctions = left.totalFunctions + right.totalFunctions
  /-- The events add up. -/
  events : whole.totalEvents = left.totalEvents + right.totalEvents
  /-- The nodes of the one and of the other are the nodes of the whole. -/
  nodes : ∀ name, name ∈ Table.names whole.callGraph ↔
    name ∈ Table.names left.callGraph ∨ name ∈ Table.names right.callGraph
  /-- Every call of the one or of the other is noted with its creator. -/
  calls : ∀ caller callee, CallGraph.Noted CallNode.calls left.callGraph caller callee ∨
      CallGraph.Noted CallNode.calls right.callGraph caller callee →
    CallGraph.Noted CallNode.calls whole.callGraph caller callee
  /-- And with the created contract. -/
  calledBy : ∀ caller callee, CallGraph.Noted CallNode.calledBy left.callGraph callee caller ∨
      CallGraph.Noted CallNode.calledBy right.callGraph callee caller →
    CallGraph.Noted CallNode.calledBy whole.callGraph callee caller

theorem total_append {α : Type} (count : α → Nat) (items others : List α) :
    total count (items ++ others) = total count items + total count others := by
  rw [total_eq_sum, total_eq_sum, total_eq_sum, List.map_append, List.sum_append]

theorem total_perm {α : Type} (count : α → Nat) {items others : List α} (h : items.Perm others) :
    total count items = total count others := by
  rw [total_eq_sum, total_eq_sum]
  exact (h.map count).sum_eq

theorem contracts_append (left right : List SourceFile) :
    (ofFiles (left ++ right)).contracts =
      (ofFiles left).contracts ++ (ofFiles right).contracts := by
  rw [ofFiles, scanFiles, List.flatMap_append, List.map_append]
  rfl

theorem merges_ofFiles (left right : List SourceFile) :
    Merges (ofFiles left) (ofFiles right) (ofFiles (left ++ right)) := by
  have hscanned : scanFiles (left ++ right) = scanFiles left ++ scanFiles right :=
    List.flatMap_append
  have hleft : scanFiles left ⊆ scanFiles (left ++ right) :=
    hscanned ▸ List.subset_append_left _ _
  have hright : scanFiles right ⊆ scanFiles (left ++ right) :=
    hscanned ▸ List.subset_append_right _ _
  constructor
  case contracts => exact contracts_append left right
  case lines =>
    exact (congrArg Nat.cast (total_append _ left right)).trans (Int.natCast_add _ _)
  case functions =>
    refine (congrArg Nat.cast ?_).trans (Int.natCast_add _ _)
    rw [← total_append]
    exact congrArg _ (contracts_append left right)
  case events =>
    refine (congrArg Nat.cast ?_).trans (Int.natCast_add _ _)
    rw [← total_append]
    exact congrArg _ (contracts_append left right)
  case nodes =>
    intro name
    simp only [ofFiles, CallGraph.mem_names_ofContracts, hscanned, List.mem_append, or_and_right,
      exists_or]
  case calls =>
    intro caller callee h
    simp only [ofFiles, CallGraph.noted_calls_ofContracts] at h ⊢
    exact h.elim (.mono hleft) (.mono hright)
  case calledBy =>
    intro caller callee h
    simp only [ofFiles, CallGraph.noted_calledBy_ofContracts] at h ⊢
    exact h.elim (.mono hleft) (.mono hright)

/-! ## A set in another order -/

/-- What is found in a set, and in the same set in another order. -/
structure Rearranges (parsed parsed' : ParsedSources) : Prop where
  /-- There are as many lines. -/
  lines : parsed'.totalLines = parsed.totalLines
  /-- There are as many functions. -/
  functions : parsed'.totalFunctions = parsed.totalFunctions
  /-- There are as many events. -/
  events : parsed'.totalEvents = parsed.totalEvents
  /-- The calls are the same. -/
  calls : ∀ name, Table.get? parsed'.callGraph name = Table.get? parsed.callGraph name

/-- The contracts of a set are those of its files, one file after the other. -/
theorem contracts_eq_flatMap (files : List SourceFile) :
    (ofFiles files).contracts = files.flatMap fun file => (ofFiles [file]).contracts := by
  induction files with
  | nil => rfl
  | cons file files ih =>
    rw [List.flatMap_cons, ← ih, ← contracts_append, List.singleton_append]

theorem rearranges_of_perm {files files' : List SourceFile} (h : files.Perm files') :
    Rearranges (ofFiles files) (ofFiles files') := by
  have hscanned : (scanFiles files').Perm (scanFiles files) := h.symm.flatMap_right _
  have hcontracts : (ofFiles files').contracts.Perm (ofFiles files).contracts :=
    hscanned.map ScannedContract.contract
  constructor
  case lines => exact congrArg Nat.cast (total_perm _ h.symm)
  case functions => exact congrArg Nat.cast (total_perm _ hcontracts)
  case events => exact congrArg Nat.cast (total_perm _ hcontracts)
  case calls => exact CallGraph.get?_ofContracts_congr fun _ => hscanned.mem_iff

/-- **Parsing goes over file sets part by part and does not mind their order.** The contracts of a
set are those of its files, one file after the other; two sets put together hold what both hold; and
a set in another order has the same totals and calls. -/
theorem parsed_part_by_part (left right files files' : List SourceFile) (h : files.Perm files') :
    Merges (ofFiles left) (ofFiles right) (ofFiles (left ++ right)) ∧
      Rearranges (ofFiles files) (ofFiles files') ∧
      (ofFiles files).contracts = files.flatMap (fun file => (ofFiles [file]).contracts) ∧
      (ofFiles files').contracts = files'.flatMap fun file => (ofFiles [file]).contracts :=
  ⟨merges_ofFiles left right, rearranges_of_perm h, contracts_eq_flatMap files,
    contracts_eq_flatMap files'⟩

/-- A file whose contract creates another. -/
def deployerFile : SourceFile :=
  ⟨"Deployer.sol",
    "contract Deployer \x7b\n  function run() external \x7b new Token(); \x7d\n\x7d\n"⟩

/-- The file of the contract that is created, which is not finished. -/
def tokenFile : SourceFile := ⟨"Token.sol", "contract Token \x7b\n  event Sent();\n"⟩

/-- The call is drawn in whichever order the two files come. -/
theorem parsed_part_by_part_swapped :
    Rearranges (ofFiles [deployerFile, tokenFile]) (ofFiles [tokenFile, deployerFile]) ∧
      (Table.get? (ofFiles [tokenFile, deployerFile]).callGraph "Deployer").map (·.calls.names) =
        some ["Token"] :=
  ⟨(parsed_part_by_part [] [] _ _ (.swap tokenFile deployerFile [])).2.1, by decide +kernel⟩

end ParsedSources

end ContractLens
