import ContractLens.Proofs.Analysis.ReadBack
import ContractLens.Proofs.Source.Body
import ContractLens.Proofs.Text.Length
/-!
# What is found in small sources

Whatever is counted in a source set is bounded by the set's weight, or by its square: lines and
readings by the characters they are made of, contracts by lines, and what contracts hold by both. So
what is found in a set that is not absurdly large is well-formed (`wellFormed_ofFiles`), and a
record of it survives being stored.
-/

namespace ContractLens

open Text

/-! ## Contracts -/

namespace Source

theorem linesLength_extent (depth : Int) (lines : List (List Char)) :
    linesLength (extent depth lines) ≤ linesLength lines :=
  (List.IsPrefix.map _ extent_prefix).sublist.sum_le_sum fun _ _ => Nat.zero_le _

theorem linesLength_body {path : String} {start : Nat} {found : Found Declaration.Head}
    {line : List Char}
    (h : headOf? line = some found) (following : List (List Char)) :
    linesLength (contractOf path start found following).body ≤ linesLength (line :: following) := by
  have hafter := (opened_headOf? h).length_le
  have hextent := linesLength_extent (braceBalance found.after) following
  rw [contractOf, linesLength_cons, linesLength_cons, List.length_drop]
  omega

/-- What a contract is counted to hold. -/
structure Holds (contract : Contract) (bound : Nat) : Prop where
  /-- Its functions. -/
  functions : contract.functions.length ≤ bound
  /-- Its events. -/
  events : contract.events.length ≤ bound
  /-- Its lines. -/
  lines : contract.lineCount.natAbs ≤ bound

theorem Holds.mono {contract : Contract} {bound other : Nat} (h : Holds contract bound)
    (hle : bound ≤ other) : Holds contract other :=
  ⟨Nat.le_trans h.functions hle, Nat.le_trans h.events hle, Nat.le_trans h.lines hle⟩

theorem holds_contractOf (path : String) (start : Nat) (found : Found Declaration.Head)
    (following : List (List Char)) :
    Holds (contractOf path start found following).contract
      (linesLength (contractOf path start found following).body) :=
  ⟨length_flatMap_findAll _ _, length_flatMap_findAll _ _, by
    rw [lineCount_contractOf, Int.natAbs_natCast]
    exact length_le_linesLength _⟩

theorem holds_of_mem_scanLines {path : String} {start : Nat} {lines : List (List Char)}
    {scanned : ScannedContract} (h : scanned ∈ scanLines path start lines) :
    Holds scanned.contract (linesLength lines) := by
  induction lines generalizing start with
  | nil => cases h
  | cons line lines ih =>
    have hrest : linesLength lines ≤ linesLength (line :: lines) := by
      rw [linesLength_cons]
      omega
    rw [scanLines] at h
    split at h
    · rename_i found hfound
      rcases List.mem_cons.mp h with rfl | h
      · exact (holds_contractOf path start found lines).mono (linesLength_body hfound lines)
      · exact (ih h).mono hrest
    · exact (ih h).mono hrest

theorem length_scanLines (path : String) (start : Nat) (lines : List (List Char)) :
    (scanLines path start lines).length ≤ lines.length := by
  induction lines generalizing start with
  | nil => exact Nat.le_refl _
  | cons line lines ih =>
    rw [scanLines]
    split
    · exact Nat.succ_le_succ (ih (start + 1))
    · exact Nat.le_succ_of_le (ih (start + 1))

theorem linesLength_trimmed (content : String) :
    linesLength ((splitLines content.toList).map trim) ≤ content.length + 1 := by
  have hlines : linesLength (splitLines content.toList) = content.length + 1 := by
    rw [splitLines, linesLength_splitAt, String.length_toList]
  rw [← hlines]
  exact linesLength_map_trim _

theorem holds_of_mem_scanFile {path content : String} {scanned : ScannedContract}
    (h : scanned ∈ scanFile path content) : Holds scanned.contract (content.length + 1) :=
  (holds_of_mem_scanLines h).mono (linesLength_trimmed content)

theorem length_scanFile (path content : String) :
    (scanFile path content).length ≤ content.length + 1 :=
  calc (scanFile path content).length
      ≤ ((splitLines content.toList).map trim).length := length_scanLines path 0 _
    _ ≤ linesLength ((splitLines content.toList).map trim) := length_le_linesLength _
    _ ≤ content.length + 1 := linesLength_trimmed content

end Source

/-! ## Sets -/

namespace SourceFile

/-- The characters of a set's paths and contents, and one for each file. -/
def weight (files : List SourceFile) : Nat :=
  (files.map fun file => file.path.length + file.content.length + 1).sum

theorem weight_cons (file : SourceFile) (files : List SourceFile) :
    weight (file :: files) = file.path.length + file.content.length + 1 + weight files := by
  rw [weight, List.map_cons, List.sum_cons, ← weight]

theorem length_le_weight (files : List SourceFile) : files.length ≤ weight files := by
  induction files with
  | nil => exact Nat.le_refl _
  | cons file files ih =>
    rw [weight_cons, List.length_cons]
    omega

theorem content_le_weight {files : List SourceFile} {file : SourceFile} (h : file ∈ files) :
    file.content.length + 1 ≤ weight files := by
  induction files with
  | nil => cases h
  | cons first files ih =>
    rw [weight_cons]
    rcases List.mem_cons.mp h with rfl | h
    · omega
    · have := ih h
      omega

theorem length_announced (file : SourceFile) :
    (announced file).length = file.path.length + file.content.length + 25 := by
  have hstart : "\n// ===== FILE: ".toList.length = 16 := by decide
  have hend : " =====\n".toList.length = 7 := by decide
  have hparts : (announced file).length = "\n// ===== FILE: ".toList.length +
      (file.path.toList.length +
        (" =====\n".toList.length + (file.content.toList.length + 2))) := by
    unfold announced
    simp only [List.length_append, List.length_cons, List.length_nil]
  rw [hstart, hend, String.length_toList, String.length_toList] at hparts
  omega

theorem length_combine (files : List SourceFile) : (combine files).length ≤ 25 * weight files := by
  induction files with
  | nil => exact Nat.le_refl _
  | cons file files ih =>
    rw [combine, List.flatMap_cons, List.length_append, weight_cons, length_announced, ← combine]
    omega

/-- A set that is not absurdly heavy. -/
def Small (files : List SourceFile) : Prop := weight files < 10 ^ 40

theorem Small.mul {files : List SourceFile} (h : Small files) {n : Nat}
    (hn : n ≤ 25 * weight files + 1) : n < 10 ^ 100 := by
  rw [Small] at h
  omega

end SourceFile

namespace ParsedSources

open Source SourceFile

theorem nodup_names_ofNames (names : List String) :
    (Table.names (CallGraph.ofNames names)).Nodup := by
  refine Table.nodup_names_foldl _ (fun graph name h => ?_) names (by simp [Table.names])
  split
  · exact h
  · rename_i hnew
    have hnew : name ∉ Table.names graph := Table.get?_eq_none_iff.mp (by simpa using hnew)
    rw [← Table.insert_of_not_mem _ hnew]
    exact Table.nodup_names_insert name _ h

theorem names_addCall (graph : CallGraph) (caller callee : String) :
    Table.names (CallGraph.addCall graph caller callee) = Table.names graph := by
  rw [CallGraph.addCall]
  split
  · rfl
  · rw [Table.names_update, Table.names_update]

/-- No contract has two places in a call graph. -/
theorem nodup_names_ofContracts (scanned : List ScannedContract) :
    (Table.names (CallGraph.ofContracts scanned)).Nodup := by
  -- every contract has its place before the first call is added, and calls add no places
  refine Table.nodup_names_foldl _ (fun graph entry h => ?_) scanned (nodup_names_ofNames _)
  exact Table.nodup_names_foldl _ (fun graph callee h => (names_addCall graph _ callee) ▸ h) _ h

theorem holds_of_mem_scanFiles {files : List SourceFile} {scanned : ScannedContract}
    (h : scanned ∈ scanFiles files) : Holds scanned.contract (weight files) := by
  obtain ⟨file, hfile, hscanned⟩ := List.mem_flatMap.mp h
  exact (holds_of_mem_scanFile hscanned).mono (content_le_weight hfile)

theorem length_scanFiles (files : List SourceFile) : (scanFiles files).length ≤ weight files := by
  induction files with
  | nil => exact Nat.le_refl _
  | cons file files ih =>
    have hfile := length_scanFile file.path file.content
    rw [scanFiles, List.flatMap_cons, List.length_append, weight_cons, ← scanFiles]
    omega

theorem total_eq_sum {α : Type} (count : α → Nat) (items : List α) :
    total count items = (items.map count).sum := by
  induction items with
  | nil => rfl
  | cons item items ih => rw [total, ih, List.map_cons, List.sum_cons]

theorem total_le {α : Type} {count : α → Nat} (bound : Nat) {items : List α}
    (h : ∀ item ∈ items, count item ≤ bound) : total count items ≤ items.length * bound := by
  induction items with
  | nil => exact Nat.zero_le _
  | cons item items ih =>
    have hitem := h item List.mem_cons_self
    have hitems := ih fun other hother => h other (List.mem_cons_of_mem _ hother)
    rw [total, List.length_cons, Nat.succ_mul]
    omega

theorem total_lines_le (files : List SourceFile) : total (·.lines.length) files ≤ weight files := by
  induction files with
  | nil => exact Nat.le_refl _
  | cons file files ih =>
    have hfile := length_le_linesLength file.lines
    rw [SourceFile.lines, splitLines, linesLength_splitAt, String.length_toList] at hfile
    rw [total, weight_cons, SourceFile.lines, splitLines]
    omega

/-- What is counted in the contracts of a set is bounded by the square of its weight. -/
theorem total_contracts_le {files : List SourceFile} {count : Contract → Nat}
    (hcount : ∀ contract bound, Holds contract bound → count contract ≤ bound) :
    total count ((scanFiles files).map (·.contract)) ≤ weight files * weight files := by
  refine Nat.le_trans (total_le (weight files) fun contract hcontract => ?_) ?_
  · obtain ⟨scanned, hscanned, rfl⟩ := List.mem_map.mp hcontract
    exact hcount _ _ (holds_of_mem_scanFiles hscanned)
  · rw [List.length_map]
    exact Nat.mul_le_mul_right _ (length_scanFiles files)

/-- **What is found in a small set is well-formed.** -/
theorem wellFormed_ofFiles {files : List SourceFile} (h : Small files) :
    (ofFiles files).WellFormed := by
  -- there are at most as many contracts as the weight, and each holds at most as much
  have hsquare : weight files * weight files < 10 ^ 40 * 10 ^ 40 := Nat.mul_lt_mul_of_lt_of_lt h h
  constructor
  case contracts =>
    intro contract hcontract
    obtain ⟨scanned, hscanned, rfl⟩ := List.mem_map.mp hcontract
    have hlines := (holds_of_mem_scanFiles hscanned).lines
    exact short_of_natAbs_lt (Nat.lt_of_le_of_lt hlines (Nat.lt_trans h (by decide)))
  case callGraph => exact nodup_names_ofContracts _
  case totals =>
    refine ⟨short_of_natAbs_lt ?_, short_of_natAbs_lt ?_, short_of_natAbs_lt ?_⟩
    · exact Nat.lt_of_le_of_lt (total_lines_le files) (Nat.lt_trans h (by decide))
    · exact Nat.lt_of_le_of_lt (total_contracts_le fun _ _ hholds => hholds.functions)
        (Nat.lt_trans hsquare (by decide))
    · exact Nat.lt_of_le_of_lt (total_contracts_le fun _ _ hholds => hholds.events)
        (Nat.lt_trans hsquare (by decide))

end ParsedSources

namespace Features

open SourceFile

/-- **The features of a small set are well-formed.** -/
theorem wellFormed_ofFiles {files : List SourceFile} (h : Small files) :
    (ofFiles files (some (ParsedSources.ofFiles files))).WellFormed := by
  have hcombine := length_combine files
  have hcontracts : (ParsedSources.ofFiles files).contracts.length ≤ weight files := by
    rw [ParsedSources.ofFiles, List.length_map]
    exact ParsedSources.length_scanFiles files
  have hlines : (splitLines (combine files)).length ≤ 25 * weight files + 1 := by
    refine Nat.le_trans (length_le_linesLength _) ?_
    rw [splitLines, linesLength_splitAt]
    omega
  have hfunctions := length_findAll Declaration.functionName (combine files)
  refine ⟨short_of_natAbs_lt (h.mul ?_), short_of_natAbs_lt (h.mul ?_),
    short_of_natAbs_lt (h.mul hlines), short_of_natAbs_lt (h.mul ?_)⟩
  · exact Nat.le_trans (length_le_weight files) (by omega)
  · exact Nat.le_trans hcontracts (by omega)
  · exact Nat.le_trans hfunctions (by omega)

end Features

end ContractLens
