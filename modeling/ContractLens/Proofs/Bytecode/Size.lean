import ContractLens.Proofs.Analysis.ReadBack
import ContractLens.Proofs.Text.Length
/-!
# What is found in small code

An instruction is counted once for each place where it stands, so no count exceeds the length of the
code; the score for complexity is cut to its range. The report on a code text that is not absurdly
long is therefore well-formed (`wellFormed_ofText`).
-/

namespace ContractLens

open Text

namespace Opcode

theorem length_all (code : List Char) : (all code).length ≤ code.length := by
  induction code using all.induct with
  | case1 high low rest name hname ih =>
    rw [all, hname, List.length_cons, List.length_cons, List.length_cons]
    omega
  | case2 high low rest hname ih =>
    rw [all, hname, List.length_cons, List.length_cons]
    exact Nat.le_succ_of_le (Nat.le_succ_of_le ih)
  | case3 code hshort =>
    rw [all.eq_def]
    split
    · exact absurd rfl (hshort _ _ _)
    · exact Nat.zero_le _

/-- Counts of so many things at most. -/
def Within (bound : Nat) (counts : Table Int) : Prop :=
  ∀ entry ∈ counts, 0 ≤ entry.2 ∧ entry.2 ≤ bound

theorem Within.insert {bound : Nat} {counts : Table Int} (h : Within bound counts)
    (name : String) :
    Within (bound + 1) (Table.insert counts name ((Table.get? counts name).getD 0 + 1)) := by
  intro entry hentry
  rcases Table.mem_insert hentry with hentry | rfl
  · obtain ⟨hfrom, hto⟩ := h entry hentry
    exact ⟨hfrom, by omega⟩
  · cases hfound : Table.get? counts name with
    | none =>
      simp only [Option.getD_none]
      omega
    | some n =>
      obtain ⟨hfrom, hto⟩ := h _ (Table.mem_of_get?_eq_some hfound)
      simp only [Option.getD_some]
      omega

theorem within_tally (names : List String) : Within names.length (tally names) := by
  suffices h : ∀ (bound : Nat) (counts : Table Int), Within bound counts →
      Within (bound + names.length) (names.foldl (fun counts name =>
        Table.insert counts name ((Table.get? counts name).getD 0 + 1)) counts) by
    have hall := h 0 [] fun _ hentry => absurd hentry List.not_mem_nil
    rwa [Nat.zero_add] at hall
  induction names with
  | nil => exact fun _ _ h => h
  | cons name names ih =>
    intro bound counts h
    have hrest := ih (bound + 1) _ (h.insert name)
    rwa [List.length_cons, Nat.add_comm names.length 1, ← Nat.add_assoc]

theorem nodup_names_tally (names : List String) : (Table.names (tally names)).Nodup :=
  Table.nodup_names_foldl _ (fun _ name h => Table.nodup_names_insert name _ h) names
    (by simp [Table.names])

end Opcode

/-- A score is in its range. -/
theorem Complexity.score_mem {instructions functions n : Int}
    (h : score instructions functions = .ok n) : 0 ≤ n ∧ n ≤ 100 := by
  rw [score] at h
  split at h
  · split at h
    · split at h
      · cases h
        rw [clamp]
        omega
      · cases h
    · cases h
  · cases h

/-- A score that cannot be computed counts as none, which is in the range. -/
theorem Complexity.getD_score_mem (instructions functions : Int) :
    0 ≤ ((score instructions functions).toOption).getD 0 ∧
      ((score instructions functions).toOption).getD 0 ≤ 100 := by
  cases hscore : score instructions functions with
  | error fault => exact ⟨Int.le_refl 0, (by decide : (0 : Int) ≤ 100)⟩
  | ok n => exact score_mem hscore

theorem Code.length_normalize (code : List Char) : (normalize code).length ≤ 2 * code.length := by
  have hsmall : (lower (code.filter fun c => !isBlank c)).length ≤ 2 * code.length :=
    Nat.le_trans (length_lower _) (Nat.mul_le_mul_left 2 (List.length_filter_le _ _))
  rw [normalize]
  cases hdrop : dropStart? ['0', 'x'] (lower (code.filter fun c => !isBlank c)) with
  | none => exact hsmall
  | some rest => exact Nat.le_trans (length_dropStart? hdrop) hsmall

namespace BytecodeReport

theorem wellFormed_empty (address bytecode : String) : (empty address bytecode).WellFormed where
  distinct := List.nodup_nil
  counts _ hentry := absurd hentry List.not_mem_nil
  scoreFrom := Int.le_refl _
  scoreTo := (by decide : (0 : Int) ≤ 100)

theorem wellFormed_ofCode (thresholds : Thresholds) (address bytecode : String) {code : List Char}
    (h : code.length < 10 ^ 50) : (ofCode thresholds address bytecode code).WellFormed where
  distinct := Opcode.nodup_names_tally _
  counts entry hentry := by
    obtain ⟨hfrom, hto⟩ := Opcode.within_tally _ entry hentry
    have hall := Opcode.length_all code
    refine short_of_natAbs_lt (Nat.lt_trans ?_ (by decide : 10 ^ 50 < 10 ^ 100))
    omega
  scoreFrom := (Complexity.getD_score_mem _ _).1
  scoreTo := (Complexity.getD_score_mem _ _).2

/-- **The report on a code text that is not absurdly long is well-formed.** -/
theorem wellFormed_ofText (thresholds : Thresholds) (address : String) {bytecode : String}
    (h : bytecode.length < 10 ^ 40) : (ofText thresholds address bytecode).WellFormed := by
  have hlen := Code.length_normalize bytecode.toList
  rw [String.length_toList] at hlen
  rw [ofText]
  split
  · exact wellFormed_empty _ _
  · exact wellFormed_ofCode _ _ _ (by omega)

end BytecodeReport

end ContractLens
