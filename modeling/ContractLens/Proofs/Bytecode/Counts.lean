import ContractLens.Bytecode.Risk
import ContractLens.Bytecode.Opcode
import ContractLens.Proofs.Table
import Mathlib.Algebra.Group.Nat.Even
/-!
# How often an instruction is counted

A tally holds the names it was given, each with the number of times it was given (`get?_tally`). So
an instruction is counted just where it stands in the code (`counted_count_iff`), and what is
appended to whole bytes of code is counted on top (`countOf_count_append`).
-/

namespace ContractLens.Opcode

theorem get?_foldl_tally (names : List String) (counts : Table Int) (name : String) :
    Table.get? (names.foldl (fun counts name =>
        Table.insert counts name ((Table.get? counts name).getD 0 + 1)) counts) name =
      if name ∈ names then some ((Table.get? counts name).getD 0 + names.count name)
      else Table.get? counts name := by
  induction names generalizing counts with
  | nil => simp
  | cons first names ih =>
    rw [List.foldl_cons, ih, Table.get?_insert]
    by_cases hfirst : first = name
    · subst hfirst
      simp only [beq_self_eq_true, if_true, Option.getD_some, List.mem_cons_self,
        List.count_cons_self]
      split
      · congr 1
        push_cast
        omega
      · rename_i habsent
        rw [List.count_eq_zero_of_not_mem habsent]
        rfl
    · have hne : (first == name) = false := by simpa using hfirst
      have hmem : name ∈ first :: names ↔ name ∈ names := by
        rw [List.mem_cons, or_iff_right fun h => hfirst h.symm]
      simp only [hne, Bool.false_eq_true, if_false, hmem, List.count_cons_of_ne hfirst]

/-- **A tally holds the names it was given**, each as often as it was given. -/
theorem get?_tally (names : List String) (name : String) :
    Table.get? (tally names) name =
      if name ∈ names then some (names.count name : Int) else none := by
  rw [tally, get?_foldl_tally]
  simp

theorem countOf_tally (names : List String) (name : String) :
    Risk.countOf (tally names) name = names.count name := by
  rw [Risk.countOf, get?_tally]
  split
  · rfl
  · rename_i habsent
    rw [List.count_eq_zero_of_not_mem habsent]
    rfl

theorem mem_names_tally_iff {names : List String} {name : String} :
    name ∈ Table.names (tally names) ↔ name ∈ names := by
  rw [← not_iff_not, ← Table.get?_eq_none_iff, get?_tally]
  split <;> simp [*]

/-- **An instruction is counted where it stands in the code.** -/
theorem counted_count_iff {code : List Char} {name : String} :
    Risk.counted (count code) name = true ↔ name ∈ all code := by
  rw [Risk.counted, count, countOf_tally, bne_iff_ne, ne_eq, Int.natCast_eq_zero,
    List.count_eq_zero, not_not]

/-! ## Appended code -/

theorem all_of_short {code : List Char} (h : code.length < 2) : all code = [] := by
  match code, h with
  | [], _ => rfl
  | [_], _ => rfl

/-- **Whole bytes are looked at apart from what follows them.** -/
theorem all_append {code : List Char} (h : Even code.length) (rest : List Char) :
    all (code ++ rest) = all code ++ all rest := by
  induction code using all.induct with
  | case1 high low tail name hname ih =>
    have htail : Even tail.length := by simpa [Nat.even_add_one] using h
    rw [List.cons_append, List.cons_append, all, all, hname]
    dsimp only
    rw [ih htail, List.cons_append]
  | case2 high low tail hname ih =>
    have htail : Even tail.length := by simpa [Nat.even_add_one] using h
    rw [List.cons_append, List.cons_append, all, all, hname]
    exact ih htail
  | case3 code hshort =>
    match code, hshort, h with
    | [], _, _ => rfl
    | [_], _, h => exact absurd h Nat.not_even_one
    | high :: low :: tail, hshort, _ => exact absurd rfl (hshort high low tail)

/-- **Appended code is counted on top.** -/
theorem countOf_count_append {code : List Char} (h : Even code.length) (rest : List Char)
    (name : String) :
    Risk.countOf (count (code ++ rest)) name =
      Risk.countOf (count code) name + Risk.countOf (count rest) name := by
  rw [count, count, count, countOf_tally, countOf_tally, countOf_tally, all_append h,
    List.count_append, Int.natCast_add]

end ContractLens.Opcode
