import ContractLens.Proofs.Cache.Index
import ContractLens.Proofs.Number.Order
/-!
# The order of an index

Entries whose scores are numbers are ordered by their values, and by their keys where the values are
equal. This is a total order, so the entries of an index come in one order only, however they were
put into it.
-/

namespace ContractLens.Cache.Store

variable {x y z : String × Binary64}

/-- The order of entries is that of values and keys. -/
theorem ranksBefore_iff (hx : x.2 ≠ .nan) (hy : y.2 ≠ .nan) :
    ranksBefore x y = true ↔
      y.2.value < x.2.value ∨ y.2.value = x.2.value ∧ y.1 ≤ x.1 := by
  have hless := Binary64.lt_iff hy hx
  have hmore := Binary64.lt_iff hx hy
  rw [ranksBefore, Bool.or_eq_true, Bool.and_eq_true, Bool.not_eq_true', hless, decide_eq_true_eq,
    ← Bool.not_eq_true, hmore]
  constructor
  · rintro (h | ⟨hle, hkey⟩)
    · exact .inl h
    · exact (lt_or_eq_of_le (not_lt.mp hle)).imp_right (⟨·, hkey⟩)
  · rintro (h | ⟨heq, hkey⟩)
    · exact .inl h
    · exact .inr ⟨not_lt_of_ge heq.le, hkey⟩

theorem ranksBefore_total (hx : x.2 ≠ .nan) (hy : y.2 ≠ .nan) :
    (ranksBefore x y || ranksBefore y x) = true := by
  rw [Bool.or_eq_true, ranksBefore_iff hx hy, ranksBefore_iff hy hx]
  rcases lt_trichotomy x.2.value y.2.value with h | h | h
  · exact .inr (.inl h)
  · rcases String.le_total x.1 y.1 with hkey | hkey
    · exact .inr (.inr ⟨h, hkey⟩)
    · exact .inl (.inr ⟨h.symm, hkey⟩)
  · exact .inl (.inl h)

theorem ranksBefore_trans (hx : x.2 ≠ .nan) (hy : y.2 ≠ .nan) (hz : z.2 ≠ .nan)
    (hxy : ranksBefore x y = true) (hyz : ranksBefore y z = true) : ranksBefore x z = true := by
  rw [ranksBefore_iff hx hy] at hxy
  rw [ranksBefore_iff hy hz] at hyz
  rw [ranksBefore_iff hx hz]
  rcases hxy with hxy | ⟨hxy, hkey⟩ <;> rcases hyz with hyz | ⟨hyz, hkey'⟩
  · exact .inl (hyz.trans hxy)
  · exact .inl (hyz.trans_lt hxy)
  · exact .inl (hyz.trans_eq hxy)
  · exact .inr ⟨hyz.trans hxy, String.le_trans hkey' hkey⟩

/-- Entries that come before each other have the same key. -/
theorem key_eq_of_ranksBefore (hx : x.2 ≠ .nan) (hy : y.2 ≠ .nan) (hxy : ranksBefore x y = true)
    (hyx : ranksBefore y x = true) : x.1 = y.1 := by
  rw [ranksBefore_iff hx hy] at hxy
  rw [ranksBefore_iff hy hx] at hyx
  rcases hxy with hxy | ⟨hxy, hkey⟩ <;> rcases hyx with hyx | ⟨hyx, hkey'⟩
  · exact absurd hxy (lt_asymm hyx)
  · exact absurd hxy (hyx ▸ lt_irrefl _)
  · exact absurd hyx (hxy ▸ lt_irrefl _)
  · exact String.le_antisymm hkey' hkey

/-- The score of an entry is not below those of the entries after it. -/
theorem lt_eq_false_of_ranksBefore (hx : x.2 ≠ .nan) (hy : y.2 ≠ .nan)
    (hxy : ranksBefore x y = true) : Binary64.lt x.2 y.2 = false := by
  rw [← Bool.not_eq_true, Binary64.lt_iff hx hy, not_lt]
  exact ((ranksBefore_iff hx hy).mp hxy).elim le_of_lt fun h => h.1.le

/-! ## Sorting by rank -/

/-- Items whose scores are numbers are sorted by rank. -/
theorem pairwise_sort_ranksBefore {α : Type} (entry : α → String × Binary64)
    (hnan : ∀ a, (entry a).2 ≠ .nan) (items : List α) :
    (items.mergeSort fun a b => ranksBefore (entry a) (entry b)).Pairwise fun a b =>
      ranksBefore (entry a) (entry b) = true := by
  refine List.pairwise_mergeSort (fun a b c hab hbc => ?_) (fun a b => ?_) items
  · exact ranksBefore_trans (hnan a) (hnan b) (hnan c) hab hbc
  · exact ranksBefore_total (hnan a) (hnan b)

/-- The entries of an index whose scores are numbers are sorted by rank. -/
theorem pairwise_sort_scores {scores : Table Binary64} (hnan : ∀ x ∈ scores, x.2 ≠ .nan) :
    (scores.mergeSort ranksBefore).Pairwise fun x y => ranksBefore x y = true := by
  have hsort := pairwise_sort_ranksBefore Subtype.val
    (fun x : { x : String × Binary64 // x.2 ≠ .nan } => x.2) (scores.attachWith _ hnan)
  have hmap := List.map_mergeSort (f := Subtype.val) (s := ranksBefore)
    (l := scores.attachWith _ hnan) (r := fun x y => ranksBefore x.1 y.1) fun _ _ _ _ => rfl
  rw [List.attachWith_map_subtype_val] at hmap
  rw [← hmap, List.pairwise_map]
  exact hsort

end ContractLens.Cache.Store
