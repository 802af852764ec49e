import ContractLens.Cache.Store
import ContractLens.Proofs.Table
/-!
# Indexes of the store

What the commands for an index do to the scores of its keys, and that its keys in order are its
keys.
-/

namespace ContractLens.Cache.Store

theorem scores_setScore (store : Store) (index key other : String) (score : Binary64) :
    (store.setScore index key score).scores other =
      if index = other then (store.scores index).insert key score else store.scores other := by
  rw [scores, setScore, Table.get?_insert]
  by_cases h : index = other
  · rw [if_pos h, if_pos (beq_iff_eq.mpr h), Option.getD_some]
  · rw [if_neg h, if_neg (by simpa using h), ← scores]

theorem scores_eraseScore (store : Store) (index key other : String) :
    (store.eraseScore index key).scores other =
      if index = other then (store.scores other).erase key else store.scores other := by
  rw [scores, eraseScore, Table.get?_update]
  by_cases h : index = other
  · rw [if_pos h, if_pos h, scores]
    cases store.indexes.get? other <;> rfl
  · rw [if_neg h, if_neg h, ← scores]

theorem score_setScore (store : Store) (index key other : String) (score : Binary64) :
    ((store.setScore index key score).scores index).get? other =
      if key = other then some score else (store.scores index).get? other := by
  rw [scores_setScore, if_pos rfl, Table.get?_insert]
  by_cases h : key = other
  · rw [if_pos h, if_pos (beq_iff_eq.mpr h)]
  · rw [if_neg h, if_neg (by simpa using h)]

theorem score_eraseScore (store : Store) (index key other : String) :
    ((store.eraseScore index key).scores index).get? other =
      if key = other then none else (store.scores index).get? other := by
  rw [scores_eraseScore, if_pos rfl, Table.get?_erase]

theorem ranked_congr {before after : Store} (h : after.indexes = before.indexes)
    (index : String) : after.ranked index = before.ranked index := by
  rw [ranked, ranked, scores, scores, h]

/-- The keys of an index in order are its keys. -/
theorem ranked_perm (store : Store) (index : String) :
    (store.ranked index).Perm (Table.names (store.scores index)) :=
  (List.mergeSort_perm _ _).map _

theorem mem_ranked_iff {store : Store} {index key : String} :
    key ∈ store.ranked index ↔ (store.scores index).get? key ≠ none := by
  rw [(store.ranked_perm index).mem_iff, ne_eq, Table.get?_eq_none_iff, Decidable.not_not]

end ContractLens.Cache.Store
