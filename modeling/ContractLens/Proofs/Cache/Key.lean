import ContractLens.Cache.Operations
import ContractLens.Proofs.Number.NumberText
import Mathlib.Data.List.Basic
/-!
# Keys of the cache

The key of a record says which record it is, up to the case of its address (`keyText_inj`), and is
never the key of the counter or of the index: a record's key ends with a colon and a whole number. A
number too long to be written has no key (`recordKey_eq_ok_iff`).
-/

namespace ContractLens.Cache

variable {config : Config}

theorem intText_toList (n : Int) : (intText n).toList = intDigits n := String.toList_ofList

theorem not_mem_intDigits (n : Int) : ':' ∉ intDigits n := by
  intro hmem
  obtain ⟨c, digits, hn, hc, hdigits⟩ := intDigits_head n
  rw [hn, List.mem_cons] at hmem
  rcases hmem with rfl | hmem
  · rcases hc with hc | hc <;> exact absurd hc (by decide)
  · exact absurd (hdigits ':' hmem) (by decide)

/-- The characters of a record's key. -/
theorem keyText_toList (config : Config) (address : String) (chainId : Int) :
    (config.keyText address chainId).toList =
      config.keyStart.toList ++ ":analysis:".toList ++
        ((Text.lowerString address).toList ++ ':' :: intDigits chainId) := by
  simp [Config.keyText, intText_toList]

/-- Two texts split at their last colon in one way only. -/
theorem append_colon_inj {xs ys xs' ys' : List Char} (h : xs ++ ':' :: ys = xs' ++ ':' :: ys')
    (hy : ':' ∉ ys) (hy' : ':' ∉ ys') : xs = xs' ∧ ys = ys' := by
  rcases List.append_eq_append_iff.mp h with ⟨as, rfl, has⟩ | ⟨as, rfl, has⟩
  · cases as with
    | nil => exact ⟨(List.append_nil xs).symm, (List.cons.inj has).2⟩
    | cons c as =>
      rw [(List.cons.inj has).2] at hy
      exact absurd (by simp) hy
  · cases as with
    | nil => exact ⟨List.append_nil xs', ((List.cons.inj has).2).symm⟩
    | cons c as =>
      rw [(List.cons.inj has).2] at hy'
      exact absurd (by simp) hy'

/-- **Equal keys are keys of the same record**, addresses counting up to case. -/
theorem keyText_inj {a b : String} {m n : Int}
    (h : config.keyText a m = config.keyText b n) :
    Text.lowerString a = Text.lowerString b ∧ m = n := by
  have hchars := congrArg String.toList h
  rw [keyText_toList, keyText_toList, List.append_cancel_left_eq] at hchars
  obtain ⟨haddress, hdigits⟩ :=
    append_colon_inj hchars (not_mem_intDigits m) (not_mem_intDigits n)
  exact ⟨String.toList_injective haddress, intText_injective (congrArg String.ofList hdigits)⟩

theorem keyText_congr {a b : String} (h : Text.lowerString a = Text.lowerString b) (n : Int) :
    config.keyText a n = config.keyText b n := by
  rw [Config.keyText, Config.keyText, h]

/-- No record's key ends with a word without a colon. -/
theorem keyText_ne_append (a : String) (n : Int) (word : List Char) (hw : ':' ∉ word)
    {key : String} (hkey : key.toList = config.keyStart.toList ++ ":analysis:".toList ++ word) :
    config.keyText a n ≠ key := by
  intro h
  rw [← h, keyText_toList, List.append_cancel_left_eq] at hkey
  rw [← hkey] at hw
  exact hw (by simp)

theorem keyText_ne_skippedKey (a : String) (n : Int) :
    config.keyText a n ≠ config.skippedKey :=
  keyText_ne_append a n "skipped_upgradeable".toList (by decide) (by simp [Config.skippedKey])

theorem keyText_ne_indexKey (a : String) (n : Int) :
    config.keyText a n ≠ config.indexKey :=
  keyText_ne_append a n "index".toList (by decide) (by simp [Config.indexKey])

/-! ## Keys that can be made -/

theorem recordKey_of_short {n : Int} (h : Json.Short n) (a : String) :
    config.recordKey a n = .ok (config.keyText a n) := by
  rw [Config.recordKey, numberText_of_short h]
  rfl

theorem recordKey_of_not_short {n : Int} (h : ¬ Json.Short n) (a : String) :
    config.recordKey a n = .error .overlong := by
  rw [Config.recordKey, numberText_of_not_short h]
  rfl

/-- A record has a key just when the number of its chain is short. -/
theorem recordKey_eq_ok_iff {a key : String} {n : Int} :
    config.recordKey a n = .ok key ↔ Json.Short n ∧ config.keyText a n = key := by
  by_cases h : Json.Short n
  · rw [recordKey_of_short h, Except.ok.injEq, and_iff_right h]
  · simp [recordKey_of_not_short h, h]

end ContractLens.Cache
