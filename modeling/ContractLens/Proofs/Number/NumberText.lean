import ContractLens.Failure
import ContractLens.Proofs.Number.Digits
/-!
# Numbers inside texts

A whole number of at most 4300 digits is written inside a text, and a longer one is not
(`numberText_of_short`, `numberText_of_not_short`). The first that is not written has the number
after it as its count of digits (`length_endless`).
-/

namespace ContractLens

theorem numberText_of_short {n : Int} (h : Json.Short n) : numberText n = .ok (intText n) :=
  if_pos h

theorem numberText_of_not_short {n : Int} (h : ¬ Json.Short n) : numberText n = .error .overlong :=
  if_neg h

theorem length_natDigits_pow (k : Nat) : (natDigits (10 ^ k)).length = k + 1 := by
  have hle : (natDigits (10 ^ k)).length ≤ k + 1 :=
    (Nat.length_toDigits_le_iff (by decide) (by omega)).mpr
      (Nat.pow_lt_pow_right (by decide) (by omega))
  have hlt : ¬ (natDigits (10 ^ k)).length ≤ k := by
    rcases Nat.eq_zero_or_pos k with rfl | hpos
    · simpa using natDigits_ne_nil 1
    · exact fun h => Nat.lt_irrefl _ ((Nat.length_toDigits_le_iff (by decide) hpos).mp h)
  omega

/-- The least natural number with too many digits. -/
@[irreducible]
def endless : Int := (10 ^ Json.maxIntegerDigits : Nat)

theorem length_endless : (natDigits endless.natAbs).length = Json.maxIntegerDigits + 1 := by
  rw [endless, Int.natAbs_natCast, length_natDigits_pow]

theorem not_short_endless : ¬ Json.Short endless := by
  rw [Json.Short, length_endless]
  omega

end ContractLens
