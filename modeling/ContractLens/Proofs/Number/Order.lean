import ContractLens.Number.Binary64
import Mathlib.Algebra.Order.Field.Basic
import Mathlib.Data.Rat.Cast.Order
import Mathlib.Order.WithBot
/-!
# The order of binary numbers

A binary number that is a number has a value, a rational one or one of the two infinities, and one
lies below another just when its value does (`lt_iff`). So its order is that of a linear order. A
number that is rounded from a ratio is always a number.
-/

namespace ContractLens.Binary64

/-- The value of a number; that of `nan` means nothing. -/
def value : Binary64 → WithBot (WithTop ℚ)
  | finite negative mantissa exponent =>
    ((((signedRatio negative mantissa exponent).1 : ℚ) /
      ((signedRatio negative mantissa exponent).2 : ℚ) : ℚ) : WithTop ℚ)
  | infinite true => ⊥
  | infinite false => ((⊤ : WithTop ℚ) : WithBot (WithTop ℚ))
  | nan => ⊥

theorem signedRatio_pos (negative : Bool) (mantissa : Nat) (exponent : Int) :
    0 < (signedRatio negative mantissa exponent).2 := by
  cases exponent with
  | ofNat e => exact Nat.one_pos
  | negSucc e => exact Nat.pow_pos (by decide)

/-- **One number lies below another just when its value does.** -/
theorem lt_iff {x y : Binary64} (hx : x ≠ nan) (hy : y ≠ nan) :
    lt x y = true ↔ x.value < y.value := by
  cases x with
  | nan => exact absurd rfl hx
  | finite s m e =>
    cases y with
    | nan => exact absurd rfl hy
    | finite t n f =>
      have hd : (0 : ℚ) < (signedRatio s m e).2 := by exact_mod_cast signedRatio_pos s m e
      have hb : (0 : ℚ) < (signedRatio t n f).2 := by exact_mod_cast signedRatio_pos t n f
      simp only [lt, value, decide_eq_true_eq, WithBot.coe_lt_coe, WithTop.coe_lt_coe]
      rw [div_lt_div_iff₀ hd hb]
      norm_cast
    | infinite t =>
      cases t with
      | true => simp [lt, value]
      | false =>
        simp only [lt, value, Bool.not_false, WithBot.coe_lt_coe]
        exact iff_of_true trivial (WithTop.coe_lt_top _)
  | infinite s =>
    cases y with
    | nan => exact absurd rfl hy
    | finite t n f =>
      cases s with
      | true => simp [lt, value]
      | false =>
        simp only [lt, value, Bool.false_eq_true, WithBot.coe_lt_coe]
        exact iff_of_false nofun (not_lt_of_ge le_top)
    | infinite t => cases s <;> cases t <;> simp [lt, value]

theorem ofRatio_ne_nan (negative : Bool) (num den : Nat) : ofRatio negative num den ≠ nan := by
  rw [ofRatio]
  split
  · exact nofun
  · dsimp only
    repeat' split
    all_goals exact nofun

/-- The sum of a number and a finite one is a number. -/
theorem add_ne_nan {x : Binary64} (hx : x ≠ nan) (negative : Bool) (mantissa : Nat)
    (exponent : Int) : add x (finite negative mantissa exponent) ≠ nan := by
  cases x with
  | nan => exact absurd rfl hx
  | infinite sign => exact nofun
  | finite s m e =>
    rw [add]
    dsimp only
    split
    · exact nofun
    · exact ofRatio_ne_nan _ _ _

/-- A ratio with a numerator that is not too long has a finite nearest number. -/
theorem ofRatio_ne_infinite {num : Nat} (h : num.log2 < 1000) (negative : Bool) (den : Nat)
    (sign : Bool) : ofRatio negative num den ≠ infinite sign := by
  rw [ofRatio]
  split
  · exact nofun
  · dsimp only
    -- the exponent exceeds that of the first guess by two at most
    have hmax : maxExponent = 971 := rfl
    have hmin : minExponent = -1074 := rfl
    split <;> split <;> split <;> (try split) <;> first | omega | exact nofun

end ContractLens.Binary64
