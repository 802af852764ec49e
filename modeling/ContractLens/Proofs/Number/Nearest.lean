import ContractLens.Proofs.Number.Exact
import Mathlib.Algebra.Group.Int.Even
/-!
# Nearest numbers

Rounding to a whole number takes the nearest one, and the even one of two that are equally near; it
keeps the order (`NearestEven.le_of_le`). A ratio is rounded in this way to a whole number of its
units. So the binary number that a ratio is rounded to is off by a tiny part of it at most, is the
ratio where that has a place among the binary numbers, and is infinite just when the ratio is not
below a certain limit (`roundsTo_ofRatio`). The same holds of a sum of two numbers (`roundsTo_add`).
-/

namespace ContractLens

variable {q r : ℚ} {whole other : Int}

/-! ## Whole numbers -/

/-- A whole number is nearest to a rational one, and even if another one is equally near. -/
structure NearestEven (q : ℚ) (whole : Int) : Prop where
  /-- It is half a unit away at most. -/
  near : |q - whole| ≤ 1 / 2
  /-- It is even if it is half a unit away. -/
  even : |q - whole| = 1 / 2 → Even whole

namespace NearestEven

theorem of_lt (h : |q - whole| < 1 / 2) : NearestEven q whole := ⟨h.le, fun heq => absurd heq h.ne⟩

theorem intCast (whole : Int) : NearestEven whole whole :=
  of_lt (by rw [sub_self, abs_zero]; norm_num)

theorem neg (h : NearestEven q whole) : NearestEven (-q) (-whole : Int) := by
  have hdist : |-q - (-whole : Int)| = |q - whole| := by
    rw [Int.cast_neg, ← abs_neg (q - whole)]
    ring_nf
  exact ⟨hdist.trans_le h.near, fun heq => (h.even (hdist.symm.trans heq)).neg⟩

/-- **Rounding keeps the order.** -/
theorem le_of_le (hq : NearestEven q whole) (hr : NearestEven r other) (hle : q ≤ r) :
    whole ≤ other := by
  by_contra hlt
  have hstep : (other : ℚ) + 1 ≤ whole := by exact_mod_cast Int.add_one_le_of_lt (lt_of_not_ge hlt)
  have hlow := (abs_le.mp hq.near).1
  have hhigh := (abs_le.mp hr.near).2
  -- both are half way between two neighbours, which cannot both be even
  have hwhole : |q - whole| = 1 / 2 := by
    rw [show q - whole = -(1 / 2) by linarith, abs_neg]
    norm_num
  have hother : |r - other| = 1 / 2 := by
    rw [show r - other = 1 / 2 by linarith]
    norm_num
  have hnext : whole = other + 1 := by
    have hcast : (whole : ℚ) = other + 1 := by linarith
    exact_mod_cast hcast
  exact Int.even_add_one.mp (hnext ▸ hq.even hwhole) (hr.even hother)

theorem unique (h : NearestEven q whole) (h' : NearestEven q other) : whole = other :=
  le_antisymm (h.le_of_le h' le_rfl) (h'.le_of_le h le_rfl)

/-- Rounding stays below an even number just when the number is more than half a unit below it. -/
theorem lt_iff (h : NearestEven q whole) (heven : Even other) :
    whole < other ↔ q < other - 1 / 2 := by
  have hlow := (abs_le.mp h.near).1
  have hhigh := (abs_le.mp h.near).2
  constructor
  · intro hlt
    have hstep : (whole : ℚ) + 1 ≤ other := by exact_mod_cast hlt
    refine lt_of_le_of_ne (by linarith) fun heq => ?_
    have hwhole : |q - whole| = 1 / 2 := by
      rw [show q - whole = 1 / 2 by linarith]
      norm_num
    have hnext : other = whole + 1 := by
      have hcast : (other : ℚ) = whole + 1 := by linarith
      exact_mod_cast hcast
    exact Int.even_add_one.mp (hnext ▸ heven) (h.even hwhole)
  · intro hlt
    have hcast : (whole : ℚ) < other := by linarith
    exact_mod_cast hcast

end NearestEven

/-- **A quotient is rounded to the nearest whole number**, a half to the even neighbour. -/
theorem nearestEven_roundDiv (num : Nat) {den : Nat} (hden : 0 < den) :
    NearestEven (num / den : ℚ) (roundDiv num den : Nat) := by
  have hpos : (0 : ℚ) < den := by exact_mod_cast hden
  have hsplit : (num / den : ℚ) = (num / den : Nat) + (num % den : Nat) / den := by
    rw [← mul_left_inj' hpos.ne', add_mul, div_mul_cancel₀ _ hpos.ne', div_mul_cancel₀ _ hpos.ne']
    exact_mod_cast (Nat.div_add_mod' num den).symm
  have hrest : (0 : ℚ) ≤ (num % den : Nat) / den := by positivity
  have hless : ((num % den : Nat) / den : ℚ) < 1 := by
    rw [div_lt_one hpos]
    exact_mod_cast Nat.mod_lt num hden
  rw [roundDiv, hsplit]
  generalize num / den = whole at *
  split
  · rename_i hlow
    refine .of_lt ?_
    have hhalf : ((num % den : Nat) / den : ℚ) < 1 / 2 := by
      rw [div_lt_iff₀ hpos]
      have hcast : (2 : ℚ) * (num % den : Nat) < den := by exact_mod_cast hlow
      linarith
    rw [Int.cast_natCast, add_sub_cancel_left, abs_of_nonneg hrest]
    exact hhalf
  split
  · rename_i hhigh
    refine .of_lt ?_
    have hhalf : 1 / 2 < ((num % den : Nat) / den : ℚ) := by
      rw [lt_div_iff₀ hpos]
      have hcast : (den : ℚ) < 2 * (num % den : Nat) := by exact_mod_cast hhigh
      linarith
    rw [Int.cast_natCast, Nat.cast_succ, abs_lt]
    constructor <;> linarith
  -- the remainder is half of the divisor
  rename_i hlow hhigh
  have hhalf : ((num % den : Nat) / den : ℚ) = 1 / 2 := by
    rw [div_eq_iff hpos.ne']
    have hcast : (2 : ℚ) * (num % den : Nat) = den := by
      exact_mod_cast le_antisymm (not_lt.mp hhigh) (not_lt.mp hlow)
    linarith
  rw [hhalf]
  split
  · rename_i heven
    refine ⟨?_, fun _ => (Int.even_coe_nat whole).mpr (Nat.even_iff.mpr (beq_iff_eq.mp heven))⟩
    rw [Int.cast_natCast, add_sub_cancel_left]
    norm_num
  · rename_i hodd
    refine ⟨?_, fun _ => (Int.even_coe_nat _).mpr ?_⟩
    · rw [Int.cast_natCast, Nat.cast_succ, abs_le]
      constructor <;> linarith
    · rw [Nat.even_add_one, Nat.even_iff]
      exact mt beq_iff_eq.mpr hodd

/-! ## Ratios -/

namespace Binary64

variable {num den : Nat} {x y : Binary64}

/-- The whole number of units that a ratio is rounded to. -/
def units (num den : Nat) : Nat :=
  roundDiv (scaled num den (unit num den)).1 (scaled num den (unit num den)).2

/-- The least number that is too large: half a unit above the largest finite one. -/
def limit : ℚ := (2 ^ 53 - 1 / 2) * 2 ^ maxExponent

theorem two_lt_limit : 2 < limit := by
  have hone : (1 : ℚ) ≤ 2 ^ maxExponent := one_le_zpow₀ (by norm_num) (by decide)
  rw [limit]
  linarith

theorem nearestEven_units (num : Nat) (hden : den ≠ 0) :
    NearestEven (num / den / 2 ^ unit num den : ℚ) (units num den : Nat) := by
  rw [← scaled_div]
  exact nearestEven_roundDiv _ (scaled_pos num (Nat.pos_of_ne_zero hden) _)

theorem units_le (hnum : num ≠ 0) (hden : den ≠ 0) : units num den ≤ 2 ^ 53 := by
  have hpower : (0 : ℚ) < 2 ^ unit num den := zpow_pos (by norm_num) _
  have hle : (num / den / 2 ^ unit num den : ℚ) ≤ ((2 ^ 53 : Int) : ℚ) := by
    rw [div_le_iff₀ hpower]
    exact_mod_cast (fits_unit hnum hden).short.le
  exact_mod_cast (nearestEven_units num hden).le_of_le (.intCast _) hle

theorem le_units (hnum : num ≠ 0) (hden : den ≠ 0) (hlong : unit num den ≠ minExponent) :
    2 ^ 52 ≤ units num den := by
  have hpower : (0 : ℚ) < 2 ^ unit num den := zpow_pos (by norm_num) _
  have hle : ((2 ^ 52 : Int) : ℚ) ≤ num / den / 2 ^ unit num den := by
    rw [le_div_iff₀ hpower]
    exact_mod_cast (fits_unit hnum hden).long.resolve_left hlong
  exact_mod_cast NearestEven.le_of_le (.intCast _) (nearestEven_units num hden) hle

/-- A mantissa at some power is kept, unless it is too large. -/
theorem packed (negative : Bool) {mantissa : Nat} {exponent : Int} (hshort : mantissa < 2 ^ 53)
    (hlong : maxExponent < exponent → 2 ^ 52 ≤ mantissa) :
    let packed := if maxExponent < exponent then infinite negative
      else if mantissa == 0 then finite negative 0 0 else finite negative mantissa exponent
    (packed.isFinite = true ↔ (mantissa * 2 ^ exponent : ℚ) < 2 ^ 53 * 2 ^ maxExponent) ∧
      (packed.isFinite = true →
        packed.value = ((signed negative (mantissa * 2 ^ exponent) : ℚ) : WithTop ℚ)) := by
  have hpower : (0 : ℚ) < 2 ^ exponent := zpow_pos (by norm_num) _
  dsimp only
  split
  · rename_i hmax
    have hcast : (2 ^ 52 : ℚ) ≤ mantissa := by exact_mod_cast hlong hmax
    exact ⟨iff_of_false nofun (not_lt_of_ge ((two_pow_mul_maxExponent_le hmax).trans
      (mul_le_mul_of_nonneg_right hcast hpower.le))), nofun⟩
  · rename_i hmax
    have hcast : (mantissa : ℚ) < 2 ^ 53 := by exact_mod_cast hshort
    have hsmall : (mantissa * 2 ^ exponent : ℚ) < 2 ^ 53 * 2 ^ maxExponent :=
      (mul_lt_mul_of_pos_right hcast hpower).trans_le
        (two_pow_mul_zpow_le 53 (le_of_not_gt hmax))
    split
    · rename_i hnone
      refine ⟨iff_of_true rfl hsmall, fun _ => ?_⟩
      rw [value_finite, beq_iff_eq.mp hnone, Nat.cast_zero, zero_mul, zero_mul]
    · exact ⟨iff_of_true rfl hsmall, fun _ => value_finite _ _ _⟩

/-- A ratio is rounded to a whole number of units, unless these are too many. -/
theorem ofRatio_units (negative : Bool) (hnum : num ≠ 0) (hden : den ≠ 0) :
    ((ofRatio negative num den).isFinite = true ↔
        (units num den * 2 ^ unit num den : ℚ) < 2 ^ 53 * 2 ^ maxExponent) ∧
      ((ofRatio negative num den).isFinite = true → (ofRatio negative num den).value =
        ((signed negative (units num den * 2 ^ unit num den) : ℚ) : WithTop ℚ)) := by
  have hle := units_le hnum hden
  have hlong := le_units hnum hden
  rw [ofRatio_eq hnum, ← units]
  generalize units num den = whole at *
  generalize unit num den = power at *
  dsimp only
  split
  · rename_i hfull
    have hcarry : (whole * 2 ^ power : ℚ) = (Nat.pow 2 52 : Nat) * 2 ^ (power + 1) := by
      rw [beq_iff_eq.mp hfull, zpow_add_one₀ (by norm_num), Nat.pow_eq, Nat.pow_eq]
      push_cast
      ring
    rw [hcarry]
    exact packed negative (show Nat.pow 2 52 < 2 ^ 53 by decide) fun _ => le_rfl
  · rename_i hfull
    refine packed negative (lt_of_le_of_ne hle (mt beq_iff_eq.mpr hfull)) fun hmax => hlong ?_
    exact (lt_trans (show minExponent < maxExponent by decide) hmax).ne'

/-- **A ratio has a finite number next to it just when it lies below the limit.** -/
theorem isFinite_ofRatio_iff (negative : Bool) (num : Nat) (hden : den ≠ 0) :
    (ofRatio negative num den).isFinite = true ↔ (num / den : ℚ) < limit := by
  have hmaxPower : (0 : ℚ) < 2 ^ maxExponent := zpow_pos (by norm_num) _
  rcases eq_or_ne num 0 with rfl | hnum
  · rw [Nat.cast_zero, zero_div, limit]
    exact iff_of_true rfl (mul_pos (by norm_num) hmaxPower)
  have hfits := fits_unit hnum hden
  have hnearest := nearestEven_units num hden
  have hle := units_le hnum hden
  have hlong := le_units hnum hden
  rw [(ofRatio_units negative hnum hden).1, limit]
  generalize units num den = whole at *
  generalize unit num den = power at *
  have hpower : (0 : ℚ) < 2 ^ power := zpow_pos (by norm_num) _
  have hcast : (whole : ℚ) ≤ 2 ^ 53 := by exact_mod_cast hle
  rcases lt_trichotomy power maxExponent with hlow | rfl | hhigh
  · -- smaller units: both hold
    have hhalf : (2 : ℚ) ^ power * 2 ≤ 2 ^ maxExponent := by
      rw [← zpow_add_one₀ (by norm_num)]
      exact zpow_le_zpow_right₀ (by norm_num) hlow
    refine iff_of_true ?_ ?_
    · calc (whole * 2 ^ power : ℚ) ≤ 2 ^ 53 * 2 ^ power :=
            mul_le_mul_of_nonneg_right hcast hpower.le
        _ < 2 ^ 53 * 2 ^ maxExponent := by linarith
    · calc (num / den : ℚ) < 2 ^ 53 * 2 ^ power := hfits.short
        _ ≤ (2 ^ 53 - 1 / 2) * 2 ^ maxExponent := by linarith
  · -- the largest units: rounding to 2 ^ 53 of them is too much
    have hless := hnearest.lt_iff (show Even (2 ^ 53 : Int) by decide)
    rw [← Int.cast_lt (R := ℚ), Int.cast_natCast, Int.cast_pow, Int.cast_ofNat] at hless
    rw [mul_lt_mul_iff_left₀ hmaxPower, ← div_lt_iff₀ hmaxPower, hless]
  · -- larger units: neither holds
    have hleast : power ≠ minExponent :=
      (lt_trans (show minExponent < maxExponent by decide) hhigh).ne'
    have hmany : (2 ^ 52 : ℚ) ≤ whole := by exact_mod_cast hlong hleast
    refine iff_of_false (not_lt_of_ge ?_) (not_lt_of_ge ?_)
    · exact (two_pow_mul_maxExponent_le hhigh).trans
        (mul_le_mul_of_nonneg_right hmany hpower.le)
    · have hlarge := hfits.long.resolve_left hleast
      have hbound := two_pow_mul_maxExponent_le hhigh
      linarith

/-! ## Rounded numbers -/

/-- A number has a rational value just when it is finite. -/
theorem isFinite_iff : x.isFinite = true ↔ ∃ v : ℚ, x.value = ((v : ℚ) : WithTop ℚ) := by
  cases x with
  | finite negative mantissa exponent =>
    exact iff_of_true rfl ⟨_, value_finite negative mantissa exponent⟩
  | infinite negative =>
    refine iff_of_false nofun ?_
    rintro ⟨v, hv⟩
    cases negative <;> cases hv
  | nan =>
    refine iff_of_false nofun ?_
    rintro ⟨v, hv⟩
    cases hv

theorem value_unique {v w : ℚ} (hv : x.value = ((v : ℚ) : WithTop ℚ))
    (hw : x.value = ((w : ℚ) : WithTop ℚ)) : v = w :=
  WithTop.coe_inj.mp (WithBot.coe_inj.mp (hv.symm.trans hw))

/-- A binary number that a rational one is rounded to. -/
structure RoundsTo (q : ℚ) (x : Binary64) : Prop where
  /-- It is finite just when the rational one lies below the limit. -/
  finite : x.isFinite = true ↔ |q| < limit
  /-- If it is finite, it is off by a tiny part at most. -/
  near : ∀ {v : ℚ}, x.value = ((v : ℚ) : WithTop ℚ) → |v - q| ≤ (|q| + 1) / 2 ^ 53
  /-- If it is finite, it is not off where the rational one is a short mantissa at some power. -/
  exact : ∀ {v : ℚ}, x.value = ((v : ℚ) : WithTop ℚ) → ∀ {mantissa : Nat} {exponent : Int},
    mantissa < 2 ^ 53 → minExponent ≤ exponent → |q| = mantissa * 2 ^ exponent → v = q

theorem abs_signed (negative : Bool) (q : ℚ) : |signed negative q| = |q| := by
  rw [signed]
  split
  · exact abs_neg q
  · rfl

theorem signed_sub_signed (negative : Bool) (q r : ℚ) :
    signed negative q - signed negative r = signed negative (q - r) := by
  rw [signed, signed, signed]
  split
  · ring
  · rfl

/-- A whole number of units is off by half of one at most, which is a tiny part. -/
theorem abs_units_sub_le (hnum : num ≠ 0) (hden : den ≠ 0) :
    |(units num den * 2 ^ unit num den - num / den : ℚ)| ≤ (num / den + 1) / 2 ^ 53 := by
  have hfits := fits_unit hnum hden
  have hnear := (nearestEven_units num hden).near
  have hratio : (0 : ℚ) ≤ num / den := by positivity
  generalize units num den = whole at *
  generalize unit num den = power at *
  generalize (num / den : ℚ) = q at *
  have hpower : (0 : ℚ) < 2 ^ power := zpow_pos (by norm_num) _
  have hhalf : |(whole * 2 ^ power - q : ℚ)| ≤ 2 ^ power / 2 := by
    rw [show (whole * 2 ^ power - q : ℚ) = -(q / 2 ^ power - whole) * 2 ^ power by
      rw [neg_mul, sub_mul, div_mul_cancel₀ _ hpower.ne']
      ring, abs_mul, abs_neg, abs_of_pos hpower]
    rw [Int.cast_natCast] at hnear
    linarith [mul_le_mul_of_nonneg_right hnear hpower.le]
  refine hhalf.trans ?_
  rcases hfits.long with rfl | hlong
  · have htiny : (2 : ℚ) ^ minExponent ≤ 2 ^ (-53 : Int) :=
      zpow_le_zpow_right₀ (by norm_num) (by decide)
    rw [zpow_neg, zpow_ofNat] at htiny
    rw [le_div_iff₀ (by positivity)]
    have hone : (2 : ℚ) ^ minExponent * 2 ^ 53 ≤ 1 := by
      rwa [← le_div_iff₀ (by positivity), one_div]
    linarith
  · rw [le_div_iff₀ (by positivity)]
    linarith

/-- **The binary number that a ratio is rounded to.** -/
theorem roundsTo_ofRatio (negative : Bool) (num : Nat) (hden : den ≠ 0) :
    RoundsTo (signed negative (num / den)) (ofRatio negative num den) := by
  have habs : |signed negative (num / den : ℚ)| = num / den := by
    rw [abs_signed, abs_of_nonneg (by positivity)]
  refine ⟨?_, fun {v} hv => ?_, fun {v} hv {mantissa exponent} hshort hleast h => ?_⟩
  · rw [habs]
    exact isFinite_ofRatio_iff negative num hden
  · rw [habs]
    rcases eq_or_ne num 0 with rfl | hnum
    · obtain rfl := value_unique hv (value_finite negative 0 0)
      rw [Nat.cast_zero, zero_mul, zero_div, sub_self, abs_zero]
      positivity
    · have hunits := (ofRatio_units negative hnum hden).2 (isFinite_iff.mpr ⟨v, hv⟩)
      obtain rfl := value_unique hv hunits
      rw [signed_sub_signed, abs_signed]
      exact abs_units_sub_le hnum hden
  · rw [habs] at h
    exact value_unique hv
      ((ofRatio_of_exact negative hden hshort hleast h).2 (isFinite_iff.mpr ⟨v, hv⟩))

/-- A finite number is rounded to the nearest whole one. -/
theorem exists_round? {v : ℚ} (hv : x.value = ((v : ℚ) : WithTop ℚ)) :
    ∃ whole : Int, x.round? = some whole ∧ NearestEven v whole := by
  cases x with
  | nan => cases hv
  | infinite negative => cases negative <;> cases hv
  | finite negative mantissa exponent =>
    have hden : 0 < (magnitude mantissa exponent).2 := signedRatio_pos negative mantissa exponent
    have hnearest := nearestEven_roundDiv (magnitude mantissa exponent).1 hden
    obtain rfl := value_unique hv (value_finite negative mantissa exponent)
    rw [magnitude_div] at hnearest
    refine ⟨_, rfl, ?_⟩
    cases negative with
    | false => exact hnearest
    | true => exact hnearest.neg

theorem round?_eq_none (h : x.isFinite = false) : x.round? = none := by
  cases x with
  | finite negative mantissa exponent => cases h
  | _ => rfl

/-- **A sum of finite numbers is the exact sum, rounded.** -/
theorem roundsTo_add {q r : ℚ} (hq : x.value = ((q : ℚ) : WithTop ℚ))
    (hr : y.value = ((r : ℚ) : WithTop ℚ)) : RoundsTo (q + r) (add x y) := by
  match x, y, isFinite_iff.mpr ⟨q, hq⟩, isFinite_iff.mpr ⟨r, hr⟩ with
  | finite s m e, finite t n f, _, _ =>
    have hb : (0 : ℚ) < (signedRatio s m e).2 := by exact_mod_cast signedRatio_pos s m e
    have hd : (0 : ℚ) < (signedRatio t n f).2 := by exact_mod_cast signedRatio_pos t n f
    obtain rfl := WithTop.coe_inj.mp (WithBot.coe_inj.mp hq)
    obtain rfl := WithTop.coe_inj.mp (WithBot.coe_inj.mp hr)
    rw [add]
    generalize signedRatio s m e = first at *
    generalize signedRatio t n f = second at *
    obtain ⟨a, b⟩ := first
    obtain ⟨c, d⟩ := second
    dsimp only at hb hd ⊢
    have hsum : (a / b + c / d : ℚ) = ((a * d + c * b : Int) : ℚ) / (b * d : Nat) := by
      rw [div_add_div _ _ hb.ne' hd.ne', mul_comm (b : ℚ) c]
      push_cast
      rfl
    have hden : b * d ≠ 0 := by exact_mod_cast (mul_pos hb hd).ne'
    rw [hsum]
    generalize a * d + c * b = sum at *
    split
    · rename_i hzero
      have hrounds := roundsTo_ofRatio (s && t) 0 hden
      rw [beq_iff_eq.mp hzero, Int.cast_zero, zero_div]
      rwa [Nat.cast_zero, zero_div, show signed (s && t) 0 = 0 by simp [signed]] at hrounds
    · have hrounds := roundsTo_ofRatio (sum < 0) sum.natAbs hden
      have habs : signed (decide (sum < 0)) (sum.natAbs / (b * d : Nat)) =
          (sum : ℚ) / (b * d : Nat) := by
        rw [Nat.cast_natAbs, Int.cast_abs, signed]
        split
        · rename_i hneg
          have hcast : (sum : ℚ) < 0 := by exact_mod_cast of_decide_eq_true hneg
          rw [abs_of_neg hcast, neg_div, neg_neg]
        · rename_i hpos
          have hcast : (0 : ℚ) ≤ sum := by exact_mod_cast not_lt.mp (mt decide_eq_true hpos)
          rw [abs_of_nonneg hcast]
      rwa [habs] at hrounds

end Binary64

end ContractLens
