import ContractLens.Proofs.Number.Order
import Mathlib.Algebra.Order.Field.Power
import Mathlib.Tactic.Linarith
import Mathlib.Tactic.NormNum
import Mathlib.Tactic.Positivity
import Mathlib.Tactic.Ring
/-!
# Exact rounding

A ratio is rounded to a whole number of units. Its unit is the power of two that leaves a mantissa
of 53 digits, or the least power there is (`fits_unit`). So a ratio that is a short mantissa at any
power is a whole number of units already, and rounding changes nothing unless the ratio is too large
(`ofRatio_of_exact`). Twice a number is such a ratio: what comes of doubling again and again is
exact as long as it is finite (`value_scale_two_pow`).
-/

namespace ContractLens.Binary64

variable {num den : Nat} {negative : Bool}

/-! ## The unit -/

/-- The power of two that a ratio is rounded at. -/
def unit (num den : Nat) : Int :=
  let guess : Int := (num.log2 : Int) - den.log2 - 53
  let (n, d) := scaled num den guess
  max (if Nat.pow 2 53 ≤ n / d then guess + 1 else guess) minExponent

/-- A power of two leaves a mantissa that is neither too long nor shorter than it has to be. -/
structure Fits (q : ℚ) (exponent : Int) : Prop where
  /-- The mantissa has 53 digits at most. -/
  short : q < 2 ^ 53 * 2 ^ exponent
  /-- The power is one that numbers have. -/
  least : minExponent ≤ exponent
  /-- The mantissa has 53 digits unless there is no lower power. -/
  long : exponent = minExponent ∨ 2 ^ 52 * 2 ^ exponent ≤ q

theorem scaled_pos (num : Nat) (hden : 0 < den) (exponent : Int) :
    0 < (scaled num den exponent).2 := by
  cases exponent with
  | ofNat e => exact Nat.mul_pos hden (Nat.pow_pos (by decide))
  | negSucc e => exact hden

theorem scaled_div (num den : Nat) (exponent : Int) :
    ((scaled num den exponent).1 : ℚ) / (scaled num den exponent).2 = num / den / 2 ^ exponent := by
  cases exponent with
  | ofNat e =>
    rw [scaled, Nat.pow_eq, Nat.cast_mul, Nat.cast_pow, Nat.cast_ofNat, Int.ofNat_eq_natCast,
      zpow_natCast, div_div]
  | negSucc e =>
    rw [scaled, Nat.pow_eq, Nat.cast_mul, Nat.cast_pow, Nat.cast_ofNat, zpow_negSucc,
      div_inv_eq_mul, div_mul_eq_mul_div]

theorem two_pow_mul_zpow_le (size : Nat) {low high : Int} (h : low ≤ high) :
    (2 : ℚ) ^ size * 2 ^ low ≤ 2 ^ size * 2 ^ high :=
  mul_le_mul_of_nonneg_left (zpow_le_zpow_right₀ (by norm_num) h) (by positivity)

/-- What lies beyond all finite numbers at the greatest power is long at every greater one. -/
theorem two_pow_mul_maxExponent_le {exponent : Int} (h : maxExponent < exponent) :
    (2 : ℚ) ^ 53 * 2 ^ maxExponent ≤ 2 ^ 52 * 2 ^ exponent :=
  calc (2 : ℚ) ^ 53 * 2 ^ maxExponent = 2 ^ 52 * 2 ^ (maxExponent + 1) := by
        rw [zpow_add_one₀ (by norm_num)]
        ring
    _ ≤ 2 ^ 52 * 2 ^ exponent := two_pow_mul_zpow_le 52 h

/-- A number of units is reached by the whole quotient just when it is reached by the ratio. -/
theorem le_scaled_div_iff (num : Nat) (hden : 0 < den) (exponent : Int) (bound : Nat) :
    bound ≤ (scaled num den exponent).1 / (scaled num den exponent).2 ↔
      (bound : ℚ) * 2 ^ exponent ≤ num / den := by
  have hpos := scaled_pos num hden exponent
  have hcast : (0 : ℚ) < (scaled num den exponent).2 := by exact_mod_cast hpos
  rw [Nat.le_div_iff_mul_le hpos, ← le_div_iff₀ (zpow_pos (by norm_num) exponent), ← scaled_div,
    le_div_iff₀ hcast]
  norm_cast

/-- A ratio lies between two powers that the lengths of its parts tell. -/
theorem div_bounds (hnum : num ≠ 0) (hden : den ≠ 0) :
    2 ^ ((num.log2 : Int) - den.log2 - 1) < (num / den : ℚ) ∧
      (num / den : ℚ) < 2 ^ ((num.log2 : Int) - den.log2 + 1) := by
  have hpos : (0 : ℚ) < den := by exact_mod_cast Nat.pos_of_ne_zero hden
  have htwo : (2 : ℚ) ≠ 0 := by norm_num
  have hnumLow : (2 : ℚ) ^ num.log2 ≤ num := by exact_mod_cast Nat.log2_self_le hnum
  have hnumHigh : (num : ℚ) < 2 ^ num.log2 * 2 := by exact_mod_cast Nat.lt_log2_self
  have hdenLow : (2 : ℚ) ^ den.log2 ≤ den := by exact_mod_cast Nat.log2_self_le hden
  have hdenHigh : (den : ℚ) < 2 ^ den.log2 * 2 := by exact_mod_cast Nat.lt_log2_self
  have hlow : (0 : ℚ) < 2 ^ den.log2 := by positivity
  have hlong : (0 : ℚ) < 2 ^ num.log2 := by positivity
  constructor
  · rw [lt_div_iff₀ hpos, zpow_sub₀ htwo, zpow_sub₀ htwo, zpow_natCast, zpow_natCast, zpow_one,
      div_div, div_mul_eq_mul_div, div_lt_iff₀ (by positivity)]
    nlinarith
  · rw [div_lt_iff₀ hpos, zpow_add₀ htwo, zpow_sub₀ htwo, zpow_natCast, zpow_natCast, zpow_one,
      div_mul_eq_mul_div, div_mul_eq_mul_div, lt_div_iff₀ hlow]
    nlinarith

/-- **The unit of a ratio fits it.** -/
theorem fits_unit (hnum : num ≠ 0) (hden : den ≠ 0) : Fits (num / den) (unit num den) := by
  have hpos := Nat.pos_of_ne_zero hden
  have htwo : (2 : ℚ) ≠ 0 := by norm_num
  obtain ⟨hlow, hhigh⟩ := div_bounds hnum hden
  rw [unit]
  -- the first guess is the right power or the one below it
  generalize hguess : (num.log2 : Int) - den.log2 - 53 = guess
  rw [show (num.log2 : Int) - den.log2 - 1 = 52 + guess by omega, zpow_add₀ htwo] at hlow
  rw [show (num.log2 : Int) - den.log2 + 1 = 53 + (guess + 1) by omega, zpow_add₀ htwo] at hhigh
  dsimp only
  generalize hnormal : (if Nat.pow 2 53 ≤ (scaled num den guess).1 / (scaled num den guess).2 then
    guess + 1 else guess) = normal
  have hreached := le_scaled_div_iff num hpos guess (Nat.pow 2 53)
  rw [Nat.pow_eq, Nat.cast_pow, Nat.cast_ofNat] at hreached
  have hfits : (num / den : ℚ) < 2 ^ 53 * 2 ^ normal ∧ 2 ^ 52 * 2 ^ normal ≤ (num / den : ℚ) := by
    split at hnormal
    · rename_i hlong
      rw [← hnormal]
      refine ⟨hhigh, le_of_eq_of_le ?_ (hreached.mp hlong)⟩
      rw [zpow_add_one₀ htwo]
      ring
    · rename_i hshort
      rw [← hnormal]
      exact ⟨lt_of_not_ge (mt hreached.mpr hshort), hlow.le⟩
  rcases le_total normal minExponent with hle | hle
  · rw [max_eq_right hle]
    exact ⟨hfits.1.trans_le (two_pow_mul_zpow_le 53 hle), le_rfl, .inl rfl⟩
  · rw [max_eq_left hle]
    exact ⟨hfits.1, hle, .inr hfits.2⟩

/-! ## Rounding -/

theorem roundDiv_mul (whole : Nat) {den : Nat} (hden : 0 < den) :
    roundDiv (whole * den) den = whole := by
  rw [roundDiv, Nat.mul_mod_left, Nat.mul_div_cancel whole hden]
  exact if_pos hden

/-- A ratio is rounded to a whole number of units; a mantissa that gets too long is halved. -/
theorem ofRatio_eq (hnum : num ≠ 0) : ofRatio negative num den =
    (let mantissa := roundDiv (scaled num den (unit num den)).1 (scaled num den (unit num den)).2
    let (mantissa, exponent) :=
      if mantissa == Nat.pow 2 53 then (Nat.pow 2 52, unit num den + 1)
      else (mantissa, unit num den)
    if maxExponent < exponent then infinite negative
    else if mantissa == 0 then finite negative 0 0
    else finite negative mantissa exponent) := by
  rw [ofRatio, if_neg (mt beq_iff_eq.mp hnum)]
  rfl

/-- A ratio that is a short whole number of units is kept by rounding. -/
theorem ofRatio_of_units {whole : Nat} (hnum : num ≠ 0) (hden : den ≠ 0) (hwhole : whole ≠ 0)
    (hshort : whole < 2 ^ 53) (h : (num / den : ℚ) = whole * 2 ^ unit num den) :
    ofRatio negative num den = if maxExponent < unit num den then infinite negative
      else finite negative whole (unit num den) := by
  have hpos := scaled_pos num (Nat.pos_of_ne_zero hden) (unit num den)
  have hcast : ((scaled num den (unit num den)).2 : ℚ) ≠ 0 := by exact_mod_cast hpos.ne'
  have hunits : (scaled num den (unit num den)).1 = whole * (scaled num den (unit num den)).2 := by
    have hdiv := scaled_div num den (unit num den)
    rw [h, mul_div_cancel_right₀ _ (zpow_ne_zero _ (by norm_num)), div_eq_iff hcast] at hdiv
    exact_mod_cast hdiv
  have hmantissa : roundDiv (scaled num den (unit num den)).1
      (scaled num den (unit num den)).2 = whole := by
    rw [hunits, roundDiv_mul whole hpos]
  have hfull : (whole == Nat.pow 2 53) = false := beq_eq_false_iff_ne.mpr (Nat.ne_of_lt hshort)
  have hsome : (whole == 0) = false := beq_eq_false_iff_ne.mpr hwhole
  rw [ofRatio_eq hnum, hmantissa]
  simp only [hfull, hsome, Bool.false_eq_true, if_false]

/-- A short mantissa at some power is a short whole number of units. -/
theorem exists_units {mantissa : Nat} {exponent : Int} (hnum : num ≠ 0) (hden : den ≠ 0)
    (hmantissa : mantissa ≠ 0) (hshort : mantissa < 2 ^ 53) (hleast : minExponent ≤ exponent)
    (h : (num / den : ℚ) = mantissa * 2 ^ exponent) :
    ∃ whole : Nat, whole ≠ 0 ∧ whole < 2 ^ 53 ∧
      (num / den : ℚ) = whole * 2 ^ unit num den := by
  have htwo : (2 : ℚ) ≠ 0 := by norm_num
  have hpower : (0 : ℚ) < 2 ^ exponent := zpow_pos (by norm_num) exponent
  have hfits := fits_unit hnum hden
  generalize unit num den = power at hfits
  -- a greater unit would leave less than half of the mantissa, which is too short for one
  have hle : power ≤ exponent := by
    rcases hfits.long with rfl | hlong
    · exact hleast
    · have hlt : (2 : ℚ) ^ power < 2 ^ (exponent + 1) := by
        have hcast : (mantissa : ℚ) < 2 ^ 53 := by exact_mod_cast hshort
        rw [h] at hlong
        rw [zpow_add_one₀ htwo]
        nlinarith
      exact Int.le_of_lt_add_one ((zpow_lt_zpow_iff_right₀ (by norm_num)).mp hlt)
  obtain ⟨more, rfl⟩ := Int.le.dest hle
  have hunits : (num / den : ℚ) = (mantissa * 2 ^ more : Nat) * 2 ^ power := by
    rw [h, zpow_add₀ htwo, zpow_natCast]
    push_cast
    ring
  refine ⟨mantissa * 2 ^ more, Nat.mul_ne_zero hmantissa (by positivity), ?_, hunits⟩
  have hlt := hfits.short
  rw [hunits, mul_lt_mul_iff_left₀ (zpow_pos (by norm_num) power)] at hlt
  exact_mod_cast hlt

/-! ## Values -/

/-- A number that has a place among those of 64 bits. -/
def Representable : Binary64 → Prop
  | finite _ mantissa exponent =>
    mantissa < 2 ^ 53 ∧ minExponent ≤ exponent ∧ exponent ≤ maxExponent
  | _ => True

/-- The number with a sign. -/
def signed (negative : Bool) (q : ℚ) : ℚ := if negative then -q else q

theorem magnitude_div (mantissa : Nat) (exponent : Int) :
    ((magnitude mantissa exponent).1 : ℚ) / (magnitude mantissa exponent).2 =
      mantissa * 2 ^ exponent := by
  cases exponent with
  | ofNat e =>
    rw [magnitude, Nat.pow_eq, Nat.cast_mul, Nat.cast_pow, Nat.cast_ofNat, Nat.cast_one, div_one,
      Int.ofNat_eq_natCast, zpow_natCast]
  | negSucc e =>
    rw [magnitude, Nat.pow_eq, Nat.cast_pow, Nat.cast_ofNat, zpow_negSucc, div_eq_mul_inv]

theorem value_finite (negative : Bool) (mantissa : Nat) (exponent : Int) :
    (finite negative mantissa exponent).value =
      ((signed negative (mantissa * 2 ^ exponent) : ℚ) : WithTop ℚ) := by
  rw [value, signedRatio]
  dsimp only
  rw [signed, ← magnitude_div]
  cases negative
  · rw [if_neg Bool.false_ne_true, if_neg Bool.false_ne_true, Int.cast_natCast]
  · rw [if_pos rfl, if_pos rfl, Int.cast_neg, Int.cast_natCast, neg_div]

/-- **A short mantissa at some power is kept by rounding**, unless it is too large. -/
theorem ofRatio_of_exact (negative : Bool) {mantissa : Nat} {exponent : Int} (hden : den ≠ 0)
    (hshort : mantissa < 2 ^ 53) (hleast : minExponent ≤ exponent)
    (h : (num / den : ℚ) = mantissa * 2 ^ exponent) :
    ((ofRatio negative num den).isFinite = true ↔ (num / den : ℚ) < 2 ^ 53 * 2 ^ maxExponent) ∧
      ((ofRatio negative num den).isFinite = true →
        (ofRatio negative num den).value = ((signed negative (num / den) : ℚ) : WithTop ℚ)) := by
  rcases eq_or_ne num 0 with rfl | hnum
  · rw [Nat.cast_zero, zero_div]
    refine ⟨iff_of_true rfl (by positivity), fun _ => ?_⟩
    rw [show ofRatio negative 0 den = finite negative 0 0 from rfl, value_finite, Nat.cast_zero,
      zero_mul]
  have hmantissa : mantissa ≠ 0 := by
    rintro rfl
    rw [Nat.cast_zero, zero_mul, div_eq_zero_iff, Nat.cast_eq_zero, Nat.cast_eq_zero] at h
    exact h.elim hnum hden
  obtain ⟨whole, hwhole, hless, hunits⟩ := exists_units hnum hden hmantissa hshort hleast h
  have hfits := fits_unit hnum hden
  rw [ofRatio_of_units hnum hden hwhole hless hunits]
  split
  · rename_i hlarge
    refine ⟨iff_of_false nofun (not_lt_of_ge ?_), nofun⟩
    have hlong := hfits.long.resolve_left fun hleast => by
      rw [hleast] at hlarge
      exact absurd hlarge (by decide)
    exact (two_pow_mul_maxExponent_le hlarge).trans hlong
  · rename_i hsmall
    refine ⟨iff_of_true rfl ?_, fun _ => ?_⟩
    · calc (num / den : ℚ) < 2 ^ 53 * 2 ^ unit num den := hfits.short
        _ ≤ 2 ^ 53 * 2 ^ maxExponent := two_pow_mul_zpow_le 53 (le_of_not_gt hsmall)
    · rw [value_finite, hunits]

/-- A power of two is a binary number just when it lies below the 1024th. -/
theorem isFinite_ofInt_two_pow (power : Nat) :
    (ofInt (2 ^ power)).isFinite = true ↔ power < 1024 := by
  have hcast : ofInt (2 ^ power) = ofRatio false (2 ^ power) 1 := by
    rw [ofInt, decide_eq_false (not_lt_of_ge (by positivity)), Int.natAbs_pow]
    rfl
  have hratio : ((2 ^ power : Nat) / (1 : Nat) : ℚ) = (1 : Nat) * 2 ^ (power : Int) := by
    rw [Nat.cast_one, div_one, one_mul, zpow_natCast, Nat.cast_pow, Nat.cast_ofNat]
  have hlimit : (2 : ℚ) ^ 53 * 2 ^ maxExponent = 2 ^ (1024 : Int) := by
    rw [← zpow_ofNat, ← zpow_add₀ (by norm_num)]
    rfl
  have hleast : minExponent ≤ (power : Int) := le_trans (by decide) (Int.natCast_nonneg power)
  rw [hcast, (ofRatio_of_exact false one_ne_zero (by decide) hleast hratio).1, hratio, hlimit,
    Nat.cast_one, one_mul, zpow_lt_zpow_iff_right₀ (by norm_num)]
  exact Nat.cast_lt_ofNat

/-- **Doubling is exact**: as long as a number that is doubled again and again stays finite, it is
the first number times a power of two. -/
theorem value_scale_two_pow {x : Binary64} (hx : x.Representable) {times : Nat}
    (hfinite : (x.scale (2 ^ times)).isFinite = true) :
    ∃ q : ℚ, x.value = ((q : ℚ) : WithTop ℚ) ∧ ∀ i ≤ times,
      (x.scale (2 ^ i)).value = ((q * 2 ^ i : ℚ) : WithTop ℚ) := by
  cases x with
  | nan => cases hfinite
  | infinite negative =>
    rw [scale, if_neg (by simp)] at hfinite
    cases hfinite
  | finite negative mantissa exponent =>
    obtain ⟨hshort, hleast, -⟩ := hx
    refine ⟨_, value_finite negative mantissa exponent, fun i hi => ?_⟩
    have hden : (magnitude mantissa exponent).2 ≠ 0 :=
      (signedRatio_pos negative mantissa exponent).ne'
    have hratio (i : Nat) : (((magnitude mantissa exponent).1 * 2 ^ i : Nat) /
        (magnitude mantissa exponent).2 : ℚ) = mantissa * 2 ^ (exponent + i) := by
      rw [Nat.cast_mul, mul_div_right_comm, magnitude_div, Nat.cast_pow, Nat.cast_ofNat, mul_assoc,
        zpow_add₀ (by norm_num), zpow_natCast]
    have hexact (i : Nat) := ofRatio_of_exact negative hden hshort
      (hleast.trans (Int.le_add_of_nonneg_right (Int.natCast_nonneg i))) (hratio i)
    have hsmall := (hexact times).1.mp hfinite
    have hvalue := (hexact i).2 ((hexact i).1.mpr (lt_of_le_of_lt ?_ hsmall))
    · rw [scale]
      refine hvalue.trans ?_
      rw [hratio, zpow_add₀ (by norm_num), zpow_natCast, signed, signed]
      split <;> ring_nf
    · rw [hratio, hratio]
      gcongr
      norm_num

end ContractLens.Binary64
