import ContractLens.Proofs.Bytecode.Coherence
import ContractLens.Proofs.Bytecode.Size
import ContractLens.Proofs.Number.Nearest
/-!
# The score for complexity

The score is added and rounded in binary floating point, and is the exact one all the same. A large
sum stays above the upper end of the range. A small one is off by less than a hundredth, which can
only matter half way between two whole numbers; and there nothing was rounded before
(`clamp_eq_clamp`). The score grows with the instructions and with the functions.

There is no score where one of the two parts is beyond all binary numbers; and none either where
only their sum is, although the range is cut off far below (`score_overfull`).
-/

namespace ContractLens

/-! ## Counted instructions -/

namespace Opcode

theorem foldl_size (counts : Table Int) (start : Int) :
    counts.foldl (fun size entry => size + entry.2) start = start + (counts.map (·.2)).sum := by
  induction counts generalizing start with
  | nil => exact (add_zero start).symm
  | cons entry counts ih => rw [List.foldl_cons, ih, List.map_cons, List.sum_cons, add_assoc]

theorem sum_insert (counts : Table Int) (name : String) :
    ((Table.insert counts name ((Table.get? counts name).getD 0 + 1)).map (·.2)).sum =
      (counts.map (·.2)).sum + 1 := by
  induction counts with
  | nil => rfl
  | cons entry counts ih =>
    obtain ⟨known, old⟩ := entry
    rw [Table.insert]
    by_cases hknown : known = name
    · have hget : Table.get? ((known, old) :: counts) name = some old := by
        simp [Table.get?, hknown]
      rw [hget, if_pos (beq_iff_eq.mpr hknown)]
      simp only [List.map_cons, List.sum_cons, Option.getD_some]
      omega
    · have hget : Table.get? ((known, old) :: counts) name = Table.get? counts name := by
        simp [Table.get?, hknown]
      rw [hget, if_neg (mt beq_iff_eq.mp hknown)]
      simp only [List.map_cons, List.sum_cons, ih]
      omega

/-- **The counts add up to the number of names.** -/
theorem sum_tally (names : List String) : ((tally names).map (·.2)).sum = names.length := by
  suffices h : ∀ counts : Table Int, ((names.foldl (fun counts name =>
      Table.insert counts name ((Table.get? counts name).getD 0 + 1)) counts).map (·.2)).sum =
        (counts.map (·.2)).sum + names.length by
    rw [tally, h [], List.map_nil, List.sum_nil, zero_add]
  induction names with
  | nil => exact fun counts => (add_zero _).symm
  | cons name names ih =>
    intro counts
    rw [List.foldl_cons, ih, sum_insert, List.length_cons]
    omega

end Opcode

namespace Complexity

open Binary64

variable {n s : Nat} {v w : ℚ} {whole rounded : Int}

/-! ## The parts of a score -/

/-- The hundredth part of so many instructions. -/
def share (instructions : Nat) : Binary64 := ofRatio false instructions 100

/-- The points for so many functions. -/
def points (functions : Nat) : Binary64 := ofRatio false (functions * 5) 1

theorem roundsTo_share (n : Nat) : RoundsTo (n / 100) (share n) := by
  have h := roundsTo_ofRatio false n (show 100 ≠ 0 by decide)
  rwa [signed, if_neg Bool.false_ne_true, Nat.cast_ofNat] at h

theorem roundsTo_points (s : Nat) : RoundsTo (5 * s) (points s) := by
  have h := roundsTo_ofRatio false (s * 5) (show 1 ≠ 0 by decide)
  rwa [signed, if_neg Bool.false_ne_true, Nat.cast_one, div_one, Nat.cast_mul, Nat.cast_ofNat,
    mul_comm] at h

theorem abs_share_sub_le (hv : (share n).value = ((v : ℚ) : WithTop ℚ)) :
    |v - n / 100| ≤ (n / 100 + 1) / 2 ^ 53 := by
  have hnear := (roundsTo_share n).near hv
  rwa [abs_of_nonneg (show (0 : ℚ) ≤ n / 100 by positivity)] at hnear

theorem abs_points_sub_le (hw : (points s).value = ((w : ℚ) : WithTop ℚ)) :
    |w - 5 * s| ≤ (5 * s + 1) / 2 ^ 53 := by
  have hnear := (roundsTo_points s).near hw
  rwa [abs_of_nonneg (show (0 : ℚ) ≤ 5 * s by positivity)] at hnear

theorem score_eq (n s : Nat) : score n s =
    if (share n).isFinite then
      if (points s).isFinite then
        match ((share n).add (points s)).round? with
        | some rounded => .ok (clamp rounded)
        | none => .error .sum
      else .error .points
    else .error .quotient := by
  have hshare : ofRatio (decide ((n : Int) < 0)) (n : Int).natAbs 100 = share n := by
    rw [decide_eq_false (by omega), Int.natAbs_natCast, share]
  have hpoints : ofInt (s * 5 : Int) = points s := by
    rw [ofInt, decide_eq_false (by omega), points]
    congr 1
  rw [score, hshare, hpoints]
  cases share n with
  | finite negative mantissa exponent =>
    cases points s with
    | finite => rfl
    | _ => rfl
  | _ => rfl

/-! ## The exact score -/

/-- A number is the exact score: a point for every hundred instructions and five for every function,
rounded to the nearest whole number, a half to the even one, and cut to the range. -/
def Exact (instructions functions : Nat) (score : Int) : Prop :=
  ∃ whole, NearestEven ((instructions + 500 * functions) / 100) whole ∧
    score = max 0 (min 100 whole)

/-- **The exact score grows with the instructions and with the functions.** -/
theorem exact_le_exact {m t : Nat} {score other : Int} (h : Exact n s score)
    (hother : Exact m t other) (hm : n ≤ m) (ht : s ≤ t) : score ≤ other := by
  obtain ⟨whole, hwhole, rfl⟩ := h
  obtain ⟨more, hmore, rfl⟩ := hother
  have hle := hwhole.le_of_le hmore (by gcongr)
  omega

/-! ## Rounding makes no difference -/

theorem clamp_of_large {q : ℚ} (h : NearestEven q whole) (hq : 100 ≤ q) : clamp whole = 100 := by
  have hle : (100 : Int) ≤ whole := NearestEven.le_of_le (.intCast 100) h (by exact_mod_cast hq)
  rw [clamp]
  omega

/-- Hundredths that are no halves are at least a hundredth off the middle of two whole numbers. -/
theorem dvd_or_le {k : Nat} (h : NearestEven (k / 100) whole) :
    50 ∣ k ∨ |(k / 100 - whole : ℚ)| ≤ 49 / 100 := by
  have hdist : |(k / 100 - whole : ℚ)| = (|(k - 100 * whole : Int)| : Int) / 100 := by
    rw [show (k / 100 - whole : ℚ) = ((k - 100 * whole : Int) : ℚ) / 100 by push_cast; ring,
      abs_div, Int.cast_abs]
    norm_num
  have hle : |(k - 100 * whole : Int)| ≤ 50 := by
    have hnear := h.near
    rw [hdist, div_le_iff₀ (by norm_num)] at hnear
    have hcast : ((|(k - 100 * whole : Int)| : Int) : ℚ) ≤ 50 := by linarith
    exact_mod_cast hcast
  rcases hle.eq_or_lt with heq | hlt
  · left
    rcases abs_choice (k - 100 * whole : Int) with habs | habs <;> omega
  · right
    have hcast : ((|(k - 100 * whole : Int)| : Int) : ℚ) ≤ 49 := by
      exact_mod_cast Int.le_of_lt_add_one hlt
    rw [hdist]
    linarith

/-- **Rounding in between makes no difference to the score.** -/
theorem clamp_eq_clamp {r : ℚ} (hv : (share n).value = ((v : ℚ) : WithTop ℚ))
    (hw : (points s).value = ((w : ℚ) : WithTop ℚ))
    (hr : ((share n).add (points s)).value = ((r : ℚ) : WithTop ℚ))
    (hrounded : NearestEven r rounded)
    (h : NearestEven ((n + 500 * s) / 100) whole) : clamp rounded = clamp whole := by
  have hsum := roundsTo_add hv hw
  have hshare := abs_le.mp (abs_share_sub_le hv)
  have hpoints := abs_le.mp (abs_points_sub_le hw)
  have hnear := hsum.near hr
  have htotal : ((n + 500 * s) / 100 : ℚ) = n / 100 + 5 * s := by ring
  have hn : (0 : ℚ) ≤ n / 100 := by positivity
  have hs : (0 : ℚ) ≤ 5 * s := by positivity
  rcases le_or_gt 101 (n / 100 + 5 * s : ℚ) with hlarge | hsmall
  · -- a large sum stays above the upper end of the range
    have hpos : 0 ≤ v + w := by linarith
    rw [abs_of_nonneg hpos, abs_le] at hnear
    rw [clamp_of_large hrounded (by linarith), clamp_of_large h (by linarith)]
  have hbound : (n + 500 * s : ℚ) < 10100 := by linarith
  have hless : n + 500 * s < 10100 := by exact_mod_cast hbound
  rw [show (n + 500 * s : ℚ) = ((n + 500 * s : Nat) : ℚ) by push_cast; rfl] at h
  rcases dvd_or_le h with hdvd | hle
  · -- halves are not rounded at all
    obtain ⟨m, rfl⟩ : 50 ∣ n := by omega
    have hv' : v = (50 * m : Nat) / 100 := (roundsTo_share _).exact hv (by omega : m < 2 ^ 53)
      (by decide : minExponent ≤ -1) (by rw [abs_of_nonneg hn, zpow_neg_one]; push_cast; ring)
    have hw' : w = 5 * s := (roundsTo_points s).exact hw (by omega : 5 * s < 2 ^ 53)
      (by decide : minExponent ≤ 0) (by rw [abs_of_nonneg hs, zpow_zero]; push_cast; ring)
    have hr' : r = v + w := hsum.exact hr (by omega : m + 10 * s < 2 ^ 53)
      (by decide : minExponent ≤ -1) (by
        rw [hv', hw', abs_of_nonneg (by positivity), zpow_neg_one]
        push_cast
        ring)
    rw [hr', hv', hw', ← htotal] at hrounded
    exact congrArg clamp (hrounded.unique (by exact_mod_cast h))
  · -- the rest is rounded by less than a hundredth
    have habs : |v + w| ≤ 102 := abs_le.mpr ⟨by linarith, by linarith⟩
    rw [abs_le] at hnear hle
    push_cast at hle
    have hnext : |r - whole| < 1 / 2 := abs_lt.mpr ⟨by linarith, by linarith⟩
    exact congrArg clamp (hrounded.unique (.of_lt hnext))

/-! ## The score -/

theorem exists_exact (n s : Nat) : ∃ score, Exact n s score := by
  have h := nearestEven_roundDiv (n + 500 * s) (show 0 < 100 by decide)
  push_cast at h
  exact ⟨_, _, h, rfl⟩

/-- The sum of the parts is not negative, so its amount is below the limit if it is itself. -/
theorem abs_parts_lt_iff (hv : (share n).value = ((v : ℚ) : WithTop ℚ))
    (hw : (points s).value = ((w : ℚ) : WithTop ℚ)) : |v + w| < limit ↔ v + w < limit := by
  have hshare := abs_le.mp (abs_share_sub_le hv)
  have hpoints := abs_le.mp (abs_points_sub_le hw)
  have hlimit := two_lt_limit
  have hn : (0 : ℚ) ≤ n / 100 := by positivity
  have hs : (0 : ℚ) ≤ 5 * s := by positivity
  exact ⟨fun h => (abs_lt.mp h).2, fun h => abs_lt.mpr ⟨by linarith, h⟩⟩

/-- What a score comes to once its parts are binary numbers. -/
theorem score_of_parts (hv : (share n).value = ((v : ℚ) : WithTop ℚ))
    (hw : (points s).value = ((w : ℚ) : WithTop ℚ)) :
    (limit ≤ v + w → score n s = .error .sum) ∧
      (v + w < limit → ∃ exact, Exact n s exact ∧ score n s = .ok exact) := by
  have hfinite := (roundsTo_add hv hw).finite.trans (abs_parts_lt_iff hv hw)
  rw [score_eq, if_pos (isFinite_iff.mpr ⟨v, hv⟩), if_pos (isFinite_iff.mpr ⟨w, hw⟩)]
  constructor
  · intro hlarge
    rw [round?_eq_none (Bool.eq_false_iff.mpr (mt hfinite.mp (not_lt_of_ge hlarge)))]
  · intro hsmall
    obtain ⟨r, hr⟩ := isFinite_iff.mp (hfinite.mpr hsmall)
    obtain ⟨rounded, hround, hrounded⟩ := exists_round? hr
    obtain ⟨_, whole, hwhole, rfl⟩ := exists_exact n s
    refine ⟨_, ⟨whole, hwhole, rfl⟩, ?_⟩
    rw [hround]
    exact congrArg Except.ok (clamp_eq_clamp hv hw hr hrounded hwhole)

theorem isFinite_share_iff : (share n).isFinite = true ↔ (n / 100 : ℚ) < limit := by
  rw [(roundsTo_share n).finite, abs_of_nonneg (by positivity)]

theorem isFinite_points_iff : (points s).isFinite = true ↔ 5 * (s : ℚ) < limit := by
  rw [(roundsTo_points s).finite, abs_of_nonneg (by positivity)]

/-- A score that is computed is the exact one. -/
theorem exact_of_score {score : Int} (h : Complexity.score n s = .ok score) : Exact n s score := by
  have hscore := h
  rw [score_eq] at h
  split at h
  · rename_i hshare
    split at h
    · rename_i hpoints
      obtain ⟨v, hv⟩ := isFinite_iff.mp hshare
      obtain ⟨w, hw⟩ := isFinite_iff.mp hpoints
      rcases lt_or_ge (v + w) limit with hsmall | hlarge
      · obtain ⟨exact, hexact, heq⟩ := (score_of_parts hv hw).2 hsmall
        rwa [← Except.ok.inj (heq.symm.trans hscore)]
      · cases ((score_of_parts hv hw).1 hlarge).symm.trans hscore
    · cases h
  · cases h

/-- What is far from the limit has a score. -/
theorem score_of_small (h : (n / 100 + 5 * s : ℚ) < limit / 2) :
    ∃ exact, Exact n s exact ∧ score n s = .ok exact := by
  have hlimit := two_lt_limit
  have hn : (0 : ℚ) ≤ n / 100 := by positivity
  have hs : (0 : ℚ) ≤ 5 * s := by positivity
  obtain ⟨v, hv⟩ := isFinite_iff.mp (isFinite_share_iff.mpr (by linarith : (n / 100 : ℚ) < limit))
  obtain ⟨w, hw⟩ := isFinite_iff.mp (isFinite_points_iff.mpr (by linarith : 5 * (s : ℚ) < limit))
  have hshare := abs_le.mp (abs_share_sub_le hv)
  have hpoints := abs_le.mp (abs_points_sub_le hw)
  exact (score_of_parts hv hw).2 (by linarith)

/-! ## The reported score -/

/-- The report on a code text carries the score of the instructions and functions in it. -/
theorem estimatedComplexity_ofText (thresholds : Thresholds) (address bytecode : String) :
    (BytecodeReport.ofText thresholds address bytecode).estimatedComplexity =
      ((score (Opcode.all (Code.normalize bytecode.toList)).length
        (Selector.extract (Code.normalize bytecode.toList)).length).toOption).getD 0 := by
  refine BytecodeReport.of_ofText (p := fun report => report.estimatedComplexity = _) _ _ _
    (fun h shown => ?_) fun shown => ?_
  · rw [Opcode.all_of_short h, Selector.extract, Selector.occurrences_of_short (by omega)]
    rfl
  · rw [BytecodeReport.ofCode]
    dsimp only
    rw [Opcode.foldl_size, Opcode.count, Opcode.sum_tally, zero_add]

/-- A number is the score that some code texts are reported with, and the member that carries it
is never refused. -/
def Reported (instructions functions : Nat) (score : Int) : Prop :=
  ∀ thresholds address bytecode,
    (Opcode.all (Code.normalize bytecode.toList)).length = instructions →
    (Selector.extract (Code.normalize bytecode.toList)).length = functions →
    (BytecodeReport.ofText thresholds address bytecode).estimatedComplexity = score ∧
      Schema.integerBetween 0 100 (.int score) = .accepted score

/-- What becomes of the score of so many instructions and functions. -/
structure Graded (instructions functions : Nat) : Prop where
  /-- Instructions whose hundredth part is beyond all binary numbers have no score. -/
  share : limit ≤ instructions / 100 → score instructions functions = .error .quotient
  /-- Nor have functions whose points are. -/
  points : (instructions / 100 : ℚ) < limit → limit ≤ 5 * functions →
    score instructions functions = .error .points
  /-- If both parts are binary numbers, the score is the exact one, unless their sum is beyond. -/
  parts : (instructions / 100 : ℚ) < limit → (5 * functions : ℚ) < limit → ∃ v w : ℚ,
    (Complexity.share instructions).value = ((v : ℚ) : WithTop ℚ) ∧
    (Complexity.points functions).value = ((w : ℚ) : WithTop ℚ) ∧
    (limit ≤ v + w → score instructions functions = .error .sum) ∧
    (v + w < limit → ∃ exact, Exact instructions functions exact ∧
      score instructions functions = .ok exact)
  /-- So it is if the parts are not too large together. -/
  small : (instructions / 100 + 5 * functions : ℚ) < limit / 2 →
    ∃ exact, Exact instructions functions exact ∧ score instructions functions = .ok exact
  /-- A score is in its range. -/
  range : ∀ n, score instructions functions = .ok n → 0 ≤ n ∧ n ≤ 100
  /-- It does not fall when there are more instructions or more functions. -/
  mono : ∀ more many n m, instructions ≤ more → functions ≤ many →
    score instructions functions = .ok n → score more many = .ok m → n ≤ m
  /-- It is what code with so many instructions and functions is reported with, without fail. -/
  reported : ∀ n, score instructions functions = .ok n → Reported instructions functions n

/-- **The score for complexity is the exact one**, wherever all its parts and their sum are binary
numbers. -/
theorem graded (instructions functions : Nat) : Graded instructions functions where
  share h := by rw [score_eq, if_neg (mt isFinite_share_iff.mp (not_lt_of_ge h))]
  points hshare h := by
    rw [score_eq, if_pos (isFinite_share_iff.mpr hshare),
      if_neg (mt isFinite_points_iff.mp (not_lt_of_ge h))]
  parts hshare hpoints := by
    obtain ⟨v, hv⟩ := isFinite_iff.mp (isFinite_share_iff.mpr hshare)
    obtain ⟨w, hw⟩ := isFinite_iff.mp (isFinite_points_iff.mpr hpoints)
    exact ⟨v, w, hv, hw, score_of_parts hv hw⟩
  small := score_of_small
  range n h := score_mem h
  mono more many n m hmore hmany hn hm :=
    exact_le_exact (exact_of_score hn) (exact_of_score hm) hmore hmany
  reported n h thresholds address bytecode hinstructions hfunctions := by
    obtain ⟨hfrom, hto⟩ := score_mem h
    refine ⟨?_, Schema.integerBetween_accepted hfrom hto⟩
    rw [estimatedComplexity_ofText, hinstructions, hfunctions, h]
    rfl

/-- So many instructions that their number is just a binary number. -/
def fullInstructions : Nat := 17 * 10 ^ 307

/-- So many functions that their points are just a binary number. -/
def fullFunctions : Nat := 358 * 10 ^ 305

/-- **Two binary numbers whose sum is none have no score**, though the exact one is 100. -/
theorem score_overfull : (fullInstructions : ℚ) < limit ∧ (5 * fullFunctions : ℚ) < limit ∧
    Exact fullInstructions fullFunctions 100 ∧
    score fullInstructions fullFunctions = .error .sum := by
  have hinstructions : (ofRatio false fullInstructions 1).isFinite = true := by decide +kernel
  have hshare : (share fullInstructions).isFinite = true := by decide +kernel
  have hpoints : (points fullFunctions).isFinite = true := by decide +kernel
  have hsum : ((share fullInstructions).add (points fullFunctions)).isFinite = false := by
    decide +kernel
  refine ⟨?_, isFinite_points_iff.mp hpoints, ?_, ?_⟩
  · have hbelow := (isFinite_ofRatio_iff false fullInstructions one_ne_zero).mp hinstructions
    rw [Nat.cast_one, div_one] at hbelow
    exact hbelow
  · obtain ⟨_, whole, hwhole, rfl⟩ := exists_exact fullInstructions fullFunctions
    have hmany : 10000 ≤ fullInstructions := by decide +kernel
    have hlarge : (100 : ℚ) ≤ (fullInstructions + 500 * fullFunctions) / 100 := by
      have hcast : (10000 : ℚ) ≤ fullInstructions := by exact_mod_cast hmany
      have hnonneg : (0 : ℚ) ≤ fullFunctions := Nat.cast_nonneg _
      linarith
    exact ⟨whole, hwhole, (clamp_of_large hwhole hlarge).symm⟩
  · rw [score_eq, if_pos hshare, if_pos hpoints, round?_eq_none hsum]

end Complexity

end ContractLens
