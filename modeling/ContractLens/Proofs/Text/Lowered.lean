import ContractLens.Proofs.Text.Ascii
/-!
# Lowered texts

Lowering makes no character that it would change again, and no blank (`lowered_lowerFrom`). So when
something is appended to a lowered text and the whole is lowered, the text in front stays as it is
(`exists_lowerFrom_append`). That the table of small letters holds no capital is checked once for
all its codes, as sets of bits.

Only the sigma at the end of a word hangs on what stands around it. So a text is lowered part by
part where no word goes on between the parts (`lower_append`).
-/

namespace ContractLens.Text

/-! ## Sets of codes -/

/-- The number whose bits are the codes of a list. -/
def maskOf (codes : List Nat) : Nat := codes.foldr (fun code mask => 1 <<< code ||| mask) 0

theorem testBit_maskOf {codes : List Nat} {code : Nat} (h : code ∈ codes) :
    (maskOf codes).testBit code = true := by
  induction codes with
  | nil => cases h
  | cons first codes ih =>
    rw [maskOf, List.foldr_cons, Nat.testBit_or, Bool.or_eq_true]
    rcases List.mem_cons.mp h with rfl | h
    · exact .inl (by simp)
    · exact .inr (ih h)

/-- Lists of codes whose numbers have no bit in common have no member in common. -/
theorem not_mem_of_mask {codes others : List Nat} (h : maskOf codes &&& maskOf others = 0)
    {code : Nat} (hcode : code ∈ codes) : code ∉ others := by
  intro hother
  have hbit := congrArg (Nat.testBit · code) h
  simp [testBit_maskOf hcode, testBit_maskOf hother] at hbit

/-! ## Small letters -/

/-- The codes in a row of so many as a run of capitals has, from the given one on. -/
def rowFrom (first low high step : Nat) : List Nat :=
  List.range' first ((high - low) / step + 1) step

theorem add_mem_rowFrom (first : Nat) {low high step code : Nat} (hlow : low ≤ code)
    (hhigh : code ≤ high) (hstep : (code - low) % step = 0) :
    first + (code - low) ∈ rowFrom first low high step := by
  refine List.mem_range'.mpr ⟨(code - low) / step, ?_, ?_⟩
  · exact Nat.lt_succ_of_le (Nat.div_le_div_right (by omega))
  · have hsplit := Nat.div_add_mod (code - low) step
    omega

theorem of_mem_rowFrom {low high step code : Nat} (hrun : low ≤ high)
    (h : code ∈ rowFrom low low high step) :
    low ≤ code ∧ code ≤ high ∧ (code - low) % step = 0 := by
  obtain ⟨i, hi, rfl⟩ := List.mem_range'.mp h
  have hle : step * i ≤ high - low :=
    Nat.le_trans (Nat.mul_le_mul_left step (Nat.le_of_lt_succ hi)) (Nat.mul_div_le _ _)
  refine ⟨Nat.le_add_right _ _, by omega, ?_⟩
  rw [Nat.add_sub_cancel_left, Nat.mul_mod_right]

theorem low_le_high_of_mem : ∀ run ∈ lowerRuns, run.1 ≤ run.2.1 := by
  decide +kernel

/-- The codes of the capitals. -/
def capitals : List Nat :=
  List.range' 65 26 ++ 0x130 :: lowerRuns.flatMap fun (low, high, step, _) =>
    rowFrom low low high step

/-- The codes of the small forms outside ASCII and of what the capitals of special kinds become. -/
def smallForms : List Nat :=
  0 :: 0x69 :: 0x307 :: 0x3C2 :: 0x3C3 :: lowerRuns.flatMap fun (low, high, step, target) =>
    rowFrom target low high step

/-- The codes of ASCII without the capitals. -/
def smallAscii : List Nat := List.range 65 ++ List.range' 91 37

theorem not_mem_capitals_of_smallForms : ∀ {code : Nat}, code ∈ smallForms → code ∉ capitals :=
  not_mem_of_mask (by decide +kernel)

theorem not_mem_blankCodes_of_smallForms : ∀ {code : Nat}, code ∈ smallForms → code ∉ blankCodes :=
  not_mem_of_mask (by decide +kernel)

theorem not_mem_capitals_of_smallAscii : ∀ {code : Nat}, code ∈ smallAscii → code ∉ capitals :=
  not_mem_of_mask (by decide +kernel)

/-- A character that is no capital. -/
def Small (c : Char) : Prop := c.toNat ∉ capitals

theorem small_toLower {c : Char} (hc : c.toNat < 128) : Small c.toLower := by
  refine not_mem_capitals_of_smallAscii ?_
  exact forall_ascii (p := fun c => c.toLower.toNat ∈ smallAscii) (by decide +kernel) hc

theorem toNat_ofNat_cases (code : Nat) :
    (Char.ofNat code).toNat = code ∨ (Char.ofNat code).toNat = 0 := by
  by_cases hvalid : code.isValidChar
  · rw [Char.ofNat, dif_pos hvalid]
    exact .inl rfl
  · rw [Char.ofNat, dif_neg hvalid]
    exact .inr rfl

/-- The code of a capital outside ASCII becomes that of a small form, and others stay. -/
theorem lowerChar_cases {c : Char} (hc : ¬ c.toNat < 128) :
    (lowerChar c).toNat ∈ smallForms ∨ lowerChar c = c ∧ (c.toNat ≠ 0x130 → Small c) := by
  rw [lowerChar, if_neg hc]
  split
  · rename_i low high step target hfound
    have hrun := List.find?_some hfound
    simp only [Bool.and_eq_true, decide_eq_true_eq, beq_iff_eq] at hrun
    obtain ⟨⟨hlow, hhigh⟩, hstep⟩ := hrun
    have hrow : target + (c.toNat - low) ∈ smallForms :=
      List.mem_append_right [0, 0x69, 0x307, 0x3C2, 0x3C3] (List.mem_flatMap.mpr
        ⟨_, List.mem_of_find?_eq_some hfound, add_mem_rowFrom _ hlow hhigh hstep⟩)
    refine .inl ?_
    rcases toNat_ofNat_cases (target + (c.toNat - low)) with hcode | hcode
    · rwa [hcode]
    · rw [hcode]
      exact List.mem_cons_self
  · rename_i hnone
    refine .inr ⟨rfl, fun hdotted hcapital => ?_⟩
    rcases List.mem_append.mp hcapital with hascii | hcapital
    · have hrange := List.mem_range'_1.mp hascii
      omega
    rcases List.mem_cons.mp hcapital with hcapital | hcapital
    · exact hdotted hcapital
    · obtain ⟨⟨low, high, step, target⟩, hmem, hrow⟩ := List.mem_flatMap.mp hcapital
      obtain ⟨hlow, hhigh, hstep⟩ := of_mem_rowFrom (low_le_high_of_mem _ hmem) hrow
      refine List.find?_eq_none.mp hnone _ hmem ?_
      simp only [Bool.and_eq_true, decide_eq_true_eq, beq_iff_eq]
      exact ⟨⟨hlow, hhigh⟩, hstep⟩

/-- A small character, and a blank only if it came from one. -/
theorem small_lowerChar {c : Char} (hdotted : c.toNat ≠ 0x130) :
    Small (lowerChar c) ∧ (isBlank c = false → isBlank (lowerChar c) = false) := by
  by_cases hc : c.toNat < 128
  · have hlower : lowerChar c = c.toLower := if_pos hc
    rw [hlower, isBlank_toLower]
    exact ⟨small_toLower hc, id⟩
  · rcases lowerChar_cases hc with hform | ⟨hsame, hsmall⟩
    · refine ⟨not_mem_capitals_of_smallForms hform, fun _ => Bool.eq_false_iff.mpr fun hblank => ?_⟩
      exact not_mem_blankCodes_of_smallForms hform (toNat_mem_blankCodes hblank)
    · rw [hsame]
      exact ⟨hsmall hdotted, id⟩

/-- A small character is lowered to itself. -/
theorem lowerChar_of_small {c : Char} (h : Small c) : lowerChar c = c := by
  by_cases hc : c.toNat < 128
  · have hascii : c.toNat ∉ List.range' 65 26 := fun hmem => h (List.mem_append_left _ hmem)
    rw [lowerChar, if_pos hc]
    exact forall_ascii (p := fun c => c.toNat ∉ List.range' 65 26 → c.toLower = c)
      (by decide +kernel) hc hascii
  · rw [lowerChar, if_neg hc]
    split
    · rename_i low high step target hfound
      have hrun := List.find?_some hfound
      simp only [Bool.and_eq_true, decide_eq_true_eq, beq_iff_eq] at hrun
      obtain ⟨⟨hlow, hhigh⟩, hstep⟩ := hrun
      have hrow := add_mem_rowFrom low hlow hhigh hstep
      rw [Nat.add_sub_cancel' hlow] at hrow
      exact absurd (List.mem_append_right _ (List.mem_cons_of_mem _ (List.mem_flatMap.mpr
        ⟨_, List.mem_of_find?_eq_some hfound, hrow⟩))) h
    · rfl

/-! ## Lowered texts -/

/-- A text of small characters without blanks. -/
def Lowered (cs : List Char) : Prop := ∀ c ∈ cs, Small c ∧ isBlank c = false

theorem small_of_special {c : Char} (h : c.toNat ∈ [0x69, 0x307, 0x3C2, 0x3C3]) :
    Small c ∧ isBlank c = false := by
  have hform : c.toNat ∈ smallForms :=
    List.mem_cons_of_mem _ (List.mem_append_left (lowerRuns.flatMap _) h)
  refine ⟨not_mem_capitals_of_smallForms hform, Bool.eq_false_iff.mpr fun hblank => ?_⟩
  exact not_mem_blankCodes_of_smallForms hform (toNat_mem_blankCodes hblank)

/-- **Lowering a text without blanks makes a lowered text.** -/
theorem lowered_lowerFrom {cs : List Char} (h : ∀ c ∈ cs, isBlank c = false) (cased : Bool) :
    Lowered (lowerFrom cased cs) := by
  induction cs generalizing cased with
  | nil => exact fun d hd => nomatch hd
  | cons c cs ih =>
    have hrest := fun cased => ih (fun d hd => h d (List.mem_cons_of_mem _ hd)) cased
    intro d hd
    rw [lowerFrom] at hd
    split at hd
    · rcases List.mem_cons.mp hd with rfl | hd
      · split <;> exact small_of_special (by decide)
      · exact hrest _ d hd
    split at hd
    · rcases List.mem_cons.mp hd with rfl | hd
      · exact small_of_special (by decide)
      rcases List.mem_cons.mp hd with rfl | hd
      · exact small_of_special (by decide)
      · exact hrest _ d hd
    · rename_i hdotted
      have hlower := small_lowerChar (c := c) (by simpa using hdotted)
      rcases List.mem_cons.mp hd with rfl | hd
      · exact ⟨hlower.1, hlower.2 (h c List.mem_cons_self)⟩
      · exact hrest _ d hd

/-- **A lowered text in front stays as it is**, whatever follows it. -/
theorem exists_lowerFrom_append {cs : List Char} (h : Lowered cs) (cased : Bool)
    (rest : List Char) :
    ∃ after, lowerFrom cased (cs ++ rest) = cs ++ lowerFrom after rest := by
  induction cs generalizing cased with
  | nil => exact ⟨cased, rfl⟩
  | cons c cs ih =>
    have hc := (h c List.mem_cons_self).1
    have hne : ∀ code ∈ capitals, (c.toNat == code) = false := fun code hcode => by
      rw [beq_eq_false_iff_ne]
      rintro rfl
      exact hc hcode
    obtain ⟨after, hafter⟩ := ih (fun d hd => h d (List.mem_cons_of_mem _ hd))
      (if isCased c then true else if isCaseIgnorable c then cased else false)
    refine ⟨after, ?_⟩
    rw [List.cons_append, lowerFrom, hne 0x3A3 (by decide), hne 0x130 (by decide)]
    simp only [Bool.false_eq_true, if_false]
    rw [hafter, lowerChar_of_small hc, List.cons_append]

/-! ## Lowering part by part -/

/-- No word goes on over a character, not even one that is looked for across other signs. -/
def Parting (c : Char) : Prop := isCased c = false ∧ isCaseIgnorable c = false

instance (c : Char) : Decidable (Parting c) :=
  inferInstanceAs (Decidable (isCased c = false ∧ isCaseIgnorable c = false))

variable {rest : List Char}

theorem casedNext_of_parting (h : ∀ c ∈ rest.head?, Parting c) : casedNext rest = false := by
  cases rest with
  | nil => rfl
  | cons c rest =>
    obtain ⟨hcased, hignorable⟩ := h c rfl
    rw [casedNext, hcased, hignorable]
    rfl

theorem casedNext_append (h : ∀ c ∈ rest.head?, Parting c) (cs : List Char) :
    casedNext (cs ++ rest) = casedNext cs := by
  induction cs with
  | nil => exact casedNext_of_parting h
  | cons c cs ih => rw [List.cons_append, casedNext, casedNext, ih]

theorem toNat_beq_of_not_isCased {code : Nat} (hcode : isCased (Char.ofNat code) = true) {c : Char}
    (h : isCased c = false) : (c.toNat == code) = false := by
  refine Bool.eq_false_iff.mpr fun heq => ?_
  rw [← eq_of_beq heq, Char.ofNat_toNat, h] at hcode
  cases hcode

/-- What came before a parting character does not matter. -/
theorem lowerFrom_of_parting (h : ∀ c ∈ rest.head?, Parting c) (cased : Bool) :
    lowerFrom cased rest = lower rest := by
  cases rest with
  | nil => rfl
  | cons c rest =>
    obtain ⟨hcased, hignorable⟩ := h c rfl
    rw [lower, lowerFrom, lowerFrom, hcased, hignorable,
      toNat_beq_of_not_isCased (by decide) hcased]
    rfl

/-- **A text is lowered part by part.** -/
theorem lower_append (h : ∀ c ∈ rest.head?, Parting c) (cs : List Char) :
    lower (cs ++ rest) = lower cs ++ lower rest := by
  suffices hfrom : ∀ cased, lowerFrom cased (cs ++ rest) = lowerFrom cased cs ++ lower rest from
    hfrom false
  induction cs with
  | nil => exact lowerFrom_of_parting h
  | cons c cs ih =>
    intro cased
    rw [List.cons_append, lowerFrom, lowerFrom, casedNext_append h, ih]
    split
    · rfl
    split
    · rfl
    · rfl

/-- Behind a character without case the text is lowered on its own. -/
theorem lower_cons {c : Char} (h : isCased c = false) (cs : List Char) :
    lower (c :: cs) = lowerChar c :: lower cs := by
  rw [lower, lowerFrom, toNat_beq_of_not_isCased (by decide) h,
    toNat_beq_of_not_isCased (by decide) h, h]
  simp only [Bool.false_eq_true, if_false, ite_self]
  rfl

end ContractLens.Text
