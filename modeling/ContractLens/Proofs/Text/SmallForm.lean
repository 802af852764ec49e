import ContractLens.Proofs.Text.Lowered
/-!
# Small forms of a part of a text

A part of a text is lowered as it stands in the whole: whether a capital sigma becomes a final one
hangs on what is around it, and nothing else does. `LowersTo` says what may become of a part
wherever it stands, so the parts of a text are lowered one by one (`LowersTo.exists_append`).

Blanks and marks stay as they are and nothing else becomes one of them, and a word does not go on
where it did not (`LowersTo.wordBefore`). What starts with an ASCII text in one small form starts
with it in each (`LowersTo.starts`).
-/

namespace ContractLens.Text

/-- What may become of a text that is lowered as a part of another. -/
inductive LowersTo : List Char → List Char → Prop
  /-- Nothing becomes of nothing. -/
  | nil : LowersTo [] []
  /-- A capital sigma may end a word or not. -/
  | sigma {c small : Char} {cs ds : List Char} (hc : c.toNat = 0x3A3)
      (hsmall : small.toNat = 0x3C2 ∨ small.toNat = 0x3C3) (rest : LowersTo cs ds) :
      LowersTo (c :: cs) (small :: ds)
  /-- The dotted capital I becomes a letter and its dot. -/
  | dotted {c : Char} {cs ds : List Char} (hc : c.toNat = 0x130) (rest : LowersTo cs ds) :
      LowersTo (c :: cs) ('i' :: Char.ofNat 0x307 :: ds)
  /-- Every other character has one small form. -/
  | single {c : Char} {cs ds : List Char} (hsigma : c.toNat ≠ 0x3A3) (hdotted : c.toNat ≠ 0x130)
      (rest : LowersTo cs ds) : LowersTo (c :: cs) (lowerChar c :: ds)

theorem lowersTo_lowerFrom (cased : Bool) (cs : List Char) : LowersTo cs (lowerFrom cased cs) := by
  induction cs generalizing cased with
  | nil => exact .nil
  | cons c cs ih =>
    rw [lowerFrom]
    split
    · rename_i hsigma
      refine .sigma (by simpa using hsigma) ?_ (ih _)
      split
      · exact .inl rfl
      · exact .inr rfl
    split
    · rename_i hdotted
      exact .dotted (by simpa using hdotted) (ih _)
    · rename_i hsigma hdotted
      exact .single (by simpa using hsigma) (by simpa using hdotted) (ih _)

theorem lowersTo_lower (cs : List Char) : LowersTo cs (lower cs) := lowersTo_lowerFrom false cs

/-! ## Characters that stay -/

theorem small_of_mem_smallAscii {c : Char} (h : c.toNat ∈ smallAscii) : Small c :=
  not_mem_capitals_of_smallAscii h

theorem not_mem_capitals_of_blankCodes : ∀ {code : Nat}, code ∈ blankCodes → code ∉ capitals :=
  not_mem_of_mask (by decide +kernel)

theorem small_of_isBlank {c : Char} (h : isBlank c = true) : Small c :=
  not_mem_capitals_of_blankCodes (toNat_mem_blankCodes h)

theorem small_of_isQuote {c : Char} (h : isQuote c = true) : Small c := by
  simp only [isQuote, Bool.or_eq_true, beq_iff_eq] at h
  rcases h with rfl | rfl <;> exact small_of_mem_smallAscii (by decide)

/-- The codes of the quotation marks and the semicolon. -/
def markCodes : List Nat := [34, 39, 59]

theorem not_mem_markCodes_of_smallForms : ∀ {code : Nat}, code ∈ smallForms → code ∉ markCodes :=
  not_mem_of_mask (by decide +kernel)

namespace LowersTo

variable {cs ds es : List Char}

/-- A small character stays. -/
theorem exists_cons {c : Char} (h : LowersTo (c :: cs) ds) (hc : Small c) :
    ∃ rest, ds = c :: rest ∧ LowersTo cs rest := by
  cases h with
  | sigma hsigma => exact absurd (hsigma ▸ (by decide +kernel : 0x3A3 ∈ capitals)) hc
  | dotted hdotted => exact absurd (hdotted ▸ (by decide +kernel : 0x130 ∈ capitals)) hc
  | single _ _ hrest => exact ⟨_, by rw [lowerChar_of_small hc], hrest⟩

/-- **The parts of a text are lowered one by one.** -/
theorem exists_append {before : List Char} (h : LowersTo (before ++ cs) ds) :
    ∃ start rest, ds = start ++ rest ∧ LowersTo before start ∧ LowersTo cs rest := by
  induction before generalizing ds with
  | nil => exact ⟨[], ds, rfl, .nil, h⟩
  | cons c before ih =>
    cases h with
    | sigma hc hsmall hrest =>
      obtain ⟨start, rest, rfl, hstart, hcs⟩ := ih hrest
      exact ⟨_ :: start, rest, rfl, .sigma hc hsmall hstart, hcs⟩
    | dotted hc hrest =>
      obtain ⟨start, rest, rfl, hstart, hcs⟩ := ih hrest
      exact ⟨_ :: _ :: start, rest, rfl, .dotted hc hstart, hcs⟩
    | single hsigma hdotted hrest =>
      obtain ⟨start, rest, rfl, hstart, hcs⟩ := ih hrest
      exact ⟨_ :: start, rest, rfl, .single hsigma hdotted hstart, hcs⟩

/-- A word in small letters stays. -/
theorem exists_append_of_small {word : List Char} (h : LowersTo (word ++ cs) ds)
    (hword : ∀ c ∈ word, Small c) : ∃ rest, ds = word ++ rest ∧ LowersTo cs rest := by
  induction word generalizing ds with
  | nil => exact ⟨ds, rfl, h⟩
  | cons c word ih =>
    obtain ⟨hc, hword⟩ := List.forall_mem_cons.mp hword
    obtain ⟨rest, rfl, hrest⟩ := h.exists_cons hc
    obtain ⟨rest, rfl, hcs⟩ := ih hrest hword
    exact ⟨rest, rfl, hcs⟩

theorem ne_nil (h : LowersTo cs ds) (hne : cs ≠ []) : ds ≠ [] := by
  cases h with
  | nil => exact absurd rfl hne
  | _ => exact List.cons_ne_nil _ _

/-- A character of a small form is that of some special capital, or the small one of ASCII. -/
theorem mem_cases (h : LowersTo cs ds) {d : Char} (hd : d ∈ ds) :
    d.toNat ∈ smallForms ∨ ∃ c ∈ cs, d = c.toLower := by
  have hspecial : ∀ {d : Char}, d.toNat ∈ [0x69, 0x307, 0x3C2, 0x3C3] → d.toNat ∈ smallForms :=
    fun hd => List.mem_cons_of_mem _ (List.mem_append_left (lowerRuns.flatMap _) hd)
  induction h with
  | nil => cases hd
  | sigma hc hsmall _ ih =>
    rcases List.mem_cons.mp hd with rfl | hd
    · exact .inl (hspecial (by rcases hsmall with h | h <;> rw [h] <;> decide))
    · exact (ih hd).imp_right fun ⟨c, hc, heq⟩ => ⟨c, List.mem_cons_of_mem _ hc, heq⟩
  | dotted hc _ ih =>
    rcases List.mem_cons.mp hd with rfl | hd
    · exact .inl (hspecial (by decide))
    rcases List.mem_cons.mp hd with rfl | hd
    · exact .inl (hspecial (by decide))
    · exact (ih hd).imp_right fun ⟨c, hc, heq⟩ => ⟨c, List.mem_cons_of_mem _ hc, heq⟩
  | @single c cs ds hsigma hdotted _ ih =>
    rcases List.mem_cons.mp hd with rfl | hd
    · by_cases hascii : c.toNat < 128
      · exact .inr ⟨c, List.mem_cons_self, if_pos hascii⟩
      · refine (lowerChar_cases hascii).imp_right fun hsame => ⟨c, List.mem_cons_self, ?_⟩
        rw [hsame.1, toLower_of_not_ascii hascii]
    · exact (ih hd).imp_right fun ⟨c, hc, heq⟩ => ⟨c, List.mem_cons_of_mem _ hc, heq⟩

/-- Nothing becomes a mark. -/
theorem forall_ne (h : LowersTo cs ds) {mark : Char} (hmark : mark.toNat ∈ markCodes)
    (hcs : ∀ c ∈ cs, c ≠ mark) : ∀ d ∈ ds, d ≠ mark := by
  have hletter : mark.isAlpha = false := by
    have hmarks : ∀ code ∈ markCodes, (Char.ofNat code).isAlpha = false := by decide
    have hcode := hmarks _ hmark
    rwa [Char.ofNat_toNat] at hcode
  rintro d hd rfl
  rcases h.mem_cases hd with hform | ⟨c, hc, heq⟩
  · exact not_mem_markCodes_of_smallForms hform hmark
  · exact hcs c hc ((toLower_eq_iff hletter c).mp heq.symm)

theorem not_isQuote (h : LowersTo cs ds) (hcs : ∀ c ∈ cs, isQuote c = false) :
    ∀ d ∈ ds, isQuote d = false := by
  have hquote : ∀ {c : Char}, isQuote c = false ↔ c ≠ '\x22' ∧ c ≠ '\x27' := by simp [isQuote]
  have hdouble : ∀ d ∈ ds, d ≠ '\x22' :=
    h.forall_ne (by decide) fun c hc => (hquote.mp (hcs c hc)).1
  have hsingle : ∀ d ∈ ds, d ≠ '\x27' :=
    h.forall_ne (by decide) fun c hc => (hquote.mp (hcs c hc)).2
  exact fun d hd => hquote.mpr ⟨hdouble d hd, hsingle d hd⟩

end LowersTo

/-! ## Words -/

/-- The number whose bits are the codes in some ranges. -/
def rangesMask (ranges : List (Nat × Nat)) : Nat :=
  ranges.foldr (fun range mask => (Nat.pow 2 (range.2 + 1 - range.1) - 1) <<< range.1 ||| mask) 0

theorem testBit_rangesMask (ranges : List (Nat × Nat)) (code : Nat) :
    (rangesMask ranges).testBit code = inRanges ranges code := by
  induction ranges with
  | nil => exact Nat.zero_testBit code
  | cons range ranges ih =>
    have hrange : (decide (code ≥ range.1) && decide (code - range.1 < range.2 + 1 - range.1)) =
        (decide (range.1 ≤ code) && decide (code ≤ range.2)) := by
      rw [Bool.eq_iff_iff]
      simp only [Bool.and_eq_true, decide_eq_true_eq]
      omega
    rw [rangesMask, List.foldr_cons, ← rangesMask, Nat.testBit_or, ih, Nat.testBit_shiftLeft,
      Nat.pow_eq, Nat.testBit_two_pow_sub_one, hrange]
    rfl

/-- A capital outside ASCII is a letter, or a letter in a circle, which is a sign. -/
theorem lettered_or_circled {code : Nat} (h : code ∈ capitals) (hascii : ¬ code < 128) :
    inRanges wordRanges code = true ∨ 0x24B6 ≤ code ∧ code ≤ 0x24CF := by
  have hmask : maskOf capitals &&& rangesMask ((65, 90) :: (0x24B6, 0x24CF) :: wordRanges) =
      maskOf capitals := by decide +kernel
  have hbit := testBit_maskOf h
  rw [← hmask, Nat.testBit_and, testBit_rangesMask, Bool.and_eq_true, inRanges, List.any_cons,
    List.any_cons, ← inRanges] at hbit
  simp only [Bool.or_eq_true, Bool.and_eq_true, decide_eq_true_eq] at hbit
  rcases hbit.2 with hcapital | hcircled | hletter
  · omega
  · exact .inr hcircled
  · exact .inl hletter

/-- No other run of capitals reaches among the letters in circles. -/
theorem run_circled : ∀ run ∈ lowerRuns, run.2.1 < 0x24B6 ∨ 0x24CF < run.1 ∨
    run = (0x24B6, 0x24CF, 0x1, 0x24D0) := by
  decide +kernel

/-- Outside ASCII there are no letters and digits of ASCII. -/
theorem isAlphanum_of_not_ascii {c : Char} (h : ¬ c.toNat < 128) : c.isAlphanum = false := by
  have hbeyond : ∀ mark : Char, mark.toNat < 128 → decide (c.val ≤ mark.val) = false :=
    fun mark hmark => decide_eq_false fun hle =>
      h (Nat.lt_of_le_of_lt (UInt32.le_iff_toNat_le.mp hle) hmark)
  have hcapital : c.isUpper = false := decide_eq_false fun hletter =>
    of_decide_eq_false (hbeyond 'Z' (by decide)) hletter.2
  have hsmall : c.isLower = false :=
    (congrArg _ (hbeyond 'z' (by decide))).trans (Bool.and_false _)
  have hdigit : c.isDigit = false :=
    (congrArg _ (hbeyond '9' (by decide))).trans (Bool.and_false _)
  exact Bool.or_eq_false_iff.mpr ⟨Bool.or_eq_false_iff.mpr ⟨hcapital, hsmall⟩, hdigit⟩

/-- Outside ASCII the table alone decides what is a word character. -/
theorem isWordChar_of_not_ascii {c : Char} (h : ¬ c.toNat < 128) :
    isWordChar c = inRanges wordRanges c.toNat := by
  have hunderscore : (c == '_') = false := by
    refine beq_false_of_ne ?_
    rintro rfl
    exact h (by decide)
  rw [isWordChar, isAlphanum_of_not_ascii h, hunderscore, decide_eq_true (Nat.le_of_not_lt h),
    Bool.true_and, Bool.or_self, Bool.false_or]

/-- A small letter in a circle is no word character. -/
theorem not_isWordChar_circled {c : Char} (hlow : 0x24D0 ≤ c.toNat) (hhigh : c.toNat ≤ 0x24E9) :
    isWordChar c = false := by
  have hmask : rangesMask [(0x24D0, 0x24E9)] &&& rangesMask wordRanges = 0 := by decide +kernel
  have hcircled : inRanges [(0x24D0, 0x24E9)] c.toNat = true := by simp [inRanges, hlow, hhigh]
  have hbit := congrArg (Nat.testBit · c.toNat) hmask
  simp only [Nat.testBit_and, testBit_rangesMask, hcircled, Bool.true_and, Nat.zero_testBit] at hbit
  rw [isWordChar_of_not_ascii (by omega), hbit]

theorem toNat_ofNat_of_lt {code : Nat} (h : code < 0xD800) : (Char.ofNat code).toNat = code := by
  rw [Char.ofNat, dif_pos (.inl h)]
  rfl

/-- What is no word character has no small form that is one. -/
theorem isWordChar_lowerChar {c : Char} (h : isWordChar c = false) :
    isWordChar (lowerChar c) = false := by
  by_cases hascii : c.toNat < 128
  · rw [lowerChar, if_pos hascii, isWordChar_toLower, h]
  by_cases hsmall : Small c
  · rw [lowerChar_of_small hsmall, h]
  have hcircled := (lettered_or_circled (not_not.mp hsmall) hascii).resolve_left fun hletter => by
    rw [isWordChar_of_not_ascii hascii, hletter] at h
    cases h
  rw [lowerChar, if_neg hascii]
  split
  · rename_i low high step target hfound
    have hrun := List.find?_some hfound
    simp only [Bool.and_eq_true, decide_eq_true_eq, beq_iff_eq] at hrun
    have hcases := run_circled _ (List.mem_of_find?_eq_some hfound)
    simp only [Prod.mk.injEq] at hcases
    obtain ⟨rfl, rfl, rfl, rfl⟩ : low = 0x24B6 ∧ high = 0x24CF ∧ step = 1 ∧ target = 0x24D0 := by
      omega
    have hcode : (Char.ofNat (0x24D0 + (c.toNat - 0x24B6))).toNat = 0x24D0 + (c.toNat - 0x24B6) :=
      toNat_ofNat_of_lt (by omega)
    exact not_isWordChar_circled (by omega) (by omega)
  · exact h

namespace LowersTo

variable {cs ds es : List Char}

/-- **No word goes on after the small form of a text after which none goes on.** -/
theorem wordBefore (h : LowersTo cs ds) {afterWord other : Bool}
    (hother : afterWord = false → other = false) (hword : wordBefore afterWord cs = false) :
    wordBefore other ds = false := by
  have hletter : ∀ {c : Char} {code : Nat}, c.toNat = code →
      isWordChar (Char.ofNat code) = true → isWordChar c = true := by
    rintro c _ rfl hcode
    rwa [Char.ofNat_toNat] at hcode
  induction h generalizing afterWord other with
  | nil => exact hother hword
  | sigma hc _ _ ih =>
    refine ih (fun hnone => ?_) hword
    rw [hletter hc (by decide +kernel)] at hnone
    cases hnone
  | dotted _ _ ih =>
    have hdot : isWordChar (Char.ofNat 0x307) = false := by decide +kernel
    rw [Text.wordBefore, Text.wordBefore, hdot]
    exact ih (fun _ => rfl) hword
  | single _ _ _ ih => exact ih isWordChar_lowerChar hword

/-- **An ASCII text starts every small form if it starts one.** -/
theorem starts (hds : LowersTo cs ds) (hes : LowersTo cs es) {word : List Char}
    (hword : ∀ c ∈ word, c.toNat < 128) (h : word <+: ds) : word <+: es := by
  induction hds generalizing es word with
  | nil =>
    obtain rfl := List.prefix_nil.mp h
    exact List.nil_prefix
  | sigma hc hsmall _ ih =>
    rcases List.prefix_cons_iff.mp h with rfl | ⟨t, rfl, -⟩
    · exact List.nil_prefix
    · have hascii := hword _ List.mem_cons_self
      omega
  | dotted hc _ ih =>
    cases hes with
    | sigma hsigma => omega
    | single _ hdotted => exact absurd hc hdotted
    | dotted _ hrest =>
      rcases List.prefix_cons_iff.mp h with rfl | ⟨t, rfl, ht⟩
      · exact List.nil_prefix
      rcases List.prefix_cons_iff.mp ht with rfl | ⟨t, rfl, -⟩
      · exact List.prefix_cons_iff.mpr (.inr ⟨[], rfl, List.nil_prefix⟩)
      · exact absurd (hword (Char.ofNat 0x307) (by simp)) (by decide)
  | single hsigma hdotted _ ih =>
    cases hes with
    | sigma hc => exact absurd hc hsigma
    | dotted hc => exact absurd hc hdotted
    | single _ _ hrest =>
      rcases List.prefix_cons_iff.mp h with rfl | ⟨t, rfl, ht⟩
      · exact List.nil_prefix
      · exact List.prefix_cons_iff.mpr (.inr ⟨t, rfl,
          ih hrest (fun c hc => hword c (List.mem_cons_of_mem _ hc)) ht⟩)

end LowersTo

end ContractLens.Text
