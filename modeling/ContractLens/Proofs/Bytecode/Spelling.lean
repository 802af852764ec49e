import ContractLens.Bytecode.Report
import ContractLens.Proofs.Fetch.Address
import ContractLens.Proofs.Text.Keyword
/-!
# Spellings of code

The digits of code may be written in either case, with blanks anywhere, and with or without the mark
of base sixteen in front. All spellings of the same digits have one normal form, the small digits
(`normalize_of_spelling`), and whatever is said about code is read off its normal form.
-/

namespace ContractLens

open Text

namespace Code

/-- A text that spells some characters: each in either case, and blanks anywhere. -/
inductive Spells : List Char → List Char → Prop
  /-- Nothing spells nothing. -/
  | nil : Spells [] []
  /-- A blank may stand before anything, and at the end. -/
  | blank {c : Char} {text cs : List Char} :
      isBlank c = true → Spells text cs → Spells (c :: text) cs
  /-- A character is written in either case. -/
  | letter {c d : Char} {text cs : List Char} :
      d.toLower = c.toLower → Spells text cs → Spells (d :: text) (c :: cs)

/-- A text that spells digits, perhaps with the mark of base sixteen in front of them. -/
def Spelling (digits text : List Char) : Prop :=
  ∃ mark, (mark = [] ∨ mark = ['0', 'x']) ∧ Spells text (mark ++ digits)

theorem Spells.map_toLower {text cs : List Char} (h : Spells text cs)
    (hcs : ∀ c ∈ cs, isBlank c = false) :
    (text.filter fun c => !isBlank c).map Char.toLower = cs.map Char.toLower := by
  induction h with
  | nil => rfl
  | blank hblank _ ih =>
    rw [List.filter_cons_of_neg (by rw [hblank]; decide)]
    exact ih hcs
  | @letter c d text cs hsame _ ih =>
    have hd : isBlank d = false := by
      rw [← isBlank_toLower, hsame, isBlank_toLower, hcs c List.mem_cons_self]
    rw [List.filter_cons_of_pos (by rw [hd]; rfl), List.map_cons, List.map_cons, hsame,
      ih fun c hc => hcs c (List.mem_cons_of_mem _ hc)]

/-- Small letters are in ASCII only if the letters were. -/
theorem toNat_lt_of_toLower {c : Char} (h : c.toLower.toNat < 128) : c.toNat < 128 := by
  by_contra hc
  rw [toLower_of_not_ascii hc] at h
  exact hc h

theorem lower_of_map_toLower {cs small : List Char} (h : cs.map Char.toLower = small)
    (hsmall : ∀ c ∈ small, c.toNat < 128) : lower cs = small := by
  rw [← h]
  refine lower_of_ascii fun c hc => toNat_lt_of_toLower (hsmall _ ?_)
  rw [← h]
  exact List.mem_map_of_mem hc

/-- What is needed of a digit: it is in ASCII, no blank, and its small form is no `x`. -/
theorem digit_facts {c : Char} (h : Address.isHexDigit c = true) :
    c.toNat < 128 ∧ isBlank c = false ∧ c.toLower ≠ 'x' := by
  have hascii := Address.toNat_lt_of_isHexDigit h
  refine ⟨hascii, ?_⟩
  revert h
  exact forall_ascii
    (p := fun c => Address.isHexDigit c = true → isBlank c = false ∧ c.toLower ≠ 'x')
    (by decide) hascii

/-- **Every spelling of digits has the small digits for its normal form.** -/
theorem normalize_of_spelling {digits text : List Char}
    (hdigits : ∀ c ∈ digits, Address.isHexDigit c = true) (h : Spelling digits text) :
    normalize text = digits.map Char.toLower := by
  obtain ⟨mark, hmark, hspells⟩ := h
  have hclean : ∀ c ∈ mark ++ digits, c.toNat < 128 ∧ isBlank c = false := by
    intro c hc
    rcases List.mem_append.mp hc with hc | hc
    · rcases hmark with rfl | rfl
      · cases hc
      · exact forall_mem_of_all (p := fun c => c.toNat < 128 ∧ isBlank c = false) (by decide) c hc
    · exact ⟨(digit_facts (hdigits c hc)).1, (digit_facts (hdigits c hc)).2.1⟩
  have hlower : lower (text.filter fun c => !isBlank c) = (mark ++ digits).map Char.toLower := by
    refine lower_of_map_toLower (hspells.map_toLower fun c hc => (hclean c hc).2) fun c hc => ?_
    obtain ⟨d, hd, rfl⟩ := List.mem_map.mp hc
    exact Address.toNat_toLower_lt (hclean d hd).1
  rw [normalize, hlower]
  rcases hmark with rfl | rfl
  · -- no digit is the second half of the mark, so nothing is taken off
    have hnone : dropStart? ['0', 'x'] (digits.map Char.toLower) = none := by
      refine Option.eq_none_iff_forall_ne_some.mpr fun rest hrest => ?_
      have hmem : 'x' ∈ digits.map Char.toLower := by
        rw [dropStart?_eq_some_iff.mp hrest]
        exact List.mem_cons_of_mem _ List.mem_cons_self
      obtain ⟨c, hc, hx⟩ := List.mem_map.mp hmem
      exact (digit_facts (hdigits c hc)).2.2 hx
    rw [List.nil_append, hnone]
    rfl
  · rfl

end Code

namespace BytecodeReport

/-- A report apart from the text that was given. -/
def apart (report : BytecodeReport) : BytecodeReport := { report with bytecode := "" }

theorem apart_ofText_congr (thresholds : Thresholds) (address : String) {text other : String}
    (h : Code.normalize text.toList = Code.normalize other.toList) :
    (ofText thresholds address text).apart = (ofText thresholds address other).apart := by
  simp only [ofText, h]
  split <;> rfl

end BytecodeReport

theorem Code.isUpgradeable_congr {text other : List Char} (h : normalize text = normalize other)
    (selectors : List Selector) : isUpgradeable text selectors = isUpgradeable other selectors := by
  rw [isUpgradeable, isUpgradeable, h]

theorem Code.isMinimalProxy_congr {text other : List Char} (h : normalize text = normalize other) :
    isMinimalProxy text = isMinimalProxy other := by
  rw [isMinimalProxy, isMinimalProxy, h]

/-- What is said about code in two texts: all of the report but the text itself, and both verdicts
on the way it is replaced. -/
structure Code.SaysSame (text other : String) : Prop where
  /-- The reports are the same apart from the texts. -/
  report : ∀ (thresholds : Thresholds) (address : String),
    (BytecodeReport.ofText thresholds address text).apart =
      (BytecodeReport.ofText thresholds address other).apart
  /-- With the same functions, both are upgradeable or neither is. -/
  upgradeable : ∀ selectors,
    isUpgradeable text.toList selectors = isUpgradeable other.toList selectors
  /-- Both are minimal proxies or neither is. -/
  minimal : isMinimalProxy text.toList = isMinimalProxy other.toList

/-- **It does not matter how code is spelled.** -/
theorem Code.saysSame_of_spellings {digits : List Char} {text other : String}
    (hdigits : ∀ c ∈ digits, Address.isHexDigit c = true) (htext : Spelling digits text.toList)
    (hother : Spelling digits other.toList) : SaysSame text other := by
  have hsame : normalize text.toList = normalize other.toList := by
    rw [normalize_of_spelling hdigits htext, normalize_of_spelling hdigits hother]
  exact ⟨fun thresholds address => BytecodeReport.apart_ofText_congr thresholds address hsame,
    isUpgradeable_congr hsame, isMinimalProxy_congr hsame⟩

/-- Code that delegates, bare and with a mark that has a blank in it. -/
theorem Code.saysSame_of_spellings_delegation : SaysSame "60f4" "0 X60\nF4" := by
  have hdigits : ∀ c ∈ ['6', '0', 'f', '4'], Address.isHexDigit c = true :=
    List.all_eq_true.mp rfl
  have hspelled : Spells "60f4".toList ['6', '0', 'f', '4'] :=
    .letter rfl (.letter rfl (.letter rfl (.letter rfl .nil)))
  have hmarked : Spells "0 X60\nF4".toList ['0', 'x', '6', '0', 'f', '4'] :=
    .letter rfl (.blank rfl (.letter rfl (.letter rfl (.letter rfl (.blank rfl
      (.letter rfl (.letter rfl .nil)))))))
  exact saysSame_of_spellings hdigits ⟨[], .inl rfl, hspelled⟩ ⟨['0', 'x'], .inr rfl, hmarked⟩

end ContractLens
