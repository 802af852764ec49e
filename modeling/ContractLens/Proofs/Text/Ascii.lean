import ContractLens.Proofs.Text.Place
import ContractLens.Text.Case
/-!
# Small letters of ASCII

Of all characters `Char.toLower` changes the 26 capitals of ASCII alone, and makes letters of them.
So it keeps words, blanks and marks apart as they were (`isWordChar_toLower`, `isBlank_toLower`,
`toLower_eq_iff`): what is found in a text by its marks is found at the same places when the text is
lowered.
-/

namespace ContractLens.Text

/-- A fact about the first 128 characters, checked on each of them. -/
theorem forall_ascii {p : Char → Prop} (h : ∀ n : Fin 128, p (Char.ofNat n)) {c : Char}
    (hc : c.toNat < 128) : p c := by
  have hn := h ⟨c.toNat, hc⟩
  rwa [Char.ofNat_toNat] at hn

/-- Characters outside ASCII stay as they are. -/
theorem toLower_of_not_ascii {c : Char} (h : ¬ c.toNat < 128) : c.toLower = c := by
  have hhigh : ¬ c.val ≤ 'Z'.val := fun hle =>
    h (Nat.lt_of_le_of_lt (UInt32.le_iff_toNat_le.mp hle) (by decide))
  exact dif_neg fun hcapital => hhigh hcapital.2

/-- A relation that every character has to itself, and an ASCII character to its small form, holds
of every character and its small form. -/
theorem rel_toLower {r : Char → Char → Prop} (hsame : ∀ c, r c c)
    (hascii : ∀ n : Fin 128, r (Char.ofNat n) (Char.ofNat n).toLower) (c : Char) :
    r c c.toLower := by
  by_cases hc : c.toNat < 128
  · exact forall_ascii (p := fun c => r c c.toLower) hascii hc
  · rw [toLower_of_not_ascii hc]
    exact hsame c

theorem isWordChar_toLower (c : Char) : isWordChar c.toLower = isWordChar c :=
  rel_toLower (r := fun c d => isWordChar d = isWordChar c) (fun _ => rfl) (by decide) c

theorem isBlank_toLower (c : Char) : isBlank c.toLower = isBlank c :=
  rel_toLower (r := fun c d => isBlank d = isBlank c) (fun _ => rfl) (by decide) c

/-- What is no letter is the small form of itself alone. -/
theorem toLower_eq_iff {mark : Char} (hmark : mark.isAlpha = false) (c : Char) :
    c.toLower = mark ↔ c = mark := by
  have hletter : c.toLower = c ∨ c.isAlpha = true ∧ c.toLower.isAlpha = true :=
    rel_toLower (r := fun c d => d = c ∨ c.isAlpha = true ∧ d.isAlpha = true)
      (fun _ => .inl rfl) (by decide) c
  rcases hletter with hsame | ⟨hc, hlower⟩
  · rw [hsame]
  · constructor
    · rintro rfl
      rw [hlower] at hmark
      cases hmark
    · rintro rfl
      rw [hc] at hmark
      cases hmark

section Runs

variable {cs : List Char}

theorem forall_isWordChar_map_toLower {value : Bool} (h : ∀ c ∈ cs, isWordChar c = value) :
    ∀ c ∈ cs.map Char.toLower, isWordChar c = value := by
  intro c hc
  obtain ⟨d, hd, rfl⟩ := List.mem_map.mp hc
  rw [isWordChar_toLower, h d hd]

theorem forall_isBlank_map_toLower {value : Bool} (h : ∀ c ∈ cs, isBlank c = value) :
    ∀ c ∈ cs.map Char.toLower, isBlank c = value := by
  intro c hc
  obtain ⟨d, hd, rfl⟩ := List.mem_map.mp hc
  rw [isBlank_toLower, h d hd]

theorem mem_map_toLower_iff {mark : Char} (hmark : mark.isAlpha = false) :
    mark ∈ cs.map Char.toLower ↔ mark ∈ cs := by
  rw [List.mem_map]
  constructor
  · rintro ⟨c, hc, hlower⟩
    exact (toLower_eq_iff hmark c).mp hlower ▸ hc
  · exact fun h => ⟨mark, h, (toLower_eq_iff hmark mark).mpr rfl⟩

theorem forall_head?_map_toLower {p : Char → Bool} (hp : ∀ c, p c.toLower = p c) {value : Bool}
    (h : ∀ c ∈ cs.head?, p c = value) : ∀ c ∈ (cs.map Char.toLower).head?, p c = value := by
  intro c hc
  rw [List.head?_map] at hc
  obtain ⟨d, hd, rfl⟩ := Option.map_eq_some_iff.mp hc
  rw [hp, h d hd]

end Runs

theorem wordBefore_map_toLower (afterWord : Bool) (cs : List Char) :
    wordBefore afterWord (cs.map Char.toLower) = wordBefore afterWord cs := by
  induction cs generalizing afterWord with
  | nil => rfl
  | cons c cs ih => rw [List.map_cons, wordBefore, isWordChar_toLower, ih, wordBefore]

/-- A lowered text starts with the small forms of a keyword, the same blanks, and a small name. -/
theorem NamedBy.map_toLower {word cs blanks name left : List Char}
    (h : NamedBy word cs blanks name left) :
    NamedBy (word.map Char.toLower) (cs.map Char.toLower) (blanks.map Char.toLower)
      (name.map Char.toLower) (left.map Char.toLower) where
  text := by rw [h.text]; simp only [List.map_append]
  blanks_ne := by simpa using h.blanks_ne
  blank := forall_isBlank_map_toLower h.blank
  name_ne := by simpa using h.name_ne
  isWord := forall_isWordChar_map_toLower h.isWord
  ends := forall_head?_map_toLower isWordChar_toLower h.ends

end ContractLens.Text
