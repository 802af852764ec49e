import ContractLens.Text.Blank
import ContractLens.Text.Scan
import Mathlib.Data.List.TakeWhile
/-!
# A keyword and a name

What it means for a text to start with a keyword, blanks and a name is said by `NamedBy` without
reading anything: the four parts follow each other, and the name ends where the word characters end.
`keywordThenName_eq_some_iff` says that reading finds just this. No blank is a word character
(`isWordChar_of_isBlank`), which is why the parts cannot be cut in two ways.
-/

namespace ContractLens.Text

/-! ## Blanks and word characters -/

/-- The codes of the blanks. -/
def blankCodes : List Nat :=
  32 :: (List.range' 9 5 ++ List.range' 0x1C 4 ++ [0x85, 0xA0, 0x1680] ++ List.range' 0x2000 11 ++
    [0x2028, 0x2029, 0x202F, 0x205F, 0x3000])

theorem toNat_mem_blankCodes {c : Char} (h : isBlank c = true) : c.toNat ∈ blankCodes := by
  simp only [isBlank, Bool.or_eq_true, Bool.and_eq_true, decide_eq_true_eq, beq_iff_eq] at h
  simp only [blankCodes, List.mem_cons, List.mem_append, List.mem_range'_1, List.not_mem_nil,
    or_false]
  omega

theorem not_isWordChar_of_blankCodes :
    ∀ code ∈ blankCodes, isWordChar (Char.ofNat code) = false := by
  decide +kernel

/-- **No blank is a word character.** -/
theorem isWordChar_of_isBlank {c : Char} (h : isBlank c = true) : isWordChar c = false := by
  have hcode := not_isWordChar_of_blankCodes c.toNat (toNat_mem_blankCodes h)
  rwa [Char.ofNat_toNat] at hcode

theorem isBlank_of_isWordChar {c : Char} (h : isWordChar c = true) : isBlank c = false := by
  refine Bool.eq_false_iff.mpr fun hblank => ?_
  rw [isWordChar_of_isBlank hblank] at h
  cases h

/-- A fact about the characters of a text, checked on each of them. -/
theorem forall_mem_of_all {p : Char → Prop} [DecidablePred p] {cs : List Char}
    (h : (cs.all fun c => decide (p c)) = true) : ∀ c ∈ cs, p c :=
  fun c hc => of_decide_eq_true (List.all_eq_true.mp h c hc)

/-! ## Parts of a text -/

theorem dropStart?_eq_some_iff {part cs rest : List Char} :
    dropStart? part cs = some rest ↔ cs = part ++ rest := by
  induction part generalizing cs with
  | nil => exact ⟨fun h => Option.some.inj h, fun h => congrArg some h⟩
  | cons p part ih =>
    cases cs with
    | nil => exact ⟨nofun, nofun⟩
    | cons c cs =>
      rw [dropStart?, List.cons_append, List.cons.injEq]
      split
      · rename_i hp
        have hp : p = c := by simpa using hp
        exact ⟨fun h => ⟨hp.symm, ih.mp h⟩, fun h => ih.mpr h.2⟩
      · rename_i hp
        exact ⟨nofun, fun h => absurd (by simp [h.1]) hp⟩

theorem isSome_dropStart?_iff {part cs : List Char} :
    (dropStart? part cs).isSome = true ↔ part <+: cs := by
  rw [Option.isSome_iff_exists]
  constructor
  · rintro ⟨rest, h⟩
    exact ⟨rest, (dropStart?_eq_some_iff.mp h).symm⟩
  · rintro ⟨rest, h⟩
    exact ⟨rest, dropStart?_eq_some_iff.mpr h.symm⟩

/-- **A text holds another where that one stands in it.** -/
theorem contains_iff {part cs : List Char} : contains part cs = true ↔ part <:+: cs := by
  induction cs with
  | nil =>
    rw [contains, Bool.or_false, isSome_dropStart?_iff, List.prefix_nil, List.infix_nil]
  | cons c cs ih =>
    rw [contains, Bool.or_eq_true, isSome_dropStart?_iff, ih, List.infix_cons_iff]

section Heads

variable {q : Char → Prop}

/-- A text in which a character stands first starts with that. -/
theorem forall_head?_cons {c : Char} (h : q c) (rest : List Char) :
    ∀ d ∈ (c :: rest).head?, q d := by
  intro d hd
  rwa [← Option.mem_some_iff.mp hd]

/-- A text in which a run stands first starts with a character of it. -/
theorem forall_head?_append {run : List Char} (hne : run ≠ []) (h : ∀ c ∈ run, q c)
    (rest : List Char) : ∀ c ∈ (run ++ rest).head?, q c := by
  obtain ⟨c, run, rfl⟩ := List.exists_cons_of_ne_nil hne
  exact forall_head?_cons (h c List.mem_cons_self) _

end Heads

section Runs

variable {p : Char → Bool} {run rest : List Char}

theorem takeWhile_run (hrun : ∀ c ∈ run, p c = true) (hrest : ∀ c ∈ rest.head?, p c = false) :
    (run ++ rest).takeWhile p = run := by
  rw [List.takeWhile_append_of_pos hrun]
  cases rest with
  | nil => exact List.append_nil run
  | cons c rest => rw [List.takeWhile_cons_of_neg (by simp [hrest c rfl]), List.append_nil]

theorem dropWhile_run (hrun : ∀ c ∈ run, p c = true) (hrest : ∀ c ∈ rest.head?, p c = false) :
    (run ++ rest).dropWhile p = rest := by
  rw [List.dropWhile_append_of_pos hrun]
  cases rest with
  | nil => rfl
  | cons c rest => exact List.dropWhile_cons_of_neg (by simp [hrest c rfl])

theorem head?_dropWhile_eq_false (p : Char → Bool) (cs : List Char) :
    ∀ c ∈ (cs.dropWhile p).head?, p c = false := by
  intro c hc
  have := List.head?_dropWhile_not p cs
  rw [Option.mem_def.mp hc] at this
  simpa using this

end Runs

theorem dropBlanks?_eq_some_iff {cs rest : List Char} :
    dropBlanks? cs = some rest ↔ ∃ blanks, cs = blanks ++ rest ∧ blanks ≠ [] ∧
      (∀ c ∈ blanks, isBlank c = true) ∧ ∀ c ∈ rest.head?, isBlank c = false := by
  constructor
  · intro h
    cases cs with
    | nil => cases h
    | cons c cs =>
      rw [dropBlanks?] at h
      split at h
      · rename_i hc
        cases h
        refine ⟨c :: cs.takeWhile isBlank, ?_, nofun, ?_, head?_dropWhile_eq_false _ _⟩
        · rw [List.cons_append, List.takeWhile_append_dropWhile]
        · intro b hb
          rcases List.mem_cons.mp hb with rfl | hb
          · exact hc
          · exact List.mem_takeWhile_imp hb
      · cases h
  · rintro ⟨blanks, rfl, hne, hblanks, hrest⟩
    obtain ⟨b, bs, rfl⟩ := List.exists_cons_of_ne_nil hne
    rw [List.cons_append, dropBlanks?, if_pos (hblanks b List.mem_cons_self),
      dropWhile_run (fun c hc => hblanks c (List.mem_cons_of_mem _ hc)) hrest]

theorem takeWord?_eq_some_iff {cs word rest : List Char} :
    takeWord? cs = some (word, rest) ↔ cs = word ++ rest ∧ word ≠ [] ∧
      (∀ c ∈ word, isWordChar c = true) ∧ ∀ c ∈ rest.head?, isWordChar c = false := by
  constructor
  · intro h
    rw [takeWord?] at h
    split at h
    · cases h
    · rename_i hword
      cases h
      exact ⟨List.takeWhile_append_dropWhile.symm, fun e => hword e,
        fun c hc => List.mem_takeWhile_imp hc, head?_dropWhile_eq_false _ _⟩
  · rintro ⟨rfl, hne, hword, hrest⟩
    rw [takeWord?, takeWhile_run hword hrest, dropWhile_run hword hrest]
    split
    · exact absurd rfl hne
    · rfl

/-! ## A keyword, blanks and a name -/

/-- A text starts with a keyword, blanks and a name, and goes on with no word character. -/
structure NamedBy (word cs blanks name left : List Char) : Prop where
  /-- The parts follow each other. -/
  text : cs = word ++ (blanks ++ (name ++ left))
  /-- There are blanks after the keyword. -/
  blanks_ne : blanks ≠ []
  /-- They are blanks. -/
  blank : ∀ c ∈ blanks, isBlank c = true
  /-- There is a name. -/
  name_ne : name ≠ []
  /-- It is made of word characters. -/
  isWord : ∀ c ∈ name, isWordChar c = true
  /-- It ends where these end. -/
  ends : ∀ c ∈ left.head?, isWordChar c = false

/-- A text of words and blanks. -/
def Phrase (cs : List Char) : Prop := ∀ c ∈ cs, isWordChar c = true ∨ isBlank c = true

theorem Phrase.not_mem {cs : List Char} (h : Phrase cs) {mark : Char}
    (hmark : ¬ (isWordChar mark = true ∨ isBlank mark = true)) : mark ∉ cs :=
  fun hmem => hmark (h mark hmem)

theorem NamedBy.phrase {word cs blanks name left : List Char} (h : NamedBy word cs blanks name left)
    (hword : ∀ c ∈ word, isWordChar c = true) : Phrase (word ++ (blanks ++ name)) := by
  intro c hc
  simp only [List.mem_append] at hc
  rcases hc with hc | hc | hc
  · exact .inl (hword c hc)
  · exact .inr (h.blank c hc)
  · exact .inl (h.isWord c hc)

theorem keyword_eq_some_iff {word : String} {afterWord : Bool} {cs rest : List Char} :
    keyword word afterWord cs = some ((), rest) ↔
      afterWord = false ∧ cs = word.toList ++ rest := by
  rw [keyword]
  cases afterWord with
  | true => exact ⟨nofun, nofun⟩
  | false =>
    rw [if_neg (by simp), Option.map_eq_some_iff]
    constructor
    · rintro ⟨after, hdrop, hrest⟩
      cases hrest
      exact ⟨rfl, dropStart?_eq_some_iff.mp hdrop⟩
    · rintro ⟨-, htext⟩
      exact ⟨rest, dropStart?_eq_some_iff.mpr htext, rfl⟩

theorem wholeWord_eq_some_iff {word : String} {afterWord : Bool} {cs rest : List Char} :
    wholeWord word afterWord cs = some ((), rest) ↔
      afterWord = false ∧ cs = word.toList ++ rest ∧ ∀ c ∈ rest.head?, isWordChar c = false := by
  rw [wholeWord]
  constructor
  · intro h
    split at h
    · rename_i after hkeyword
      obtain ⟨hafterWord, hcs⟩ := keyword_eq_some_iff.mp hkeyword
      split at h
      · cases h
      · rename_i hhead
        cases h
        refine ⟨hafterWord, hcs, fun c hc => ?_⟩
        rw [hc] at hhead
        exact Bool.eq_false_iff.mpr hhead
    · cases h
  · rintro ⟨hafterWord, hcs, hhead⟩
    rw [keyword_eq_some_iff.mpr ⟨hafterWord, hcs⟩]
    cases rest with
    | nil => rfl
    | cons c rest =>
      dsimp only
      rw [List.head?_cons, Option.any_some, hhead c rfl]
      rfl

/-- **Reading a keyword and a name finds them where they stand**, at the start of a word. -/
theorem keywordThenName_eq_some_iff {word : String} {afterWord : Bool} {cs left : List Char}
    {value : String} :
    keywordThenName word afterWord cs = some (value, left) ↔ afterWord = false ∧
      ∃ blanks name, NamedBy word.toList cs blanks name left ∧ value = String.ofList name := by
  simp only [keywordThenName, Option.bind_eq_bind, Option.bind_eq_some_iff]
  constructor
  · rintro ⟨⟨⟨⟩, first⟩, hword, second, hblanks, ⟨name, third⟩, hname, hvalue⟩
    cases hvalue
    obtain ⟨rfl, rfl⟩ := keyword_eq_some_iff.mp hword
    obtain ⟨blanks, rfl, hne, hblank, -⟩ := dropBlanks?_eq_some_iff.mp hblanks
    obtain ⟨rfl, hname, hisWord, hends⟩ := takeWord?_eq_some_iff.mp hname
    exact ⟨rfl, blanks, name, ⟨rfl, hne, hblank, hname, hisWord, hends⟩, rfl⟩
  · rintro ⟨rfl, blanks, name, h, rfl⟩
    -- the blanks end at the name, whose first character is none
    have hstart : ∀ c ∈ (name ++ left).head?, isBlank c = false :=
      forall_head?_append h.name_ne (fun c hc => isBlank_of_isWordChar (h.isWord c hc)) _
    exact ⟨((), blanks ++ (name ++ left)), keyword_eq_some_iff.mpr ⟨rfl, h.text⟩, name ++ left,
      dropBlanks?_eq_some_iff.mpr ⟨blanks, rfl, h.blanks_ne, h.blank, hstart⟩, (name, left),
      takeWord?_eq_some_iff.mpr ⟨rfl, h.name_ne, h.isWord, h.ends⟩, rfl⟩

end ContractLens.Text
