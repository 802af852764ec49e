import ContractLens.Proofs.Text.Seam
/-!
# Breaks

A break is made of blanks, and then a slash or an equals sign, or nothing more. Most readings do not
reach across one: a fixed text without blanks does not (`apart_literal`), and neither does a keyword
with its name (`apart_keywordThenName`), since the name would have to start at the sign.

That a text holds another is a search of it for a fixed text (`contains_eq_occurs`), so that what is
said of searches can be said of both.
-/

namespace ContractLens.Text

variable {α : Type} {read : Recogniser α}

/-! ## Occurrences -/

theorem isSome_findFirstFrom?_iff {afterWord : Bool} {cs : List Char} :
    (findFirstFrom? read afterWord cs).isSome = true ↔ findAllFrom read afterWord 0 cs ≠ [] := by
  induction cs generalizing afterWord with
  | nil => exact ⟨nofun, fun h => absurd rfl h⟩
  | cons c cs ih =>
    rw [findFirstFrom?, findAllFrom]
    cases read afterWord (c :: cs) with
    | none =>
      rw [Option.isSome_map]
      exact ih
    | some found => exact ⟨fun _ => List.cons_ne_nil _ _, fun _ => rfl⟩

/-- A text has a reading where a search finds one. -/
theorem occurs_iff {cs : List Char} : occurs read cs = true ↔ ∃ a, a ∈ findAll read cs := by
  rw [occurs, findFirst?, isSome_findFirstFrom?_iff]
  exact ⟨List.exists_mem_of_ne_nil _, fun ⟨a, ha⟩ => List.ne_nil_of_mem ha⟩

theorem occurs_of_place {start rest : List Char} (hne : rest ≠ [])
    (h : (read (wordBefore false start) rest).isSome = true) :
    occurs read (start ++ rest) = true := by
  obtain ⟨⟨a, left⟩, hread⟩ := Option.isSome_iff_exists.mp h
  rcases mem_findAllFrom_or_straddles (Nat.zero_le _) hne hread with hmem | ⟨b, hmem, -⟩
  · exact occurs_iff.mpr ⟨a, hmem⟩
  · exact occurs_iff.mpr ⟨b, hmem⟩

/-- Reads a fixed text. -/
def literal (part : List Char) : Recogniser Unit := fun _ cs =>
  (dropStart? part cs).map ((), ·)

theorem isSome_findFirstFrom?_literal {part : List Char} (hne : part ≠ []) (afterWord : Bool)
    (cs : List Char) :
    (findFirstFrom? (literal part) afterWord cs).isSome = contains part cs := by
  induction cs generalizing afterWord with
  | nil =>
    obtain ⟨p, ps, rfl⟩ := List.exists_cons_of_ne_nil hne
    rfl
  | cons c cs ih =>
    rw [findFirstFrom?, contains, literal]
    cases dropStart? part (c :: cs) with
    | none =>
      dsimp only [Option.map_none]
      rw [Option.isSome_map, Option.isSome_none, Bool.false_or]
      exact ih _
    | some rest => rfl

/-- A text holds another where that one can be read. -/
theorem contains_eq_occurs {part : List Char} (hne : part ≠ []) (cs : List Char) :
    contains part cs = occurs (literal part) cs :=
  (isSome_findFirstFrom?_literal hne false cs).symm

/-! ## Breaks -/

/-- A sign that a line of rules is drawn with. -/
def IsRule (c : Char) : Prop := c = '/' ∨ c = '='

instance (c : Char) : Decidable (IsRule c) := inferInstanceAs (Decidable (c = '/' ∨ c = '='))

theorem IsRule.not_isWordChar {c : Char} (h : IsRule c) : isWordChar c = false := by
  rcases h with rfl | rfl <;> decide

/-- A text that starts with blanks and goes on, if at all, with a rule. -/
def Break (cs : List Char) : Prop :=
  ∃ blanks tail, cs = blanks ++ tail ∧ blanks ≠ [] ∧ (∀ c ∈ blanks, isBlank c = true) ∧
    ∀ c ∈ tail.head?, isBlank c = false ∧ IsRule c

/-- A run that ends in a text, or just before what follows it, is the same when that follows. -/
theorem run_append (p : Char → Bool) (cs : List Char) {rest : List Char}
    (h : cs.dropWhile p ≠ [] ∨ ∀ c ∈ rest.head?, p c = false) :
    (cs ++ rest).takeWhile p = cs.takeWhile p ∧
      (cs ++ rest).dropWhile p = cs.dropWhile p ++ rest := by
  have hrun : ∀ c ∈ cs.takeWhile p, p c = true := fun c hc => List.mem_takeWhile_imp hc
  have hends : ∀ c ∈ (cs.dropWhile p ++ rest).head?, p c = false := by
    intro c hc
    cases hleft : cs.dropWhile p with
    | nil =>
      rw [hleft, List.nil_append] at hc
      exact h.resolve_left (fun hne => hne hleft) c hc
    | cons d left =>
      rw [hleft, List.cons_append, List.head?_cons] at hc
      exact head?_dropWhile_eq_false p cs c (by rw [hleft]; exact hc)
  have hwhole : cs ++ rest = cs.takeWhile p ++ (cs.dropWhile p ++ rest) := by
    rw [← List.append_assoc, List.takeWhile_append_dropWhile]
  rw [hwhole]
  exact ⟨takeWhile_run hrun hends, dropWhile_run hrun hends⟩

section Break

variable {rest : List Char}

theorem Break.head (h : Break rest) : ∀ c ∈ rest.head?, isBlank c = true := by
  obtain ⟨blanks, tail, rfl, hne, hblank, -⟩ := h
  exact forall_head?_append hne hblank tail

/-- Blanks before a break belong to it. -/
theorem Break.append {blanks : List Char} (hblank : ∀ c ∈ blanks, isBlank c = true)
    (h : Break rest) : Break (blanks ++ rest) := by
  obtain ⟨others, tail, rfl, hne, hothers, htail⟩ := h
  refine ⟨blanks ++ others, tail, (List.append_assoc _ _ _).symm, ?_, fun c hc => ?_, htail⟩
  · exact List.append_ne_nil_of_right_ne_nil _ hne
  · rcases List.mem_append.mp hc with hc | hc
    · exact hblank c hc
    · exact hothers c hc

/-- Where a break goes on beyond its blanks there is a rule. -/
theorem Break.exists_isRule {front : List Char} (h : Break (front ++ rest)) {c : Char}
    (hc : c ∈ front) (hnone : isBlank c = false) : ∃ d ∈ front, IsRule d := by
  obtain ⟨blanks, tail, htext, -, hblank, htail⟩ := h
  rcases List.append_eq_append_iff.mp htext with ⟨others, rfl, -⟩ | ⟨others, rfl, rfl⟩
  · rw [hblank c (List.mem_append_left _ hc)] at hnone
    cases hnone
  · rcases List.mem_append.mp hc with hc | hc
    · rw [hblank c hc] at hnone
      cases hnone
    · obtain ⟨d, others, rfl⟩ := List.exists_cons_of_ne_nil (List.ne_nil_of_mem hc)
      exact ⟨d, List.mem_append_right _ List.mem_cons_self, (htail d rfl).2⟩

/-- Behind the blanks of a break there is a rule, or nothing. -/
theorem Break.dropWhile (h : Break rest) : ∀ c ∈ (rest.dropWhile isBlank).head?, IsRule c := by
  obtain ⟨blanks, tail, rfl, -, hblank, htail⟩ := h
  rw [dropWhile_run hblank fun c hc => (htail c hc).1]
  exact fun c hc => (htail c hc).2

/-- What is left when the blanks before and in a break are dropped: some of the text in front, or
nothing that goes on with anything but a rule. -/
theorem dropWhile_append_break (h : Break rest) (cs : List Char) :
    cs.dropWhile isBlank ≠ [] ∧ (cs ++ rest).dropWhile isBlank = cs.dropWhile isBlank ++ rest ∨
      cs.dropWhile isBlank = [] ∧ ∀ c ∈ ((cs ++ rest).dropWhile isBlank).head?, IsRule c := by
  rw [List.dropWhile_append]
  split
  · rename_i hnone
    exact .inr ⟨List.isEmpty_iff.mp hnone, h.dropWhile⟩
  · rename_i hsome
    exact .inl ⟨fun hnil => hsome (List.isEmpty_iff.mpr hnil), rfl⟩

theorem dropStart?_append {part : List Char} (hpart : ∀ c ∈ rest.head?, c ∉ part)
    (cs : List Char) : dropStart? part (cs ++ rest) = (dropStart? part cs).map (· ++ rest) := by
  induction part generalizing cs with
  | nil => rfl
  | cons p part ih =>
    cases cs with
    | nil =>
      cases rest with
      | nil => rfl
      | cons c rest =>
        have hne : (p == c) = false :=
          beq_eq_false_iff_ne.mpr fun he => hpart c rfl (he ▸ List.mem_cons_self)
        rw [List.nil_append, dropStart?, dropStart?, hne]
        rfl
    | cons c cs =>
      rw [List.cons_append, dropStart?, dropStart?]
      split
      · exact ih (fun d hd hmem => hpart d hd (List.mem_cons_of_mem _ hmem)) cs
      · rfl

theorem takeWord?_append (hrest : ∀ c ∈ rest.head?, isWordChar c = false) (cs : List Char) :
    takeWord? (cs ++ rest) = (takeWord? cs).map fun found => (found.1, found.2 ++ rest) := by
  obtain ⟨htake, hdrop⟩ := run_append isWordChar cs (.inr hrest)
  rw [takeWord?, takeWord?, htake, hdrop]
  split <;> rfl

/-- No name starts behind the blanks of a break. -/
theorem takeWord?_of_isRule {cs : List Char} (h : ∀ c ∈ cs.head?, IsRule c) :
    takeWord? cs = none := by
  cases cs with
  | nil => rfl
  | cons c cs =>
    rw [takeWord?, List.takeWhile_cons_of_neg (by rw [(h c rfl).not_isWordChar]; decide)]

/-- Blanks and a name do not reach across a break. -/
theorem blanks_name_append (h : Break rest) (cs : List Char) :
    (dropBlanks? (cs ++ rest)).bind takeWord? =
      ((dropBlanks? cs).bind takeWord?).map fun found => (found.1, found.2 ++ rest) := by
  cases cs with
  | nil =>
    obtain ⟨b, bs, hrest⟩ : ∃ b bs, rest = b :: bs := by
      obtain ⟨blanks, tail, rfl, hne, -⟩ := h
      exact List.exists_cons_of_ne_nil (List.append_ne_nil_of_left_ne_nil hne _)
    have hb : isBlank b = true := h.head b (by rw [hrest]; rfl)
    have hdrop : dropBlanks? rest = some (rest.dropWhile isBlank) := by
      rw [hrest, dropBlanks?, if_pos hb, List.dropWhile_cons_of_pos hb]
    rw [List.nil_append, hdrop, Option.bind_some, takeWord?_of_isRule h.dropWhile]
    rfl
  | cons c cs =>
    rw [List.cons_append, dropBlanks?, dropBlanks?]
    split
    · rw [Option.bind_some, Option.bind_some]
      rcases dropWhile_append_break h cs with ⟨-, hsome⟩ | ⟨hnone, hrule⟩
      · rw [hsome]
        exact takeWord?_append (fun d hd => isWordChar_of_isBlank (h.head d hd)) _
      · rw [hnone, takeWord?_of_isRule hrule]
        rfl
    · rfl

/-- **A fixed text without blanks is not read across a break.** -/
theorem apart_literal {part : List Char} (hpart : ∀ c ∈ part, isBlank c = false)
    (h : Break rest) (afterWord : Bool) (cs : List Char) :
    Apart (literal part) afterWord cs rest := by
  rintro before inner rfl -
  have hhead : ∀ d ∈ rest.head?, d ∉ part := by
    intro d hd hmem
    have hblank := h.head d hd
    rw [hpart d hmem] at hblank
    cases hblank
  rw [literal, literal, dropStart?_append hhead, Option.map_map, Option.map_map]
  rfl

theorem keywordThenName_eq_bind (word : String) (cs : List Char) :
    keywordThenName word false cs = (dropStart? word.toList cs).bind fun rest =>
      ((dropBlanks? rest).bind takeWord?).map fun found => (String.ofList found.1, found.2) := by
  rw [keywordThenName, keyword]
  cases dropStart? word.toList cs with
  | none => rfl
  | some rest =>
    cases hblanks : dropBlanks? rest with
    | none => simp [hblanks]
    | some body => cases hname : takeWord? body <;> simp [hblanks, hname]

/-- **A keyword and its name are not read across a break.** -/
theorem apart_keywordThenName {word : String} (hword : ∀ c ∈ word.toList, isBlank c = false)
    (h : Break rest) (afterWord : Bool) (cs : List Char) :
    Apart (keywordThenName word) afterWord cs rest := by
  rintro before inner rfl -
  cases wordBefore afterWord before with
  | true => rfl
  | false =>
    have hhead : ∀ d ∈ rest.head?, d ∉ word.toList := by
      intro d hd hmem
      have hblank := h.head d hd
      rw [hword d hmem] at hblank
      cases hblank
    rw [keywordThenName_eq_bind, keywordThenName_eq_bind, dropStart?_append hhead]
    cases dropStart? word.toList inner with
    | none => rfl
    | some left =>
      rw [Option.map_some, Option.bind_some, Option.bind_some, blanks_name_append h]
      simp only [Option.map_map]
      rfl

end Break

end ContractLens.Text
