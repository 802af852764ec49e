import ContractLens.Proofs.Text.Keyword
/-!
# Places in a text

A search from left to right does not try every place of a text: what a reading took is passed over.
But that is all that is passed over. At every place the search either tries to read, or a reading
that started before the place ends after it (`mem_findAllFrom_or_straddles`).

What may be read at a place hangs on whether a word goes on there (`wordBefore`). A text falls into
as many words as its pieces, where a piece does not go on with the last word of the one before
(`words_append`). Counting words settles what a reading that reaches across the start of a word can
look like: a keyword and a name have two words, so if one reaches across the start of a word, that
word is the name, and stands right behind the keyword (`behind_of_straddles`). So a keyword is
passed over only where it is taken for the name behind another one (`mem_findAll_or_endsWith`).
-/

namespace ContractLens.Text

variable {α : Type} {read : Recogniser α}

/-! ## Words -/

/-- Whether a word character stands before what follows a text. -/
def wordBefore (afterWord : Bool) : List Char → Bool
  | [] => afterWord
  | c :: cs => wordBefore (isWordChar c) cs

theorem wordBefore_append (afterWord : Bool) (cs ds : List Char) :
    wordBefore afterWord (cs ++ ds) = wordBefore (wordBefore afterWord cs) ds := by
  induction cs generalizing afterWord with
  | nil => rfl
  | cons c cs ih => exact ih _

/-- What stands before a text is of no matter after it, unless it is empty. -/
theorem wordBefore_of_ne_nil {cs : List Char} (hne : cs ≠ []) (afterWord other : Bool) :
    wordBefore afterWord cs = wordBefore other cs := by
  cases cs with
  | nil => exact absurd rfl hne
  | cons c cs => rfl

/-- The last character decides. -/
theorem wordBefore_of_forall {value : Bool} {cs : List Char} (hne : cs ≠ [])
    (h : ∀ c ∈ cs, isWordChar c = value) (afterWord : Bool) :
    wordBefore afterWord cs = value := by
  induction cs generalizing afterWord with
  | nil => exact absurd rfl hne
  | cons c cs ih =>
    rw [wordBefore, h c List.mem_cons_self]
    cases cs with
    | nil => rfl
    | cons d cs => exact ih (List.cons_ne_nil d cs) (fun e he => h e (List.mem_cons_of_mem _ he)) _

theorem wordBefore_concat (afterWord : Bool) (cs : List Char) (c : Char) :
    wordBefore afterWord (cs ++ [c]) = isWordChar c := by
  rw [wordBefore_append]
  rfl

/-- No word goes on after blanks where none goes on before them. -/
theorem wordBefore_blanks {blanks : List Char} (h : ∀ c ∈ blanks, isBlank c = true) :
    wordBefore false blanks = false := by
  cases blanks with
  | nil => rfl
  | cons b blanks =>
    exact wordBefore_of_forall (List.cons_ne_nil b blanks)
      (fun c hc => isWordChar_of_isBlank (h c hc)) _

/-- How many words start in a text. -/
def words (afterWord : Bool) : List Char → Nat
  | [] => 0
  | c :: cs => (if isWordChar c && !afterWord then 1 else 0) + words (isWordChar c) cs

theorem words_append (afterWord : Bool) (cs ds : List Char) :
    words afterWord (cs ++ ds) = words afterWord cs + words (wordBefore afterWord cs) ds := by
  induction cs generalizing afterWord with
  | nil => exact (Nat.zero_add _).symm
  | cons c cs ih => rw [List.cons_append, words, ih, words, wordBefore, Nat.add_assoc]

/-- Inside a word none starts. -/
theorem words_of_isWordChar {run : List Char} (h : ∀ c ∈ run, isWordChar c = true) :
    words true run = 0 := by
  induction run with
  | nil => rfl
  | cons c run ih =>
    rw [words, h c List.mem_cons_self, ih fun d hd => h d (List.mem_cons_of_mem _ hd)]
    rfl

/-- A run of word characters is one word. -/
theorem words_run {run : List Char} (hne : run ≠ []) (h : ∀ c ∈ run, isWordChar c = true) :
    words false run = 1 := by
  cases run with
  | nil => exact absurd rfl hne
  | cons c run =>
    rw [words, h c List.mem_cons_self,
      words_of_isWordChar fun d hd => h d (List.mem_cons_of_mem _ hd)]
    rfl

theorem words_blanks {blanks : List Char} (h : ∀ c ∈ blanks, isBlank c = true)
    (afterWord : Bool) : words afterWord blanks = 0 := by
  induction blanks generalizing afterWord with
  | nil => rfl
  | cons b blanks ih =>
    rw [words, isWordChar_of_isBlank (h b List.mem_cons_self),
      ih fun c hc => h c (List.mem_cons_of_mem _ hc)]
    rfl

/-- A text that starts with a word character has a word. -/
theorem words_pos {c : Char} {cs : List Char} (h : isWordChar c = true) :
    0 < words false (c :: cs) := by
  rw [words, h]
  exact Nat.lt_of_lt_of_le Nat.zero_lt_one (Nat.le_add_right _ _)

/-- A word and the blanks after it are one word, and none goes on after them. -/
theorem words_run_blanks {run blanks : List Char} (hne : run ≠ [])
    (hrun : ∀ c ∈ run, isWordChar c = true) (hblanks : blanks ≠ [])
    (hblank : ∀ c ∈ blanks, isBlank c = true) :
    words false (run ++ blanks) = 1 ∧ wordBefore false (run ++ blanks) = false := by
  rw [words_append, words_run hne hrun, words_blanks hblank, wordBefore_append]
  exact ⟨rfl, wordBefore_of_forall hblanks (fun c hc => isWordChar_of_isBlank (hblank c hc)) _⟩

/-- A run of one kind of characters and what follows it are told apart in one way only. -/
theorem run_unique {p : Char → Bool} {run run' rest rest' : List Char}
    (hrun : ∀ c ∈ run, p c = true) (hrest : ∀ c ∈ rest.head?, p c = false)
    (hrun' : ∀ c ∈ run', p c = true) (hrest' : ∀ c ∈ rest'.head?, p c = false)
    (h : run ++ rest = run' ++ rest') : run = run' ∧ rest = rest' := by
  constructor
  · rw [← takeWhile_run hrun hrest, h, takeWhile_run hrun' hrest']
  · rw [← dropWhile_run hrun hrest, h, dropWhile_run hrun' hrest']

/-! ## Where readings are made -/

/-- Every reading is made at some place. -/
theorem exists_place_of_mem {afterWord : Bool} {skip : Nat} {cs : List Char} {a : α}
    (h : a ∈ findAllFrom read afterWord skip cs) :
    ∃ before rest left, cs = before ++ rest ∧
      read (wordBefore afterWord before) rest = some (a, left) := by
  induction cs generalizing afterWord skip with
  | nil => cases h
  | cons c cs ih =>
    have hlater : ∀ skip', a ∈ findAllFrom read (isWordChar c) skip' cs →
        ∃ before rest left, c :: cs = before ++ rest ∧
          read (wordBefore afterWord before) rest = some (a, left) := by
      intro skip' hmem
      obtain ⟨before, rest, left, rfl, hread⟩ := ih hmem
      exact ⟨c :: before, rest, left, rfl, hread⟩
    cases skip with
    | succ skip => exact hlater _ h
    | zero =>
      rw [findAllFrom] at h
      split at h
      · rename_i value left hread
        rcases List.mem_cons.mp h with rfl | h
        · exact ⟨[], _, left, rfl, hread⟩
        · exact hlater _ h
      · exact hlater _ h

/-- The first reading of a text is made where it says. -/
theorem findFirstFrom?_place {afterWord : Bool} {cs : List Char} {found : Found α}
    (h : findFirstFrom? read afterWord cs = some found) :
    ∃ rest, cs = found.before ++ rest ∧
      read (wordBefore afterWord found.before) rest = some (found.value, found.after) := by
  induction cs generalizing afterWord found with
  | nil => cases h
  | cons c cs ih =>
    rw [findFirstFrom?] at h
    split at h
    · rename_i a left hread
      cases h
      exact ⟨c :: cs, rfl, hread⟩
    · obtain ⟨inner, hinner, hfound⟩ := Option.map_eq_some_iff.mp h
      obtain ⟨rest, rfl, hread⟩ := ih hinner
      cases hfound
      exact ⟨rest, rfl, hread⟩

/-- A reading that starts `inner` characters before a place and ends after it. -/
def Straddles (read : Recogniser α) (inner rest : List Char) (a : α) : Prop :=
  inner ≠ [] ∧ ∃ afterWord left, read afterWord (inner ++ rest) = some (a, left) ∧
    left.length < rest.length

/-- **At every place a search tries to read, or a reading reaches across it.** -/
theorem mem_findAllFrom_or_straddles {afterWord : Bool} {skip : Nat} {before rest left : List Char}
    {a : α} (hskip : skip ≤ before.length) (hne : rest ≠ [])
    (hread : read (wordBefore afterWord before) rest = some (a, left)) :
    a ∈ findAllFrom read afterWord skip (before ++ rest) ∨
      ∃ b ∈ findAllFrom read afterWord skip (before ++ rest), ∃ start inner,
        before = start ++ inner ∧ Straddles read inner rest b := by
  induction before generalizing afterWord skip with
  | nil =>
    obtain ⟨c, cs, rfl⟩ := List.exists_cons_of_ne_nil hne
    rw [Nat.le_zero.mp hskip, List.nil_append, findAllFrom, show read afterWord (c :: cs) = _ from
      hread]
    exact .inl List.mem_cons_self
  | cons c before ih =>
    have hlater : ∀ {skip'} {others : List α}, skip' ≤ before.length →
        findAllFrom read (isWordChar c) skip' (before ++ rest) ⊆ others →
        a ∈ others ∨ ∃ b ∈ others, ∃ start inner,
          c :: before = start ++ inner ∧ Straddles read inner rest b := by
      intro skip' others hskip' hsubset
      rcases ih hskip' hread with hmem | ⟨b, hb, start, inner, rfl, hstraddles⟩
      · exact .inl (hsubset hmem)
      · exact .inr ⟨b, hsubset hb, c :: start, inner, rfl, hstraddles⟩
    cases skip with
    | succ skip => exact hlater (Nat.le_of_succ_le_succ hskip) (List.Subset.refl _)
    | zero =>
      rw [List.cons_append, findAllFrom]
      split
      · rename_i b after hfound
        -- the reading found here ends before the place, or reaches across it
        rcases Nat.lt_or_ge after.length rest.length with hacross | hbefore
        · exact .inr ⟨b, List.mem_cons_self, [], c :: before, rfl,
            List.cons_ne_nil c before, _, after, hfound, hacross⟩
        · refine hlater ?_ (List.subset_cons_self _ _)
          rw [List.length_append]
          omega
      · exact hlater (Nat.zero_le _) (List.Subset.refl _)

/-! ## Reaching across the start of a word -/

/-- Of two cuts of one text the later one is inside what follows the earlier. -/
theorem exists_append_of_length_lt {before rest taken left : List Char}
    (h : before ++ rest = taken ++ left) (hlength : left.length < rest.length) :
    ∃ middle, middle ≠ [] ∧ taken = before ++ middle ∧ rest = middle ++ left := by
  rcases List.append_eq_append_iff.mp h with ⟨middle, htaken, hrest⟩ | ⟨middle, hbefore, hleft⟩
  · refine ⟨middle, ?_, htaken, hrest⟩
    rintro rfl
    rw [hrest] at hlength
    exact absurd hlength (Nat.lt_irrefl _)
  · rw [hleft, List.length_append] at hlength
    omega

/-- A text that starts with a word does not start with a mark that is not in it. -/
theorem append_ne_cons {word : List Char} {mark : Char} (hne : word ≠ []) (hmark : mark ∉ word)
    (tail rest : List Char) : word ++ tail ≠ mark :: rest := by
  obtain ⟨c, word, rfl⟩ := List.exists_cons_of_ne_nil hne
  intro htext
  exact hmark ((List.cons.inj htext).1 ▸ List.mem_cons_self)

/-- Of a word, and of a mark that is not in it, the one that stands first is told. -/
theorem exists_append_of_not_mem {word rest middle tail : List Char} {mark : Char}
    (hmark : mark ∉ word) (h : word ++ rest = middle ++ mark :: tail) :
    ∃ second, middle = word ++ second ∧ rest = second ++ mark :: tail := by
  rcases List.append_eq_append_iff.mp h with ⟨second, hmiddle, hrest⟩ | ⟨gap, hword, htail⟩
  · exact ⟨second, hmiddle, hrest⟩
  · cases gap with
    | nil => exact ⟨[], by rw [hword, List.append_nil, List.append_nil], htail.symm⟩
    | cons c gap =>
      obtain ⟨rfl, -⟩ := List.cons.inj htail
      exact absurd (hword ▸ List.mem_append_right _ List.mem_cons_self) hmark

/-- **What reaches across the start of a word is a keyword with that word for a name**: before the
place there are the keyword and blanks. -/
theorem behind_of_straddles {word : String} (hword : ∀ c ∈ word.toList, isWordChar c = true)
    (hne : word.toList ≠ []) {inner run tail : List Char} {value : String} {afterWord : Bool}
    (hstraddles : Straddles (keywordThenName word) inner (run ++ tail) value)
    (hstart : wordBefore afterWord inner = false) (hrun : ∀ c ∈ run, isWordChar c = true)
    (hrun_ne : run ≠ []) (htail : ∀ c ∈ tail.head?, isWordChar c = false) :
    value = String.ofList run ∧ ∃ blanks, blanks ≠ [] ∧ (∀ c ∈ blanks, isBlank c = true) ∧
      inner = word.toList ++ blanks := by
  obtain ⟨hinner, here, left, hread, hlength⟩ := hstraddles
  obtain ⟨-, blanks, name, hnamed, rfl⟩ := keywordThenName_eq_some_iff.mp hread
  obtain ⟨middle, hmiddle, htaken, hrest⟩ : ∃ middle, middle ≠ [] ∧
      (word.toList ++ blanks) ++ name = inner ++ middle ∧ run ++ tail = middle ++ left := by
    refine exists_append_of_length_lt ?_ hlength
    rw [hnamed.text]
    simp only [List.append_assoc]
  -- the name and what lies beyond the place both end where the reading ends
  have hsame : middle = name := by
    rcases List.append_eq_append_iff.mp htaken with ⟨start, hinner', hname⟩ | ⟨gap, hlead, hgap⟩
    · cases start with
      | nil => exact hname.symm
      | cons c start =>
        -- the place is not inside the name, since a word starts there
        have hstarted : ∀ d ∈ c :: start, isWordChar d = true := fun d hd =>
          hnamed.isWord d (hname ▸ List.mem_append_left _ hd)
        rw [hinner', wordBefore_append,
          wordBefore_of_forall (List.cons_ne_nil c start) hstarted] at hstart
        cases hstart
    · cases gap with
      | nil => exact hgap
      | cons c gap =>
        -- nor before the name, since the keyword and its blanks are one word
        obtain ⟨k, ks, rfl⟩ := List.exists_cons_of_ne_nil hinner
        obtain ⟨r, rs, rfl⟩ := List.exists_cons_of_ne_nil hrun_ne
        obtain ⟨w, ws, hw⟩ := List.exists_cons_of_ne_nil hne
        have hc : isWordChar c = true := by
          rw [hgap, List.cons_append, List.cons_append, List.cons_append, List.cons.injEq] at hrest
          exact hrest.1 ▸ hrun r List.mem_cons_self
        have hk : isWordChar k = true := by
          rw [hw, List.cons_append, List.cons_append, List.cons.injEq] at hlead
          exact hlead.1 ▸ hword w (hw ▸ List.mem_cons_self)
        have hone := (words_run_blanks hne hword hnamed.blanks_ne hnamed.blank).1
        rw [hlead, words_append, wordBefore_of_ne_nil hinner false afterWord, hstart] at hone
        have hfirst : 0 < words false (k :: ks) := words_pos hk
        have hsecond : 0 < words false (c :: gap) := words_pos hc
        omega
  rw [hsame] at hrest htaken
  refine ⟨?_, blanks, hnamed.blanks_ne, hnamed.blank, (List.append_cancel_right htaken).symm⟩
  rw [(run_unique hrun htail hnamed.isWord hnamed.ends hrest).1]

/-! ## Keywords that are passed over -/

/-- A text ends with a word and blanks. -/
def EndsWith (word text : List Char) : Prop :=
  ∃ start gap, text = start ++ (word ++ gap) ∧ gap ≠ [] ∧ ∀ c ∈ gap, isBlank c = true

theorem EndsWith.subset {word text : List Char} (h : EndsWith word text) : word ⊆ text := by
  obtain ⟨start, gap, rfl, -, -⟩ := h
  exact fun c hc => List.mem_append_right _ (List.mem_append_left _ hc)

/-- **A search finds a keyword and a name wherever they stand**, unless the keyword stands behind
itself, where it is read for a name. -/
theorem mem_findAll_or_endsWith {word : String} (hword : ∀ c ∈ word.toList, isWordChar c = true)
    (hne : word.toList ≠ []) {before rest left : List Char} {value : String}
    (hread : keywordThenName word (wordBefore false before) rest = some (value, left)) :
    value ∈ findAll (keywordThenName word) (before ++ rest) ∨ EndsWith word.toList before := by
  obtain ⟨hstart, blanks, name, hnamed, -⟩ := keywordThenName_eq_some_iff.mp hread
  have hrest : rest ≠ [] := hnamed.text ▸ List.append_ne_nil_of_left_ne_nil hne _
  rcases mem_findAllFrom_or_straddles (Nat.zero_le _) hrest hread with
    hmem | ⟨found, -, front, inner, hbefore, hstraddles⟩
  · exact .inl hmem
  · right
    have hboundary : wordBefore (wordBefore false front) inner = false := by
      rw [← wordBefore_append, ← hbefore, hstart]
    have hends : ∀ c ∈ (blanks ++ (name ++ left)).head?, isWordChar c = false :=
      forall_head?_append hnamed.blanks_ne
        (fun c hc => isWordChar_of_isBlank (hnamed.blank c hc)) _
    rw [hnamed.text] at hstraddles
    obtain ⟨-, gap, hgap_ne, hgap, hinner⟩ :=
      behind_of_straddles hword hne hstraddles hboundary hword hne hends
    exact ⟨front, gap, hinner ▸ hbefore, hgap_ne, hgap⟩

end ContractLens.Text
