import ContractLens.Proofs.Text.Lines
import ContractLens.Proofs.Text.Place
import Mathlib.Algebra.Ring.Nat
/-!
# Counting the readings of a text

A search goes through a text from left to right and takes every reading that it comes upon, so that
a reading may swallow the start of another one. Where a reading that starts later ends no sooner
(`Orderly`) this loses nothing: a search that starts sooner finds at least as much
(`countFrom_antitone`), since each of its readings ends no later than the corresponding one. So a
text has at least as many readings as two pieces of it together (`count_separated`), although a
reading of the whole may reach from one piece into the other. Readings of a keyword and a name are
orderly (`orderly_keywordThenName`).
-/

namespace ContractLens.Text

variable {α : Type} {read : Recogniser α}

/-- How many readings a search finds that starts after some characters. -/
def countFrom (read : Recogniser α) (afterWord : Bool) (skip : Nat) (cs : List Char) : Nat :=
  (findAllFrom read afterWord skip cs).length

/-- How many readings a text has. -/
def count (read : Recogniser α) (cs : List Char) : Nat := countFrom read false 0 cs

theorem countFrom_skip (read : Recogniser α) (afterWord : Bool) (skip : Nat) (c : Char)
    (cs : List Char) :
    countFrom read afterWord (skip + 1) (c :: cs) = countFrom read (isWordChar c) skip cs := rfl

theorem countFrom_of_none {afterWord : Bool} {c : Char} {cs : List Char}
    (h : read afterWord (c :: cs) = none) :
    countFrom read afterWord 0 (c :: cs) = countFrom read (isWordChar c) 0 cs := by
  rw [countFrom, findAllFrom, h, countFrom]

theorem countFrom_of_some {afterWord : Bool} {c : Char} {cs left : List Char} {a : α}
    (h : read afterWord (c :: cs) = some (a, left)) :
    countFrom read afterWord 0 (c :: cs) =
      countFrom read (isWordChar c) (cs.length - left.length) cs + 1 := by
  rw [countFrom, findAllFrom, h, countFrom, List.length_cons]

/-! ## Starting sooner finds no less -/

/-- No reading that starts within the next `reach` characters ends before them. -/
def EndsBeyond (read : Recogniser α) : Bool → Nat → List Char → Prop
  | _, 0, _ => True
  | _, _ + 1, [] => True
  | afterWord, reach + 1, c :: cs =>
    (∀ a left, read afterWord (c :: cs) = some (a, left) → reach ≤ cs.length - left.length) ∧
      EndsBeyond read (isWordChar c) reach cs

/-- A recogniser whose readings can be counted piece by piece. -/
structure Orderly (read : Recogniser α) : Prop where
  /-- A reading that starts inside another ends no sooner than that one. -/
  ends : ∀ {afterWord c cs a left}, read afterWord (c :: cs) = some (a, left) →
    EndsBeyond read (isWordChar c) (cs.length - left.length) cs
  /-- A reading is not changed by what follows the text, where that does not go on with a word. -/
  stays : ∀ {afterWord cs a left mark after}, isWordChar mark = false →
    read afterWord cs = some (a, left) →
      read afterWord (cs ++ mark :: after) = some (a, left ++ mark :: after)

/-- A search that starts sooner finds no less; and of readings that all end beyond a place, a search
that starts before that place finds at most one more than a search that starts there. -/
theorem countFrom_bounds (hread : Orderly read) (cs : List Char) :
    (∀ afterWord skip later, skip ≤ later →
      countFrom read afterWord later cs ≤ countFrom read afterWord skip cs) ∧
    ∀ afterWord skip reach, skip ≤ reach → EndsBeyond read afterWord reach cs →
      countFrom read afterWord skip cs ≤ countFrom read afterWord reach cs + 1 := by
  induction cs with
  | nil => exact ⟨fun _ _ _ _ => Nat.le_refl _, fun _ _ _ _ _ => Nat.zero_le _⟩
  | cons c cs ih =>
    obtain ⟨hsooner, hinside⟩ := ih
    constructor
    · intro afterWord skip later hle
      cases later with
      | zero =>
        rw [Nat.le_zero.mp hle]
      | succ later =>
        rw [countFrom_skip]
        cases skip with
        | succ skip => exact hsooner _ _ _ (Nat.le_of_succ_le_succ hle)
        | zero =>
          cases hfound : read afterWord (c :: cs) with
          | none =>
            rw [countFrom_of_none hfound]
            exact hsooner _ _ _ (Nat.zero_le later)
          | some found =>
            obtain ⟨a, left⟩ := found
            rw [countFrom_of_some hfound]
            -- the later search starts after the reading found here, or inside it
            rcases Nat.le_total (cs.length - left.length) later with hafter | hwithin
            · exact Nat.le_succ_of_le (hsooner _ _ _ hafter)
            · exact hinside _ _ _ hwithin (hread.ends hfound)
    · intro afterWord skip reach hle hends
      cases reach with
      | zero =>
        rw [Nat.le_zero.mp hle]
        exact Nat.le_succ _
      | succ reach =>
        obtain ⟨hhere, hrest⟩ := hends
        rw [countFrom_skip]
        cases skip with
        | succ skip => exact hinside _ _ _ (Nat.le_of_succ_le_succ hle) hrest
        | zero =>
          cases hfound : read afterWord (c :: cs) with
          | none =>
            rw [countFrom_of_none hfound]
            exact hinside _ _ _ (Nat.zero_le reach) hrest
          | some found =>
            obtain ⟨a, left⟩ := found
            rw [countFrom_of_some hfound]
            -- the reading found here is the one; what follows it starts beyond the place
            exact Nat.succ_le_succ (hsooner _ _ _ (hhere a left hfound))

/-- **A search that starts sooner finds no less.** -/
theorem countFrom_antitone (hread : Orderly read) (afterWord : Bool) {skip later : Nat}
    (h : skip ≤ later) (cs : List Char) :
    countFrom read afterWord later cs ≤ countFrom read afterWord skip cs :=
  (countFrom_bounds hread cs).1 afterWord skip later h

/-! ## Pieces of a text -/

theorem countFrom_tail_le (hread : Orderly read) (afterWord : Bool) (c : Char) (cs : List Char) :
    countFrom read (isWordChar c) 0 cs ≤ countFrom read afterWord 0 (c :: cs) :=
  countFrom_antitone hread afterWord (Nat.zero_le 1) (c :: cs)

theorem countFrom_separated (hread : Orderly read) {mark : Char} (hmark : isWordChar mark = false)
    (right : List Char) {left : List Char} {afterWord : Bool} {skip : Nat}
    (hskip : skip ≤ left.length) :
    countFrom read afterWord skip left + count read right ≤
      countFrom read afterWord skip (left ++ mark :: right) := by
  induction left generalizing afterWord skip with
  | nil =>
    have htail := countFrom_tail_le hread afterWord mark right
    rw [hmark] at htail
    rw [Nat.le_zero.mp hskip]
    have hnil : countFrom read afterWord 0 [] = 0 := rfl
    rw [hnil, Nat.zero_add]
    exact htail
  | cons c left ih =>
    cases skip with
    | succ skip => exact ih (Nat.le_of_succ_le_succ hskip)
    | zero =>
      cases hfound : read afterWord (c :: left) with
      | none =>
        -- the whole may have a reading here that reaches across the mark; to go past it is no gain
        rw [countFrom_of_none hfound]
        exact Nat.le_trans (ih (Nat.zero_le _)) (countFrom_tail_le hread afterWord c _)
      | some found =>
        obtain ⟨a, rest⟩ := found
        have hwhole : read afterWord (c :: (left ++ mark :: right)) =
            some (a, rest ++ mark :: right) := hread.stays hmark hfound
        rw [List.cons_append, countFrom_of_some hfound, countFrom_of_some hwhole,
          List.length_append, List.length_append, Nat.add_sub_add_right]
        have hskip' : left.length - rest.length ≤ left.length := Nat.sub_le _ _
        exact (Nat.add_right_comm ..).trans_le (Nat.succ_le_succ (ih hskip'))

/-- **A text has at least as many readings as the pieces before and after a mark together.** -/
theorem count_separated (hread : Orderly read) {mark : Char} (hmark : isWordChar mark = false)
    (left right : List Char) :
    count read left + count read right ≤ count read (left ++ mark :: right) :=
  countFrom_separated hread hmark right (Nat.zero_le _)

/-- What follows a mark has no more readings than the text. -/
theorem count_after_le (hread : Orderly read) {mark : Char} (hmark : isWordChar mark = false)
    (left right : List Char) : count read right ≤ count read (left ++ mark :: right) :=
  Nat.le_trans (Nat.le_add_left _ _) (count_separated hread hmark left right)

/-- What stands before a mark has no more readings than the text. -/
theorem count_before_le (hread : Orderly read) {mark : Char} (hmark : isWordChar mark = false)
    (left right : List Char) : count read left ≤ count read (left ++ mark :: right) :=
  Nat.le_trans (Nat.le_add_right _ _) (count_separated hread hmark left right)

/-- Pieces with marks between them have together no more readings than the text. -/
theorem sum_count_le_intercalate (hread : Orderly read) {mark : Char}
    (hmark : isWordChar mark = false) (parts : List (List Char)) :
    (parts.map (count read)).sum ≤ count read (List.intercalate [mark] parts) := by
  induction parts with
  | nil => exact Nat.le_refl _
  | cons part parts ih =>
    cases parts with
    | nil =>
      rw [List.intercalate_singleton, List.map_singleton, List.sum_singleton]
    | cons other parts =>
      rw [List.intercalate_cons_cons, List.append_assoc, List.singleton_append, List.map_cons,
        List.sum_cons]
      exact Nat.le_trans (Nat.add_le_add_left ih _) (count_separated hread hmark _ _)

theorem count_append_blanks_le (hread : Orderly read) (cs : List Char) {blanks : List Char}
    (h : ∀ c ∈ blanks, isBlank c = true) : count read cs ≤ count read (cs ++ blanks) := by
  cases blanks with
  | nil => rw [List.append_nil]
  | cons b blanks =>
    exact count_before_le hread (isWordChar_of_isBlank (h b List.mem_cons_self)) cs blanks

theorem count_blanks_append_le (hread : Orderly read) (cs : List Char) {blanks : List Char}
    (h : ∀ c ∈ blanks, isBlank c = true) : count read cs ≤ count read (blanks ++ cs) := by
  induction blanks with
  | nil => exact Nat.le_refl _
  | cons b blanks ih =>
    have hmark := isWordChar_of_isBlank (h b List.mem_cons_self)
    exact Nat.le_trans (ih fun c hc => h c (List.mem_cons_of_mem _ hc))
      (count_after_le hread hmark [] (blanks ++ cs))

/-- Trimming brings no readings. -/
theorem count_trim_le (hread : Orderly read) (cs : List Char) :
    count read (trim cs) ≤ count read cs := by
  obtain ⟨before, after, hcs, hbefore, hafter⟩ := exists_trim cs
  calc count read (trim cs)
      ≤ count read (trim cs ++ after) := count_append_blanks_le hread _ hafter
    _ ≤ count read (before ++ (trim cs ++ after)) := count_blanks_append_le hread _ hbefore
    _ = count read cs := by rw [← hcs]

/-! ## A keyword and a name -/

section Keyword

variable {word : String}

/-- Inside a word nothing is read. -/
theorem endsBeyond_word {run rest : List Char} {reach : Nat}
    (hrun : ∀ c ∈ run, isWordChar c = true)
    (h : EndsBeyond (keywordThenName word) true reach rest) :
    EndsBeyond (keywordThenName word) true (run.length + reach) (run ++ rest) := by
  induction run with
  | nil =>
    rw [List.length_nil, Nat.zero_add]
    exact h
  | cons c run ih =>
    rw [List.length_cons, Nat.succ_add, List.cons_append]
    refine ⟨(fun a left hfound => nomatch hfound), ?_⟩
    rw [hrun c List.mem_cons_self]
    exact ih fun d hd => hrun d (List.mem_cons_of_mem _ hd)

/-- At a blank no keyword is read. -/
theorem endsBeyond_blanks (hword : ∀ c ∈ word.toList, isWordChar c = true)
    (hne : word.toList ≠ []) {blanks rest : List Char} {reach : Nat} {afterWord : Bool}
    (hblanks : blanks ≠ []) (hblank : ∀ c ∈ blanks, isBlank c = true)
    (h : EndsBeyond (keywordThenName word) false reach rest) :
    EndsBeyond (keywordThenName word) afterWord (blanks.length + reach) (blanks ++ rest) := by
  induction blanks generalizing afterWord with
  | nil => exact absurd rfl hblanks
  | cons b blanks ih =>
    have hb := isWordChar_of_isBlank (hblank b List.mem_cons_self)
    rw [List.length_cons, Nat.succ_add, List.cons_append]
    refine ⟨fun a left hfound => ?_, ?_⟩
    · -- a keyword would start with the blank
      obtain ⟨-, between, name, hnamed, -⟩ := keywordThenName_eq_some_iff.mp hfound
      obtain ⟨k, ks, hk⟩ := List.exists_cons_of_ne_nil hne
      have htext := hnamed.text
      rw [hk, List.cons_append, List.cons.injEq] at htext
      have hwordChar := hword k (hk ▸ List.mem_cons_self)
      rw [← htext.1, hb] at hwordChar
      cases hwordChar
    · rw [hb]
      cases hblanks' : blanks with
      | nil =>
        rw [List.length_nil, Nat.zero_add]
        exact h
      | cons b' blanks' =>
        rw [← hblanks']
        exact ih (hblanks' ▸ List.cons_ne_nil b' blanks')
          fun c hc => hblank c (List.mem_cons_of_mem _ hc)

/-- What is read from the start of a name ends no sooner than the name: it can only be the keyword
itself, and something must follow it. -/
theorem endsBeyond_name (hword : ∀ c ∈ word.toList, isWordChar c = true) {name left : List Char}
    (hname : ∀ c ∈ name, isWordChar c = true) (hends : ∀ c ∈ left.head?, isWordChar c = false) :
    EndsBeyond (keywordThenName word) false name.length (name ++ left) := by
  cases name with
  | nil => trivial
  | cons n name =>
    have hrest : ∀ c ∈ name, isWordChar c = true := fun c hc => hname c (List.mem_cons_of_mem _ hc)
    rw [List.cons_append]
    refine ⟨fun a after hfound => ?_, ?_⟩
    · obtain ⟨-, blanks, other, hnamed, -⟩ := keywordThenName_eq_some_iff.mp hfound
      have hstop : ∀ c ∈ (blanks ++ (other ++ after)).head?, isWordChar c = false :=
        forall_head?_append hnamed.blanks_ne
          (fun c hc => isWordChar_of_isBlank (hnamed.blank c hc)) _
      -- the word characters at the start are the name, and are the keyword
      have hleft : left = blanks ++ (other ++ after) :=
        calc left = (n :: (name ++ left)).dropWhile isWordChar := (dropWhile_run hname hends).symm
          _ = (word.toList ++ (blanks ++ (other ++ after))).dropWhile isWordChar := by
            rw [← hnamed.text]
          _ = blanks ++ (other ++ after) := dropWhile_run hword hstop
      have hlength : after.length ≤ left.length := by
        rw [hleft, List.length_append, List.length_append]
        omega
      rw [List.length_append]
      omega
    · rw [hname n List.mem_cons_self]
      have hthrough : EndsBeyond (keywordThenName word) true (name.length + 0) (name ++ left) :=
        endsBeyond_word hrest trivial
      exact hthrough

/-- **Readings of a keyword and a name are orderly.** -/
theorem orderly_keywordThenName (hall : word.toList.all isWordChar = true)
    (hne : word.toList ≠ []) : Orderly (keywordThenName word) := by
  have hword : ∀ c ∈ word.toList, isWordChar c = true := List.all_eq_true.mp hall
  constructor
  case ends =>
    intro afterWord c cs a left hfound
    obtain ⟨-, blanks, name, hnamed, -⟩ := keywordThenName_eq_some_iff.mp hfound
    obtain ⟨k, ks, hk⟩ := List.exists_cons_of_ne_nil hne
    have htext := hnamed.text
    rw [hk, List.cons_append, List.cons.injEq] at htext
    obtain ⟨rfl, rfl⟩ := htext
    have hks : ∀ d ∈ ks, isWordChar d = true := fun d hd => hword d (hk ▸ List.mem_cons_of_mem _ hd)
    have hreach : (ks ++ (blanks ++ (name ++ left))).length - left.length =
        ks.length + (blanks.length + name.length) := by
      simp only [List.length_append]
      omega
    rw [hreach, hword c (hk ▸ List.mem_cons_self)]
    exact endsBeyond_word hks (endsBeyond_blanks hword hne hnamed.blanks_ne hnamed.blank
      (endsBeyond_name hword hnamed.isWord hnamed.ends))
  case stays =>
    intro afterWord cs a left mark after hmark hfound
    obtain ⟨hafterWord, blanks, name, hnamed, rfl⟩ := keywordThenName_eq_some_iff.mp hfound
    refine keywordThenName_eq_some_iff.mpr ⟨hafterWord, blanks, name, ?_, rfl⟩
    refine ⟨?_, hnamed.blanks_ne, hnamed.blank, hnamed.name_ne, hnamed.isWord, ?_⟩
    · rw [hnamed.text]
      simp only [List.append_assoc]
    · cases left with
      | nil => exact forall_head?_cons hmark _
      | cons d left => exact hnamed.ends

/-- A text with such a reading holds the keyword. -/
theorem contains_of_count_pos {cs : List Char} (h : 0 < count (keywordThenName word) cs) :
    contains word.toList cs = true := by
  obtain ⟨value, hvalue⟩ := List.exists_mem_of_length_pos h
  obtain ⟨start, rest, left, rfl, hread⟩ := exists_place_of_mem hvalue
  obtain ⟨-, blanks, name, hnamed, -⟩ := keywordThenName_eq_some_iff.mp hread
  refine contains_iff.mpr ⟨start, blanks ++ (name ++ left), ?_⟩
  rw [hnamed.text, List.append_assoc]

end Keyword

end ContractLens.Text
