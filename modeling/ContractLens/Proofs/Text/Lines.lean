import ContractLens.Text.Blank
import ContractLens.Text.Scan
import Mathlib.Data.List.Basic
import Mathlib.Data.List.TakeWhile
/-!
# Lines and trimmed lines

A text is its parts with a mark between each two (`intercalate_splitAt`), and parts without the mark
are read back as they were put together (`splitAt_intercalate`). A part stands in the text right
after a mark (`exists_append_of_mem_splitAt`), and what stands in the text without holding the mark
stands in a part (`exists_part_of_infix`). Trimming takes blanks from both ends and nothing else
(`exists_trim`), so a text with none there stays as it is (`trim_of_ends`).
-/

namespace ContractLens.Text

/-- The parts of a text are what the library's splitting gives. -/
theorem splitAt_eq_splitOn (mark : Char) (cs : List Char) : splitAt mark cs = cs.splitOn mark := by
  induction cs with
  | nil => rfl
  | cons c cs ih =>
    rw [splitAt, ih, List.splitOn, List.splitOn, List.splitOnP_cons_eq_if_modifyHead]
    split
    · rfl
    · cases hparts : cs.splitOnP (· == mark) with
      | nil => exact absurd hparts (List.splitOnP_ne_nil _ _)
      | cons part parts => rfl

/-- **A text is its parts with the mark between them.** -/
theorem intercalate_splitAt (mark : Char) (cs : List Char) :
    List.intercalate [mark] (splitAt mark cs) = cs := by
  rw [splitAt_eq_splitOn]
  exact List.intercalate_splitOn mark

/-- **Parts without the mark are read back.** -/
theorem splitAt_intercalate {mark : Char} {parts : List (List Char)} (hne : parts ≠ [])
    (h : ∀ part ∈ parts, mark ∉ part) : splitAt mark (List.intercalate [mark] parts) = parts := by
  rw [splitAt_eq_splitOn]
  exact List.splitOn_intercalate mark h hne

/-- No part holds the mark. -/
theorem not_mem_of_mem_splitAt {mark : Char} {cs part : List Char} (h : part ∈ splitAt mark cs) :
    mark ∉ part := by
  induction cs generalizing part with
  | nil =>
    rw [splitAt, List.mem_singleton] at h
    rw [h]
    exact List.not_mem_nil
  | cons c cs ih =>
    rw [splitAt] at h
    split at h
    · rcases List.mem_cons.mp h with rfl | h
      · exact List.not_mem_nil
      · exact ih h
    · rename_i hc
      have hne : mark ≠ c := fun e => hc (by simp [e])
      cases hparts : splitAt mark cs with
      | nil =>
        rw [hparts] at h
        rw [List.mem_singleton.mp h, List.mem_singleton]
        exact hne
      | cons first parts =>
        rw [hparts] at h ih
        rcases List.mem_cons.mp h with rfl | h
        · rw [List.mem_cons, not_or]
          exact ⟨hne, ih List.mem_cons_self⟩
        · exact ih (List.mem_cons_of_mem _ h)

/-- There is one part more than there are marks. -/
theorem length_splitAt (mark : Char) (cs : List Char) :
    (splitAt mark cs).length = cs.count mark + 1 := by
  induction cs with
  | nil => rfl
  | cons c cs ih =>
    rw [splitAt, List.count_cons]
    split
    · rw [List.length_cons, ih]
    · rw [Nat.add_zero, ← ih]
      split
      · rename_i hnil
        rw [hnil] at ih
        cases ih
      · rename_i part parts hparts
        rw [hparts]
        rfl

theorem splitAt_ne_nil (mark : Char) (cs : List Char) : splitAt mark cs ≠ [] := by
  rw [splitAt_eq_splitOn]
  exact List.splitOnP_ne_nil _ _

/-- A place in a part is a place in the text, which starts where the text does or after a mark and
ends where the text does or before a mark. -/
theorem exists_intercalate_append (mark : Char) (earlier : List (List Char))
    (before rest : List Char) (later : List (List Char)) :
    ∃ start after, List.intercalate [mark] (earlier ++ [before]) = start ++ before ∧
      List.intercalate [mark] (earlier ++ (before ++ rest) :: later) =
        start ++ (before ++ (rest ++ after)) ∧
      (start = [] ∨ ∃ front, start = front ++ [mark]) ∧ ∀ c ∈ after.head?, c = mark := by
  induction earlier with
  | nil =>
    cases later with
    | nil =>
      refine ⟨[], [], ?_, ?_, .inl rfl, nofun⟩
      · exact List.intercalate_singleton
      · rw [List.nil_append, List.intercalate_singleton, List.append_nil, List.nil_append]
    | cons line later =>
      refine ⟨[], mark :: List.intercalate [mark] (line :: later), ?_, ?_, .inl rfl, ?_⟩
      · exact List.intercalate_singleton
      · rw [List.nil_append, List.intercalate_cons_cons, List.nil_append]
        simp only [List.append_assoc, List.singleton_append]
      · exact fun c hc => (Option.mem_some_iff.mp hc).symm
  | cons line earlier ih =>
    obtain ⟨start, after, hbefore, htext, hstart, hafter⟩ := ih
    refine ⟨line ++ ([mark] ++ start), after, ?_, ?_, .inr ?_, hafter⟩
    · rw [List.cons_append, List.intercalate_cons_of_ne_nil (List.concat_ne_nil _ _), hbefore]
      simp only [List.append_assoc]
    · rw [List.cons_append, List.intercalate_cons_of_ne_nil
        (List.append_ne_nil_of_right_ne_nil _ (List.cons_ne_nil _ _)), htext]
      simp only [List.append_assoc]
    · rcases hstart with rfl | ⟨front, rfl⟩
      · exact ⟨line, by rw [List.append_nil]⟩
      · exact ⟨line ++ ([mark] ++ front), by simp only [List.append_assoc]⟩

/-- **A part starts where the text does or after a mark.** -/
theorem exists_append_of_mem_splitAt {mark : Char} {cs part : List Char}
    (h : part ∈ splitAt mark cs) :
    ∃ before after, cs = before ++ (part ++ after) ∧
      (before = [] ∨ ∃ start, before = start ++ [mark]) := by
  obtain ⟨earlier, later, hparts⟩ := List.append_of_mem h
  obtain ⟨before, after, -, htext, hbefore, -⟩ :=
    exists_intercalate_append mark earlier [] part later
  rw [List.nil_append, ← hparts, intercalate_splitAt] at htext
  exact ⟨before, after, htext, hbefore⟩

theorem exists_splitAt_append {mark : Char} {piece : List Char} (hmark : mark ∉ piece)
    (rest : List Char) :
    ∃ ending parts, splitAt mark (piece ++ rest) = (piece ++ ending) :: parts := by
  induction piece with
  | nil => exact List.exists_cons_of_ne_nil (splitAt_ne_nil mark rest)
  | cons c piece ih =>
    rw [List.mem_cons, not_or] at hmark
    obtain ⟨ending, parts, hparts⟩ := ih hmark.2
    refine ⟨ending, parts, ?_⟩
    rw [List.cons_append, splitAt, if_neg (by simpa using Ne.symm hmark.1), hparts]
    rfl

/-- **What stands in a text and does not hold the mark stands in one of the parts.** -/
theorem exists_part_of_infix {mark : Char} {piece cs : List Char} (hmark : mark ∉ piece)
    (h : piece <:+: cs) : ∃ part ∈ splitAt mark cs, piece <:+: part := by
  obtain ⟨before, after, rfl⟩ := h
  rw [List.append_assoc]
  induction before with
  | nil =>
    obtain ⟨ending, parts, hparts⟩ := exists_splitAt_append hmark after
    rw [List.nil_append, hparts]
    exact ⟨piece ++ ending, List.mem_cons_self, (List.prefix_append _ _).isInfix⟩
  | cons c before ih =>
    obtain ⟨part, hpart, hinfix⟩ := ih
    rw [List.cons_append, splitAt]
    split
    · exact ⟨part, List.mem_cons_of_mem _ hpart, hinfix⟩
    · cases hparts : splitAt mark (before ++ (piece ++ after)) with
      | nil => exact absurd hparts (splitAt_ne_nil mark _)
      | cons first parts =>
        rw [hparts] at hpart
        rcases List.mem_cons.mp hpart with rfl | hpart
        · exact ⟨c :: part, List.mem_cons_self, List.infix_cons hinfix⟩
        · exact ⟨part, List.mem_cons_of_mem _ hpart, hinfix⟩

/-- **Trimming takes blanks from both ends and nothing else.** -/
theorem exists_trim (cs : List Char) :
    ∃ before after, cs = before ++ (trim cs ++ after) ∧
      (∀ c ∈ before, isBlank c = true) ∧ ∀ c ∈ after, isBlank c = true := by
  have hstart : cs = cs.takeWhile isBlank ++ cs.dropWhile isBlank :=
    List.takeWhile_append_dropWhile.symm
  have hend : cs.dropWhile isBlank =
      trim cs ++ ((cs.dropWhile isBlank).reverse.takeWhile isBlank).reverse := by
    rw [trim, trimBy, ← List.reverse_append, List.takeWhile_append_dropWhile, List.reverse_reverse]
  refine ⟨cs.takeWhile isBlank, ((cs.dropWhile isBlank).reverse.takeWhile isBlank).reverse, ?_,
    fun c hc => List.mem_takeWhile_imp hc,
    fun c hc => List.mem_takeWhile_imp (List.mem_reverse.mp hc)⟩
  rw [← hend]
  exact hstart

/-- A text without blanks at its ends is left as it is. -/
theorem trim_of_ends {cs : List Char} (hhead : ∀ c ∈ cs.head?, isBlank c = false)
    (hlast : ∀ c ∈ cs.getLast?, isBlank c = false) : trim cs = cs := by
  obtain ⟨before, after, hcs, hbefore, hafter⟩ := exists_trim cs
  have hb : before = [] := by
    refine List.eq_nil_iff_forall_not_mem.mpr fun c hc => ?_
    obtain ⟨d, more, rfl⟩ := List.exists_cons_of_ne_nil (List.ne_nil_of_mem hc)
    have hblank := hbefore d List.mem_cons_self
    rw [hhead d (by rw [hcs]; rfl)] at hblank
    cases hblank
  have ha : after = [] := by
    rcases List.eq_nil_or_concat' after with h | ⟨more, d, rfl⟩
    · exact h
    · have hend : cs = (before ++ (trim cs ++ more)) ++ [d] := by
        rw [List.append_assoc, List.append_assoc]
        exact hcs
      have hblank := hafter d (by simp)
      rw [hlast d (by rw [hend, List.getLast?_concat]; rfl)] at hblank
      cases hblank
  rw [hb, ha, List.append_nil, List.nil_append] at hcs
  exact hcs.symm

theorem mem_of_mem_trim {c : Char} {cs : List Char} (h : c ∈ trim cs) : c ∈ cs := by
  obtain ⟨before, after, hcs, -, -⟩ := exists_trim cs
  rw [hcs]
  exact List.mem_append_right _ (List.mem_append_left _ h)

end ContractLens.Text
