import ContractLens.Proofs.Source.Agreement
/-!
# Where declarations stand in a set

A contract is found on a line of a file, trimmed, and a file stands in the text of its set between
the ends of lines. So each contract has a place in that text where its declaration starts and no
word goes on (`exists_declares`).

What stands there is said by `NamedBy` for the name, and by `BasedOn` for the bases: `is` between
blanks, and a text without a brace up to the opening one. A reading of the bases finds just this
(`readBases?_eq_some`, `readBases?_of_basedOn`).
-/

namespace ContractLens

open Text

/-! ## The parts of a declaration -/

namespace Declaration

/-- A text goes on with `is` between blanks, bases, and an opening brace. -/
structure BasedOn (cs before after bases left : List Char) : Prop where
  /-- The parts follow each other. -/
  text : cs = before ++ (['i', 's'] ++ (after ++ (bases ++ '\x7b' :: left)))
  /-- There are blanks before the word. -/
  before_ne : before ≠ []
  /-- They are blanks. -/
  before_blank : ∀ c ∈ before, isBlank c = true
  /-- There are blanks after the word. -/
  after_ne : after ≠ []
  /-- They are blanks. -/
  after_blank : ∀ c ∈ after, isBlank c = true
  /-- The bases end at the first brace. -/
  no_brace : '\x7b' ∉ bases
  /-- All blanks are before them. -/
  starts : ∀ c ∈ bases.head?, isBlank c = false

theorem BasedOn.append {cs before after bases left : List Char}
    (h : BasedOn cs before after bases left) (rest : List Char) :
    BasedOn (cs ++ rest) before after bases (left ++ rest) :=
  { h with text := by rw [h.text]; simp only [List.append_assoc, List.cons_append] }

theorem bne_brace_iff {cs : List Char} : (∀ c ∈ cs, (c != '\x7b') = true) ↔ '\x7b' ∉ cs := by
  constructor
  · intro h hbrace
    have := h _ hbrace
    simp at this
  · intro h c hc
    exact bne_iff_ne.mpr fun heq => h (heq ▸ hc)

/-- The first character after the blanks that follow `is` is none. -/
theorem BasedOn.head_blank {cs before after bases left : List Char}
    (h : BasedOn cs before after bases left) :
    ∀ c ∈ (bases ++ '\x7b' :: left).head?, isBlank c = false := by
  cases bases with
  | nil => exact forall_head?_cons (by decide) _
  | cons b bases => exact h.starts

/-- **Bases that are read stand where they are read**, or there are only blanks for them. -/
theorem readBases?_eq_some {cs found rest : List Char} (h : readBases? cs = some (found, rest)) :
    ∃ before after bases left, BasedOn cs before after bases left ∧ rest = '\x7b' :: left ∧
      (found = bases ∧ bases ≠ [] ∨
        bases = [] ∧ ∃ blank, isBlank blank = true ∧ found = [blank]) := by
  simp only [readBases?, Option.bind_eq_bind, Option.bind_eq_some_iff] at h
  obtain ⟨first, hbefore, second, his, h⟩ := h
  obtain ⟨before, rfl, hne, hblank, -⟩ := dropBlanks?_eq_some_iff.mp hbefore
  obtain rfl := dropStart?_eq_some_iff.mp his
  split at h
  · cases h
  · rename_i hopen
    rw [Bool.or_eq_true, not_or, Bool.not_eq_true, Bool.not_eq_true] at hopen
    obtain ⟨left, hleft⟩ : ∃ left,
        (second.dropWhile isBlank).dropWhile (· != '\x7b') = '\x7b' :: left := by
      obtain ⟨-, left, -, hleft⟩ := opened_dropWhile hopen.2
      exact ⟨left, hleft⟩
    have hbased : BasedOn (before ++ (['i', 's'] ++ second)) before (second.takeWhile isBlank)
        ((second.dropWhile isBlank).takeWhile (· != '\x7b')) left := by
      refine ⟨?_, hne, hblank, ?_, fun c hc => List.mem_takeWhile_imp hc,
        bne_brace_iff.mp fun c hc => List.mem_takeWhile_imp (p := (· != '\x7b')) hc,
        fun c hc => ?_⟩
      · rw [← hleft, List.takeWhile_append_dropWhile, List.takeWhile_append_dropWhile]
      · intro hnil
        rw [hnil] at hopen
        exact absurd hopen.1 (by decide)
      · refine head?_dropWhile_eq_false isBlank second c ?_
        rw [List.head?_takeWhile] at hc
        exact (Option.filter_eq_some_iff.mp hc).1
    rw [hleft] at h
    refine ⟨_, _, _, _, hbased, ?_⟩
    split at h
    · rename_i hbases
      cases h
      exact ⟨rfl, .inl ⟨rfl, by simpa using hbases⟩⟩
    split at h
    · rename_i hbases _
      obtain ⟨last, hlast, hfound⟩ := Option.map_eq_some_iff.mp h
      cases hfound
      exact ⟨rfl, .inr ⟨by simpa using hbases, last,
        hbased.after_blank last (List.mem_of_getLast? hlast), rfl⟩⟩
    · cases h

/-- **Bases are read where they stand.** -/
theorem readBases?_of_basedOn {cs before after bases left : List Char}
    (h : BasedOn cs before after bases left) (hne : bases ≠ []) :
    readBases? cs = some (bases, '\x7b' :: left) := by
  have hstart : ∀ c ∈ (['i', 's'] ++ (after ++ (bases ++ '\x7b' :: left))).head?,
      isBlank c = false := forall_head?_cons (by decide) _
  have hbrace : ∀ c ∈ ('\x7b' :: left).head?, (c != '\x7b') = false :=
    forall_head?_cons (by decide) _
  have hbases := bne_brace_iff.mpr h.no_brace
  simp only [readBases?, Option.bind_eq_bind, Option.bind_eq_some_iff]
  refine ⟨_, dropBlanks?_eq_some_iff.mpr ⟨before, h.text, h.before_ne, h.before_blank, hstart⟩,
    _, dropStart?_eq_some_iff.mpr rfl, ?_⟩
  rw [takeWhile_run h.after_blank h.head_blank, dropWhile_run h.after_blank h.head_blank,
    takeWhile_run hbases hbrace, dropWhile_run hbases hbrace]
  rw [if_neg (by simp [h.after_ne]), if_pos (by simp [hne])]

/-- A declaration that is read has a name, and bases if some were read. -/
theorem head_eq_some {afterWord : Bool} {cs left : List Char} {found : Head}
    (h : head afterWord cs = some (found, left)) :
    afterWord = false ∧ ∃ blanks tail, NamedBy "contract".toList cs blanks found.name tail ∧
      tail ≠ [] ∧ ∀ bases ∈ found.bases, readBases? tail = some (bases, left) := by
  have hopened := opened_head h
  simp only [head, Option.bind_eq_bind, Option.bind_eq_some_iff] at h
  obtain ⟨⟨⟨⟩, first⟩, hword, second, hblanks, ⟨name, tail⟩, hname, h⟩ := h
  obtain ⟨hafterWord, rfl⟩ := keyword_eq_some_iff.mp hword
  obtain ⟨blanks, rfl, hne, hblank, -⟩ := dropBlanks?_eq_some_iff.mp hblanks
  obtain ⟨rfl, hname_ne, hisWord, hends⟩ := takeWord?_eq_some_iff.mp hname
  have htail : tail ≠ [] := by
    rintro rfl
    cases h
  dsimp only at h
  split at h
  · rename_i bases after hbases
    cases h
    exact ⟨hafterWord, blanks, tail, ⟨rfl, hne, hblank, hname_ne, hisWord, hends⟩, htail,
      fun other hother => Option.mem_some.mp hother ▸ hbases⟩
  split at h
  · cases h
    exact ⟨hafterWord, blanks, tail, ⟨rfl, hne, hblank, hname_ne, hisWord, hends⟩, htail,
      fun other hother => absurd hother (Option.not_mem_none _)⟩
  · cases h

end Declaration

/-! ## Places in the text of a set -/

namespace SourceFile

variable {file : SourceFile} {files : List SourceFile}

/-- A file's content stands in the text of a set between the ends of lines. -/
theorem exists_combine_of_mem (h : file ∈ files) :
    ∃ banner rest, combine files = banner ++ '\n' :: (file.content.toList ++ '\n' :: rest) := by
  induction files with
  | nil => cases h
  | cons first files ih =>
    obtain ⟨banner, hfirst⟩ := exists_combine_cons first files
    rcases List.mem_cons.mp h with rfl | h
    · exact ⟨banner, '\n' :: combine files, hfirst⟩
    · obtain ⟨banner', rest, hrest⟩ := ih h
      refine ⟨banner ++ '\n' :: (first.content.toList ++ '\n' :: '\n' :: banner'), rest, ?_⟩
      rw [hfirst, hrest]
      simp only [List.append_assoc, List.cons_append]

/-- **A trimmed line stands in the text of a set where no word goes on.** -/
theorem exists_combine_of_line (h : file ∈ files) {line : List Char} (hline : line ∈ file.lines) :
    ∃ before rest, combine files = before ++ (trim line ++ rest) ∧
      wordBefore false before = false := by
  obtain ⟨banner, rest, hcombine⟩ := exists_combine_of_mem h
  obtain ⟨start, after, hcontent, hstart⟩ := exists_append_of_mem_splitAt hline
  obtain ⟨left, right, htrim, hleft, -⟩ := exists_trim line
  refine ⟨banner ++ '\n' :: (start ++ left), right ++ (after ++ '\n' :: rest), ?_, ?_⟩
  · rw [hcombine, hcontent]
    conv_lhs => rw [htrim]
    simp only [List.append_assoc, List.cons_append]
  · have hbreak : isWordChar '\n' = false := by decide
    have hbefore : wordBefore false start = false := by
      rcases hstart with rfl | ⟨start, rfl⟩
      · rfl
      · exact (wordBefore_concat _ _ _).trans hbreak
    rw [wordBefore_append, wordBefore, hbreak, wordBefore_append, hbefore]
    exact wordBefore_blanks hleft

end SourceFile

namespace Declaration

/-- The declaration of a contract, at the start of a text. -/
structure Declares (contract : Contract) (cs blanks name tail : List Char) : Prop where
  /-- It has the contract's name. -/
  named : NamedBy "contract".toList cs blanks name tail
  /-- That is the name of the contract. -/
  name : contract.name = String.ofList name
  /-- The bases of the contract are those that follow the name. -/
  bases : ∀ base ∈ contract.inherits, ∃ before after bases left,
    BasedOn tail before after bases left ∧ base ∈ baseNames bases

/-- A blank names no base. -/
theorem baseNames_blank {blank : Char} (h : isBlank blank = true) : baseNames [blank] = [] := by
  have hcomma : (blank == ',') = false := by
    refine Bool.eq_false_iff.mpr fun heq => ?_
    rw [eq_of_beq heq] at h
    exact absurd h (by decide)
  have htrim : trim [blank] = [] := by
    rw [trim, trimBy, List.dropWhile_cons_of_pos h]
    rfl
  rw [baseNames, splitAt, hcomma, if_neg (by decide), splitAt, List.map_singleton, htrim]
  rfl

/-- **Every contract of a set has a place in its text** where its declaration starts. -/
theorem exists_declares {files : List SourceFile} {contract : Contract}
    (h : contract ∈ (ParsedSources.ofFiles files).contracts) :
    ∃ before rest, SourceFile.combine files = before ++ rest ∧ wordBefore false before = false ∧
      ∃ blanks name tail, Declares contract rest blanks name tail := by
  obtain ⟨entry, hentry, rfl⟩ := List.mem_map.mp h
  obtain ⟨file, hfile, hscanned⟩ := List.mem_flatMap.mp hentry
  obtain ⟨line, hline, start, found, following, hfound, rfl⟩ := exists_contractOf_of_mem hscanned
  obtain ⟨raw, hraw, rfl⟩ := List.mem_map.mp hline
  obtain ⟨before, rest, hcombine, hbefore⟩ := SourceFile.exists_combine_of_line hfile hraw
  obtain ⟨text, htext, hhead⟩ := findFirstFrom?_place hfound
  obtain ⟨hplace, blanks, tail, hnamed, htail, hbases⟩ := head_eq_some hhead
  refine ⟨before ++ found.before, text ++ rest, ?_, ?_, blanks, found.value.name, tail ++ rest,
    ?_, rfl, fun base hbase => ?_⟩
  · rw [hcombine, htext]
    simp only [List.append_assoc]
  · rw [wordBefore_append, hbefore]
    exact hplace
  · refine { hnamed with text := ?_, ends := fun c hc => hnamed.ends c ?_ }
    · rw [hnamed.text]
      simp only [List.append_assoc]
    · obtain ⟨t, ts, rfl⟩ := List.exists_cons_of_ne_nil htail
      exact hc
  · cases hread : found.value.bases with
    | none =>
      rw [Source.contractOf, hread] at hbase
      cases hbase
    | some bases =>
      rw [Source.contractOf, hread] at hbase
      obtain ⟨first, second, body, left, hbased, -, hcase⟩ :=
        readBases?_eq_some (hbases bases hread)
      refine ⟨first, second, body, left ++ rest, hbased.append rest, ?_⟩
      rcases hcase with ⟨rfl, -⟩ | ⟨-, blank, hblank, rfl⟩
      · exact hbase
      · -- blanks alone name no base
        have hnone : base ∈ baseNames [blank] := hbase
        rw [baseNames_blank hblank] at hnone
        cases hnone

end Declaration

end ContractLens
