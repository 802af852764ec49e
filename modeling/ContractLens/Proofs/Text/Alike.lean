import ContractLens.Proofs.Text.Break
import Mathlib.Data.List.Forall2
/-!
# Texts that are alike

Two texts are alike if they are the same but for some parts, each behind a colon and up to the end
of a line with rules (`Alike`). What is read in the one is read in the other, if no reading starts
in such a part, and readings that go on over one do not mind what it holds (`Faithful`): then a
search of the one finds what a search of the other does (`Alike.findAll`).

Readings that start with a keyword do not start in a part on which none is seen, nor do they reach
over the rules at its end (`Keyed.none_of_line`).
-/

namespace ContractLens.Text

variable {α : Type} {read : Recogniser α} {inert : List Char → Prop}

/-- A part that ends with a rule and the end of its line. -/
def Ruled (part : List Char) : Prop := ∃ front, part = front ++ ['=', '\n']

theorem Ruled.wordBefore {part : List Char} (h : Ruled part) (afterWord : Bool) :
    wordBefore afterWord part = false := by
  obtain ⟨front, rfl⟩ := h
  rw [wordBefore_append]
  exact (by decide : isWordChar '\n' = false)

/-- The end of a ruled line is its last character, or has the rule in it. -/
theorem Ruled.suffix {part before inner : List Char} (h : Ruled part)
    (htext : ':' :: part = before ++ inner) (hne : inner ≠ []) :
    inner = ['\n'] ∨ ∃ front, inner = front ++ ['=', '\n'] := by
  obtain ⟨front, rfl⟩ := h
  rw [← List.cons_append] at htext
  rcases List.append_eq_append_iff.mp htext with ⟨first, -, hlast⟩ | ⟨last, -, hinner⟩
  · cases first with
    | nil => exact .inr ⟨[], hlast.symm⟩
    | cons c first =>
      obtain ⟨-, hlast⟩ := List.cons.inj hlast
      cases first with
      | nil => exact .inl hlast.symm
      | cons d first =>
        obtain ⟨-, hlast⟩ := List.cons.inj hlast
        exact absurd (List.append_eq_nil_iff.mp hlast.symm).2 hne
  · exact .inr ⟨last, hinner⟩

/-- Texts that are the same but for parts behind a colon, up to the end of a ruled line. -/
inductive Alike (inert : List Char → Prop) : List Char → List Char → Prop
  /-- Nothing is left of both. -/
  | nil : Alike inert [] []
  /-- Both go on with one character. -/
  | same (c : Char) {cs ds : List Char} : Alike inert cs ds → Alike inert (c :: cs) (c :: ds)
  /-- Both go on with a colon, and with parts of their own. -/
  | gap {part other cs ds : List Char} : Ruled part → inert part → Ruled other → inert other →
    Alike inert cs ds → Alike inert (':' :: (part ++ cs)) (':' :: (other ++ ds))

namespace Alike

variable {cs ds left right : List Char}

theorem refl (cs : List Char) : Alike inert cs cs := by
  induction cs with
  | nil => exact .nil
  | cons c cs ih => exact .same c ih

theorem symm (h : Alike inert cs ds) : Alike inert ds cs := by
  induction h with
  | nil => exact .nil
  | same c _ ih => exact .same c ih
  | gap hpart hinert hother hinert' _ ih => exact .gap hother hinert' hpart hinert ih

theorem append (h : Alike inert cs ds) (h' : Alike inert left right) :
    Alike inert (cs ++ left) (ds ++ right) := by
  induction h with
  | nil => exact h'
  | same c _ ih => exact .same c ih
  | gap hpart hinert hother hinert' _ ih =>
    rw [List.cons_append, List.cons_append, List.append_assoc, List.append_assoc]
    exact .gap hpart hinert hother hinert' ih

theorem head?_eq (h : Alike inert cs ds) : cs.head? = ds.head? := by
  cases h <;> rfl

theorem wordBefore_eq (h : Alike inert cs ds) (afterWord : Bool) :
    wordBefore afterWord cs = wordBefore afterWord ds := by
  induction h generalizing afterWord with
  | nil => rfl
  | same c _ ih => exact ih _
  | gap hpart _ hother _ _ ih =>
    rw [wordBefore, wordBefore, wordBefore_append, wordBefore_append, hpart.wordBefore,
      hother.wordBefore, ih]

/-- Texts that are alike and have no colon are the same. -/
theorem eq_of_not_mem (h : Alike inert cs ds) (hcolon : ':' ∉ cs) : cs = ds := by
  induction h with
  | nil => rfl
  | same c _ ih => rw [ih fun hmem => hcolon (List.mem_cons_of_mem _ hmem)]
  | gap => exact absurd List.mem_cons_self hcolon

/-- What holds of all characters of a text, and of the parts, holds of a text that is alike. -/
theorem forall_mem {p : Char → Prop} (hinert : ∀ part, inert part → ∀ c ∈ part, p c)
    (h : Alike inert cs ds) (hcs : ∀ c ∈ cs, p c) : ∀ c ∈ ds, p c := by
  induction h with
  | nil => exact hcs
  | same c _ ih =>
    rw [List.forall_mem_cons] at hcs ⊢
    exact ⟨hcs.1, ih hcs.2⟩
  | gap _ _ _ hother _ ih =>
    rw [List.forall_mem_cons, List.forall_mem_append] at hcs ⊢
    exact ⟨hcs.1, hinert _ hother, ih hcs.2.2⟩

/-- A place of a text is a place of a text that is alike, or it lies in a part of its own. -/
theorem place {start rest : List Char} (h : Alike inert (start ++ rest) ds) :
    (∃ start' rest', ds = start' ++ rest' ∧ Alike inert start start' ∧ Alike inert rest rest') ∨
      ∃ part, Ruled part ∧ inert part ∧ ∃ outer before inner after,
        start = outer ++ before ∧ rest = inner ++ after ∧ ':' :: part = before ++ inner ∧
          before ≠ [] ∧ inner ≠ [] := by
  generalize htext : start ++ rest = text at h
  induction h generalizing start with
  | nil =>
    obtain ⟨rfl, rfl⟩ := List.append_eq_nil_iff.mp htext
    exact .inl ⟨[], [], rfl, .nil, .nil⟩
  | same c h ih =>
    cases start with
    | nil =>
      rw [List.nil_append] at htext
      rw [htext]
      exact .inl ⟨[], _, rfl, .nil, .same c h⟩
    | cons d start =>
      obtain ⟨rfl, hcs⟩ := List.cons.inj htext
      rcases ih hcs with ⟨start', rest', rfl, hstart, hrest⟩ |
        ⟨part, hpart, hinert, outer, before, inner, after, rfl, hplace⟩
      · exact .inl ⟨d :: start', rest', rfl, .same d hstart, hrest⟩
      · exact .inr ⟨part, hpart, hinert, d :: outer, before, inner, after, rfl, hplace⟩
  | @gap part other cs ds hpart hinert hother hinert' h ih =>
    by_cases hstart : start = []
    · rw [hstart, List.nil_append] at htext
      rw [hstart, htext]
      exact .inl ⟨[], _, rfl, .nil, .gap hpart hinert hother hinert' h⟩
    rw [← List.cons_append] at htext
    rcases List.append_eq_append_iff.mp htext with ⟨inner, hwhole, hrest⟩ | ⟨later, rfl, hcs⟩
    · cases inner with
      | nil =>
        rw [List.append_nil] at hwhole
        rw [List.nil_append] at hrest
        rw [← hwhole, hrest]
        refine .inl ⟨':' :: other, ds, (List.cons_append ..).symm, ?_, h⟩
        have hnil : Alike inert [] [] := .nil
        have hgap := Alike.gap hpart hinert hother hinert' hnil
        rwa [List.append_nil, List.append_nil] at hgap
      | cons c inner =>
        exact .inr ⟨part, hpart, hinert, [], start, c :: inner, cs, rfl, hrest, hwhole, hstart,
          List.cons_ne_nil _ _⟩
    · rcases ih hcs.symm with ⟨start', rest', rfl, hstart, hrest⟩ |
        ⟨part', hpart', hinert', outer, before, inner, after, rfl, hplace⟩
      · refine .inl ⟨':' :: (other ++ start'), rest', ?_, .gap hpart hinert hother hinert' hstart,
          hrest⟩
        rw [List.cons_append, List.append_assoc]
      · exact .inr ⟨part', hpart', hinert', (':' :: part) ++ outer, before, inner, after,
          (List.append_assoc _ _ _).symm, hplace⟩

/-- A text that is alike starts with what has no colon. -/
theorem of_append {part : List Char} (hcolon : ':' ∉ part) (h : Alike inert (part ++ cs) ds) :
    ∃ ds', ds = part ++ ds' ∧ Alike inert cs ds' := by
  rcases h.place with ⟨part', ds', rfl, hpart, hrest⟩ |
    ⟨own, -, -, outer, before, inner, -, rfl, -, hown, hbefore, -⟩
  · exact ⟨ds', by rw [hpart.eq_of_not_mem hcolon], hrest⟩
  · obtain ⟨c, before, rfl⟩ := List.exists_cons_of_ne_nil hbefore
    obtain ⟨rfl, -⟩ := List.cons.inj hown
    exact absurd (List.mem_append_right _ List.mem_cons_self) hcolon

/-- A text that is alike goes up to the same mark. -/
theorem cut {p : Char → Prop} (hinert : ∀ part, inert part → ∀ c ∈ part, p c) (hcolon : p ':')
    {run : List Char} {mark : Char} (h : Alike inert (run ++ mark :: cs) ds)
    (hrun : ∀ c ∈ run, p c) (hmark : ¬ p mark) :
    ∃ run' ds', ds = run' ++ mark :: ds' ∧ Alike inert run run' ∧ (∀ c ∈ run', p c) ∧
      Alike inert cs ds' := by
  rcases h.place with ⟨run', rest', rfl, hrun', hrest⟩ |
    ⟨own, -, hown, outer, before, inner, after, -, hrest, htext, -, hne⟩
  · have hne : ':' ∉ [mark] := fun hmem => hmark (List.mem_singleton.mp hmem ▸ hcolon)
    obtain ⟨ds', rfl, hds⟩ := of_append hne hrest
    exact ⟨run', ds', rfl, hrun', hrun'.forall_mem hinert hrun, hds⟩
  · obtain ⟨c, inner, rfl⟩ := List.exists_cons_of_ne_nil hne
    obtain ⟨rfl, -⟩ := List.cons.inj hrest
    have hmem : mark ∈ ':' :: own := htext ▸ List.mem_append_right _ List.mem_cons_self
    rcases List.mem_cons.mp hmem with rfl | hmem
    · exact absurd hcolon hmark
    · exact absurd (hinert own hown _ hmem) hmark

end Alike

/-! ## Searches -/

/-- A recogniser that reads texts that are alike in the same way. -/
structure Faithful (inert : List Char → Prop) (read : Recogniser α) (rel : α → α → Prop) :
    Prop where
  /-- No reading starts in a part of its own. -/
  passes : ∀ {part before inner}, Ruled part → inert part → ':' :: part = before ++ inner →
    inner ≠ [] → ∀ afterWord rest, read (wordBefore afterWord before) (inner ++ rest) = none
  /-- What is read in one text is read in the other. -/
  follows : ∀ {afterWord cs ds a left}, Alike inert cs ds → read afterWord cs = some (a, left) →
    ∃ taken taken' b left', cs = taken ++ left ∧ ds = taken' ++ left' ∧ taken ≠ [] ∧
      read afterWord ds = some (b, left') ∧ rel a b ∧ Alike inert taken taken' ∧
      Alike inert left left'

variable {rel : α → α → Prop}

theorem Faithful.none (h : Faithful inert read rel) {afterWord : Bool} {cs ds : List Char}
    (halike : Alike inert cs ds) (hnone : read afterWord cs = none) : read afterWord ds = none := by
  cases hread : read afterWord ds with
  | none => rfl
  | some found =>
    obtain ⟨_, _, _, _, _, _, _, hother, _⟩ := h.follows halike.symm hread
    rw [hother] at hnone
    cases hnone

/-- **Searches of texts that are alike find the same**, up to the parts in which they differ. -/
theorem Alike.findAll (h : Faithful inert read rel) {cs ds : List Char}
    (halike : Alike inert cs ds) : List.Forall₂ rel (findAll read cs) (findAll read ds) := by
  suffices hfrom : ∀ size, ∀ {cs ds}, cs.length < size → Alike inert cs ds → ∀ afterWord,
      List.Forall₂ rel (findAllFrom read afterWord 0 cs) (findAllFrom read afterWord 0 ds) from
    hfrom _ (Nat.lt_succ_self _) halike false
  intro size
  induction size with
  | zero => exact fun hsize => absurd hsize (Nat.not_lt_zero _)
  | succ size ih =>
    intro cs ds hsize halike afterWord
    cases halike with
    | nil => exact .nil
    | @same c cs ds hrest =>
      rw [List.length_cons] at hsize
      cases hread : read afterWord (c :: cs) with
      | none =>
        rw [findAllFrom_of_none hread, findAllFrom_of_none (h.none (.same c hrest) hread)]
        exact ih (Nat.lt_of_succ_lt_succ hsize) hrest _
      | some found =>
        obtain ⟨taken, taken', b, left', htaken, htaken', hne, hother, hrel, htakens, hlefts⟩ :=
          h.follows (.same c hrest) hread
        have hne' : taken' ≠ [] := by
          rintro rfl
          exact hne (htakens.symm.eq_of_not_mem nofun).symm
        have hlength := congrArg List.length htaken
        have hpos := List.length_pos_iff.mpr hne
        rw [List.length_append, List.length_cons] at hlength
        rw [htaken] at hread ⊢
        rw [htaken'] at hother ⊢
        rw [findAllFrom_of_taken hne hread, findAllFrom_of_taken hne' hother,
          htakens.wordBefore_eq]
        exact .cons hrel (ih (by omega) hlefts _)
    | @gap part other cs ds hpart hinert hother hinert' hrest =>
      have hpass : ∀ {part cs}, Ruled part → inert part →
          findAllFrom read afterWord 0 (':' :: (part ++ cs)) = findAllFrom read false 0 cs := by
        intro part cs hpart hinert
        rw [← List.cons_append, findAllFrom_of_passed fun before inner htext hne =>
          h.passes hpart hinert htext hne afterWord cs, wordBefore, hpart.wordBefore]
      rw [hpass hpart hinert, hpass hother hinert']
      rw [List.length_cons, List.length_append] at hsize
      exact ih (by omega) hrest _

/-- What a search of the one text finds is told by a test as what a search of the other does. -/
theorem Alike.any_findAll (h : Faithful inert read rel) {test : α → Bool}
    (htest : ∀ a b, rel a b → test a = test b) {cs ds : List Char} (halike : Alike inert cs ds) :
    (Text.findAll read cs).any test = (Text.findAll read ds).any test := by
  have hfound := halike.findAll h
  generalize Text.findAll read cs = left at hfound
  generalize Text.findAll read ds = right at hfound
  induction hfound with
  | nil => rfl
  | cons hrel _ ih => rw [List.any_cons, List.any_cons, htest _ _ hrel, ih]

/-! ## Ruled lines without readings -/

/-- A recogniser whose readings start with a word, and show before a rule when they go on over
it. -/
structure Keyed (word : List Char) (read : Recogniser α) : Prop where
  /-- The word has a character. -/
  word_ne : word ≠ []
  /-- The word does not reach over a colon, a rule, or the end of a line. -/
  word_free : ∀ c ∈ [':', '=', '\n'], c ∉ word
  /-- A reading starts with the word. -/
  starts : ∀ {afterWord cs found}, read afterWord cs = some found → word <+: cs
  /-- What follows a rule does not matter. -/
  stays : ∀ {afterWord front rest}, (read afterWord (front ++ '=' :: rest)).isSome = true →
    (read afterWord (front ++ ['=', '\n'])).isSome = true

theorem Keyed.append_ne {word : List Char} {mark : Char} (h : Keyed word read)
    (hmark : mark ∈ [':', '=', '\n']) (tail rest : List Char) : word ++ tail ≠ mark :: rest :=
  append_ne_cons h.word_ne (h.word_free mark hmark) tail rest

theorem Keyed.none_of_ruled {word part before inner : List Char} (h : Keyed word read)
    (hruled : Ruled part) (hnone : occurs read part = false) (htext : ':' :: part = before ++ inner)
    (hne : inner ≠ []) (afterWord : Bool) (rest : List Char) :
    read (wordBefore afterWord before) (inner ++ rest) = none := by
  cases hread : read (wordBefore afterWord before) (inner ++ rest) with
  | none => rfl
  | some found =>
    obtain ⟨tail, htail⟩ := h.starts hread
    rcases hruled.suffix htext hne with rfl | ⟨front, rfl⟩
    · exact absurd htail (h.append_ne (by decide) _ _)
    · cases before with
      | nil =>
        rw [List.nil_append] at htext
        rw [← htext] at htail
        exact absurd htail (h.append_ne (by decide) _ _)
      | cons c before =>
        rw [List.cons_append] at htext
        obtain ⟨rfl, rfl⟩ := List.cons.inj htext
        have hcolon : isWordChar ':' = false := by decide
        rw [wordBefore, hcolon, List.append_assoc] at hread
        have hsome : (read (wordBefore false before) (front ++ ['=', '\n'])).isSome = true :=
          h.stays (Option.isSome_of_eq_some hread)
        rw [occurs_of_place hne hsome] at hnone
        cases hnone

/-- **No reading starts on a ruled line that shows none**, neither before its colon nor behind. -/
theorem Keyed.none_of_line {word front part before inner : List Char} (h : Keyed word read)
    (hfront : contains word front = false) (hruled : Ruled part) (hnone : occurs read part = false)
    (htext : front ++ ':' :: part = before ++ inner) (hne : inner ≠ []) (afterWord : Bool)
    (rest : List Char) : read (wordBefore afterWord before) (inner ++ rest) = none := by
  rcases List.append_eq_append_iff.mp htext with ⟨first, rfl, hpart⟩ | ⟨last, rfl, rfl⟩
  · rw [wordBefore_append]
    exact h.none_of_ruled hruled hnone hpart hne _ rest
  · cases hread : read (wordBefore afterWord before) ((last ++ ':' :: part) ++ rest) with
    | none => rfl
    | some found =>
      obtain ⟨tail, htail⟩ := h.starts hread
      rw [List.append_assoc, List.cons_append] at htail
      obtain ⟨second, rfl, -⟩ := exists_append_of_not_mem (h.word_free ':' (by decide)) htail
      have hinside : contains word (before ++ (word ++ second)) = true :=
        contains_iff.mpr ⟨before, second, List.append_assoc _ _ _⟩
      rw [hinside] at hfront
      cases hfront

/-! ## Keywords on ruled lines -/

/-- A word of word characters is a key. -/
def IsKey (word : String) : Prop := word.toList ≠ [] ∧ ∀ c ∈ word.toList, isWordChar c = true

variable {word : String}

theorem IsKey.free (h : IsKey word) : ∀ c ∈ [':', '=', '\n'], c ∉ word.toList := by
  have hnone : ∀ c ∈ [':', '=', '\n'], isWordChar c = false := forall_mem_of_all (by decide)
  intro c hc hmem
  have hword := h.2 c hmem
  rw [hnone c hc] at hword
  cases hword

theorem not_isWordChar_rule : isWordChar '=' = false := by decide

theorem keyed_wholeWord (h : IsKey word) : Keyed word.toList (wholeWord word) where
  word_ne := h.1
  word_free := h.free
  starts {_ _ found} hread := by
    obtain ⟨⟨⟩, rest⟩ := found
    obtain ⟨-, rfl, -⟩ := wholeWord_eq_some_iff.mp hread
    exact List.prefix_append _ _
  stays {_ front rest} hread := by
    obtain ⟨⟨⟨⟩, left⟩, hread⟩ := Option.isSome_iff_exists.mp hread
    obtain ⟨hafterWord, htext, hends⟩ := wholeWord_eq_some_iff.mp hread
    obtain ⟨second, rfl, rfl⟩ := exists_append_of_not_mem (h.free '=' (by decide)) htext.symm
    refine Option.isSome_iff_exists.mpr ⟨((), second ++ ['=', '\n']),
      wholeWord_eq_some_iff.mpr ⟨hafterWord, List.append_assoc _ _ _, ?_⟩⟩
    cases second with
    | nil => exact forall_head?_cons not_isWordChar_rule _
    | cons c second => exact hends

theorem keyed_keywordThenName (h : IsKey word) : Keyed word.toList (keywordThenName word) where
  word_ne := h.1
  word_free := h.free
  starts {_ _ found} hread := by
    obtain ⟨-, blanks, name, hnamed, -⟩ := keywordThenName_eq_some_iff.mp hread
    exact ⟨_, hnamed.text.symm⟩
  stays {_ front rest} hread := by
    obtain ⟨⟨value, left⟩, hread⟩ := Option.isSome_iff_exists.mp hread
    obtain ⟨hafterWord, blanks, name, hnamed, hvalue⟩ := keywordThenName_eq_some_iff.mp hread
    have hfree : '=' ∉ word.toList ++ (blanks ++ name) := (hnamed.phrase h.2).not_mem (by decide)
    have htext : (word.toList ++ (blanks ++ name)) ++ left = front ++ '=' :: rest := by
      rw [hnamed.text]
      simp only [List.append_assoc]
    obtain ⟨second, rfl, rfl⟩ := exists_append_of_not_mem hfree htext
    refine Option.isSome_iff_exists.mpr ⟨(value, second ++ ['=', '\n']),
      keywordThenName_eq_some_iff.mpr ⟨hafterWord, blanks, name,
        { hnamed with text := ?_, ends := ?_ }, hvalue⟩⟩
    · simp only [List.append_assoc]
    · cases second with
      | nil => exact forall_head?_cons not_isWordChar_rule _
      | cons c second => exact hnamed.ends

end ContractLens.Text
