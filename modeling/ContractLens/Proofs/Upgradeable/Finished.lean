import ContractLens.Proofs.Source.Lowered
import ContractLens.Proofs.Upgradeable.Parts
import ContractLens.Proofs.Upgradeable.Quiet
/-!
# Finished contents

Most contents leave nothing open: an import has its path or a semicolon, a list of bases its brace
(`Finished`). That is checked by putting what is missing behind the content: nothing more is read.
Then a set shows the imports and bases that its contents show, whatever stands on the lines between
them, as long as these are quiet (`Finished.importsMarked_append`, `Finished.inheritsMarked_append`,
`Quiet.importsMarked_append`, `Quiet.inheritsMarked_append`).
-/

namespace ContractLens

open Text

namespace Text

variable {α : Type} {read : Recogniser α}

/-- Reads where nothing is read but for an ending behind the text. -/
def openEnded (read : Recogniser α) (ending : List Char) : Recogniser Unit := fun afterWord cs =>
  if (read afterWord cs).isNone && (read afterWord (cs ++ ending)).isSome then some ((), [])
  else none

/-- Where nothing is left open, the ending makes no reading. -/
theorem none_of_not_open {ending start rest : List Char}
    (h : occurs (openEnded read ending) (start ++ rest) = false) (hne : rest ≠ [])
    (hnone : read (wordBefore false start) rest = none) :
    read (wordBefore false start) (rest ++ ending) = none := by
  cases hread : read (wordBefore false start) (rest ++ ending) with
  | none => rfl
  | some found =>
    have hopen : (openEnded read ending (wordBefore false start) rest).isSome = true := by
      rw [openEnded, hnone, hread]
      rfl
    rw [occurs_of_place hne hopen] at h
    cases h

end Text

namespace Upgradeable

/-- No import and no declaration of a content is left open: a path behind the content would not be
the path of one, and neither would a base with a brace be a base of the other. -/
structure Finished (content : List Char) : Prop where
  /-- Every word for imports that stands alone has its path, or a semicolon. -/
  imports : occurs (openEnded importedPath ['\x22', '_', '\x22']) content = false
  /-- Every list of bases has its brace. -/
  bases : occurs (openEnded inheritance ['\n', '_', '\x7b']) content = false

instance (content : List Char) : Decidable (Finished content) :=
  decidable_of_iff (occurs (openEnded importedPath ['\x22', '_', '\x22']) content = false ∧
    occurs (openEnded inheritance ['\n', '_', '\x7b']) content = false)
    ⟨fun ⟨imports, bases⟩ => ⟨imports, bases⟩, fun h => ⟨h.imports, h.bases⟩⟩

/-! ## Imports of finished contents -/

section Imports

variable {cs rest : List Char}

theorem readQuoted?_of_not_quote {c : Char} (hc : isQuote c = false) (cs : List Char) :
    readQuoted? (c :: cs) = none := by
  rw [readQuoted?, if_neg (by rw [hc]; decide)]

/-- Where a path is found only because a text goes on, one that follows at once is found as well. -/
theorem isSome_firstQuoted?_append (hnone : firstQuoted? cs = none)
    (hsome : (firstQuoted? (cs ++ rest)).isSome = true) :
    (firstQuoted? (cs ++ ['\x22', '_', '\x22'])).isSome = true := by
  induction cs with
  | nil => decide
  | cons c cs ih =>
    rw [firstQuoted?] at hnone
    split at hnone
    · cases hnone
    rename_i hread
    -- the search goes on in the same way, unless an open quotation mark stands here
    have hlater : (∀ rest, readQuoted? (c :: (cs ++ rest)) = none) →
        (firstQuoted? (c :: cs ++ ['\x22', '_', '\x22'])).isSome = true := by
      intro hreads
      rw [List.cons_append, firstQuoted?, hreads] at hsome ⊢
      dsimp only at hsome ⊢
      split at hnone
      · rename_i hsemicolon
        rw [if_pos hsemicolon] at hsome
        cases hsome
      · rename_i hsemicolon
        rw [if_neg hsemicolon] at hsome ⊢
        exact ih hnone hsome
    by_cases hquote : ∃ d ∈ cs, isQuote d = true
    · obtain ⟨d, hd, hquote⟩ := hquote
      refine hlater fun rest => ?_
      rw [readQuoted?_append hd hquote, hread]
      rfl
    cases hc : isQuote c with
    | false => exact hlater fun rest => readQuoted?_of_not_quote hc _
    | true =>
      have hfree : ∀ d ∈ cs, isQuote d = false := fun d hd =>
        Bool.eq_false_iff.mpr fun hd' => hquote ⟨d, hd, hd'⟩
      cases cs with
      | nil =>
        simp only [isQuote, Bool.or_eq_true, beq_iff_eq] at hc
        rcases hc with rfl | rfl <;> decide
      | cons d cs =>
        have hquoted : readQuoted? (c :: (d :: cs ++ ['\x22', '_', '\x22'])) =
            some (d :: cs, ['_', '\x22']) :=
          readQuoted?_eq_some_iff.mpr ⟨c, '\x22', rfl, hc, by decide, List.cons_ne_nil _ _, hfree⟩
        rw [List.cons_append, firstQuoted?, hquoted]
        rfl

/-- **Imports of a finished content end in it.** -/
theorem Finished.apart_importedPath (h : Finished cs) (rest : List Char) :
    Apart importedPath false cs ('\n' :: rest) := by
  rintro before inner rfl hne
  cases hread : importedPath (wordBefore false before) inner with
  | some found => exact (growing_importedPath ('\n' :: rest)).stays hread
  | none =>
    have hended := none_of_not_open h.imports hne hread
    cases hwhole : importedPath (wordBefore false before) (inner ++ '\n' :: rest) with
    | none => rfl
    | some found =>
      obtain ⟨hstart, tail, htext, hhead, hfound⟩ := importedPath_eq_some_iff.mp hwhole
      obtain ⟨second, rfl, rfl⟩ := exists_append_of_not_mem (by decide) htext.symm
      rw [hstart] at hread hended
      have hends : ∀ {ending : List Char}, (∀ c ∈ ending.head?, isWordChar c = false) →
          ∀ c ∈ (second ++ ending).head?, isWordChar c = false := by
        intro ending hending
        cases second with
        | nil => exact hending
        | cons d second => exact hhead
      have hnone : firstQuoted? second = none := by
        cases hsecond : firstQuoted? second with
        | none => rfl
        | some other =>
          have hhere := importedPath_eq_some_iff.mpr
            ⟨rfl, second, rfl, List.append_nil second ▸ hends nofun, hsecond⟩
          rw [hread] at hhere
          cases hhere
      obtain ⟨other, hother⟩ := Option.isSome_iff_exists.mp
        (isSome_firstQuoted?_append hnone (Option.isSome_of_eq_some hfound))
      have hquote : ∀ c ∈ ['\x22', '_', '\x22'].head?, isWordChar c = false :=
        forall_head?_cons (by decide) _
      rw [importedPath_eq_some_iff.mpr ⟨rfl, _, List.append_assoc _ _ _, hends hquote, hother⟩]
        at hended
      cases hended

end Imports

/-- No path is read on a quiet line. -/
theorem Quiet.importsMarked_append {front part : List Char} (h : Quiet part)
    (hfront : Silent front) (hruled : Ruled part) (rest : List Char) :
    importsMarked ((front ++ ':' :: part) ++ rest) = importsMarked rest := by
  have hends : wordBefore false (front ++ ':' :: part) = false := by
    rw [wordBefore_append, wordBefore, hruled.wordBefore]
  rw [importsMarked, findAll, findAllFrom_of_passed fun before inner htext hne =>
    h.importedPath_eq_none hfront hruled htext hne false rest, hends, importsMarked, findAll]

/-- **A finished content shows its telling imports itself.** -/
theorem Finished.importsMarked_append (h : Finished cs) (rest : List Char) :
    importsMarked (cs ++ (['\n', '\n'] ++ rest)) = (importsMarked cs || importsMarked rest) := by
  have hends : ∀ afterWord, wordBefore afterWord ['\n', '\n'] = false := by decide
  have hunread : Unread importedPath ['\n', '\n'] := by
    intro c hc afterWord cs
    cases hread : importedPath afterWord (c :: cs) with
    | none => rfl
    | some found =>
      obtain ⟨-, tail, htext, -⟩ := importedPath_eq_some_iff.mp hread
      have hfree : ∀ c ∈ ['\n', '\n'], c ∉ "import".toList := forall_mem_of_all (by decide)
      exact absurd htext.symm (append_ne_cons (by decide) (hfree c hc) _ _)
  have hlines : ∀ afterWord, findAllFrom importedPath afterWord 0 (['\n', '\n'] ++ rest) =
      findAll importedPath rest := by
    intro afterWord
    rw [findAllFrom_of_unread hunread, hends, findAll]
  have hfound : findAll importedPath (cs ++ (['\n', '\n'] ++ rest)) =
      findAll importedPath cs ++ findAll importedPath rest :=
    (findAllFrom_append (h.apart_importedPath ('\n' :: rest)) (Nat.zero_le _)).trans
      (congrArg (findAll importedPath cs ++ ·) (hlines _))
  rw [importsMarked, hfound, List.any_append, importsMarked, importsMarked]

/-! ## Bases of finished contents -/

section Bases

variable {cs rest : List Char}

/-- A list of bases that is left open is read when one more base comes behind it, and a brace. -/
theorem inheritance_of_open {word : String} (hword : word ∈ headWords)
    {whole blanks name tail before after bases left body : List Char}
    (hnamed : NamedBy word.toList whole blanks name tail)
    (hbased : Declaration.BasedOn tail before after bases left) (hbrace : '\x7b' ∉ body)
    (hblank : ∀ c ∈ body.head?, isBlank c = true) :
    (inheritance false (word.toList ++ (blanks ++ (name ++ (before ++ (['i', 's'] ++
      (body ++ ['\n', '_', '\x7b']))))))).isSome = true := by
  have hwhole := namedBy_of_based hnamed hbased (['i', 's'] ++ (body ++ ['\n', '_', '\x7b']))
  have hfree : '\x7b' ∉ body ++ ['\n', '_'] := by
    rw [List.mem_append, not_or]
    exact ⟨hbrace, by decide⟩
  have hafter : (body ++ ['\n', '_']).takeWhile isBlank ≠ [] := by
    cases body with
    | nil => decide
    | cons c body =>
      rw [List.cons_append, List.takeWhile_cons_of_pos (hblank c rfl)]
      exact List.cons_ne_nil _ _
  have hbases : (body ++ ['\n', '_']).dropWhile isBlank ≠ [] := by
    intro hnil
    have hlast := List.dropWhile_eq_nil_iff.mp hnil '_'
      (List.mem_append_right _ (List.mem_cons_of_mem _ List.mem_cons_self))
    exact absurd hlast (by decide)
  have hopen : Declaration.BasedOn (before ++ (['i', 's'] ++ (body ++ ['\n', '_', '\x7b']))) before
      ((body ++ ['\n', '_']).takeWhile isBlank) ((body ++ ['\n', '_']).dropWhile isBlank) [] :=
    { hbased with
      text := by
        rw [← List.append_assoc (List.takeWhile _ _), List.takeWhile_append_dropWhile,
          List.append_assoc]
        rfl
      after_ne := hafter
      after_blank := fun c hc => List.mem_takeWhile_imp hc
      no_brace := fun hmem => hfree ((List.dropWhile_suffix _).subset hmem)
      starts := head?_dropWhile_eq_false isBlank _ }
  exact Option.isSome_of_eq_some (inheritance_of_parts hword hwhole hopen hbases)

/-- A text of word characters and blanks does not reach across a break, if it ends with a word. -/
theorem exists_append_of_break {head inner later : List Char} {last : Char}
    (hphrase : Phrase (head ++ [last])) (hlast : isBlank last = false) (hbreak : Break rest)
    (htext : (head ++ [last]) ++ later = inner ++ rest) :
    ∃ body, inner = (head ++ [last]) ++ body ∧ later = body ++ rest := by
  rcases List.append_eq_append_iff.mp htext with ⟨body, hinner, hlater⟩ | ⟨others, hhead, rfl⟩
  · exact ⟨body, hinner, hlater⟩
  rcases List.prefix_concat_iff.mp ⟨others, hhead.symm⟩ with rfl | ⟨more, rfl⟩
  · rw [List.self_eq_append_right.mp hhead]
    exact ⟨[], (List.append_nil _).symm, rfl⟩
  · -- what reaches over ends with the last character, so that it holds a rule
    rw [List.append_assoc] at hhead
    obtain ⟨d, hd, hrule⟩ := hbreak.exists_isRule
      (List.append_cancel_left hhead ▸ List.mem_append_right more List.mem_cons_self) hlast
    have hmem : d ∈ inner ++ more ++ [last] := by
      rw [List.append_assoc, hhead]
      exact List.mem_append_right _ hd
    rcases hrule with rfl | rfl <;> exact absurd hmem (hphrase.not_mem (by decide))

/-- A mark that ends a front without it stands in the first of two texts, if there is one. -/
theorem exists_append_of_mem {front left body : List Char} {mark : Char} (hfree : mark ∉ front)
    (hmem : mark ∈ body) (htext : front ++ mark :: left = body ++ rest) :
    ∃ left', body = front ++ mark :: left' := by
  rcases List.append_eq_append_iff.mp htext with ⟨others, rfl, hleft⟩ | ⟨more, rfl, -⟩
  · cases others with
    | nil => exact absurd (List.append_nil front ▸ hmem) hfree
    | cons c others =>
      rw [List.cons_append] at hleft
      obtain ⟨rfl, -⟩ := List.cons.inj hleft
      exact ⟨others, rfl⟩
  · exact absurd (List.mem_append_left _ hmem) hfree

/-- Bases are read up to a brace. -/
theorem brace_mem_of_inheritance {afterWord : Bool} {found : List Char × List Char}
    (h : inheritance afterWord cs = some found) : '\x7b' ∈ cs := by
  obtain ⟨-, word, -, blanks, name, tail, before, after, bases, hnamed, hbased, -⟩ :=
    parts_of_inheritance h
  rw [hnamed.text, hbased.text]
  simp only [List.mem_append, List.mem_cons, true_or, or_true]

/-- **Telling bases that are named in a finished content end there.** -/
theorem Finished.telling (h : Finished cs) {start inner : List Char} (hcs : cs = start ++ inner)
    (hne : inner ≠ []) (hstart : wordBefore false start = false) (hbreak : Break rest)
    (htelling : Telling (inner ++ rest)) : Telling inner := by
  obtain ⟨word, hword, blanks, name, tail, before, after, bases, left, hnamed, hbased, hmark⟩ :=
    htelling
  have hshape : ∀ later, ((word.toList ++ (blanks ++ (name ++ (before ++ ['i'])))) ++ ['s']) ++
      later = word.toList ++ (blanks ++ (name ++ (before ++ (['i', 's'] ++ later)))) := by
    intro later
    simp only [List.append_assoc, List.cons_append, List.nil_append]
  have hphrase : Phrase ((word.toList ++ (blanks ++ (name ++ (before ++ ['i'])))) ++ ['s']) :=
    fun c hc => phrase_of_head hword hnamed hbased c (hshape after ▸ List.mem_append_left _ hc)
  obtain ⟨body, rfl, hbody⟩ : ∃ body,
      inner = ((word.toList ++ (blanks ++ (name ++ (before ++ ['i'])))) ++ ['s']) ++ body ∧
        (after ++ bases) ++ '\x7b' :: left = body ++ rest := by
    refine exists_append_of_break hphrase (by decide) hbreak ?_
    rw [hshape, hnamed.text, hbased.text, List.append_assoc after]
  have hafter : ∀ c ∈ after, isBlank c = true := hbased.after_blank
  by_cases hbrace : '\x7b' ∈ body
  · -- the brace that ends the list stands in the content
    have hfree : '\x7b' ∉ after ++ bases := by
      rw [List.mem_append, not_or]
      exact ⟨fun hmem => absurd (hafter _ hmem) (by decide), hbased.no_brace⟩
    obtain ⟨left', rfl⟩ := exists_append_of_mem hfree hbrace hbody
    refine ⟨word, hword, blanks, name, _, before, after, bases, left',
      hshape _ ▸ namedBy_of_based hnamed hbased _, { hbased with text := ?_ }, hmark⟩
    rw [List.append_assoc after]
  · -- otherwise the list would be left open
    have hnone : inheritance (wordBefore false start)
        (((word.toList ++ (blanks ++ (name ++ (before ++ ['i'])))) ++ ['s']) ++ body) = none := by
      cases hread : inheritance (wordBefore false start) _ with
      | none => rfl
      | some found =>
        rcases List.mem_append.mp (brace_mem_of_inheritance hread) with hmem | hmem
        · exact absurd hmem (hphrase.not_mem (by decide))
        · exact absurd hmem hbrace
    have hblank : ∀ c ∈ body.head?, isBlank c = true := by
      obtain ⟨a, as, rfl⟩ := List.exists_cons_of_ne_nil hbased.after_ne
      cases body with
      | nil => exact nofun
      | cons c body =>
        rw [List.cons_append, List.cons_append, List.cons_append] at hbody
        obtain ⟨rfl, -⟩ := List.cons.inj hbody
        exact forall_head?_cons (hafter a List.mem_cons_self) _
    have hended := none_of_not_open (hcs ▸ h.bases) hne hnone
    have hopen := inheritance_of_open hword hnamed hbased hbrace hblank
    rw [hstart, List.append_assoc, hshape] at hended
    rw [hended] at hopen
    cases hopen

theorem not_telling_of_blank {c : Char} (hc : isBlank c = true) (cs : List Char) :
    ¬ Telling (c :: cs) := by
  rintro ⟨word, hword, blanks, name, tail, before, after, bases, left, hnamed, -⟩
  obtain ⟨hisWord, hne⟩ := isWordChar_of_headWord hword
  refine append_ne_cons hne (fun hmem => ?_) _ _ hnamed.text.symm
  rw [isBlank_of_isWordChar (hisWord c hmem)] at hc
  cases hc

theorem Quiet.inheritsMarked_append {front part : List Char} (h : Quiet part)
    (hfront : Silent front) (hruled : Ruled part) (rest : List Char) :
    inheritsMarked ((front ++ ':' :: part) ++ rest) = inheritsMarked rest := by
  have hends : wordBefore false (front ++ ':' :: part) = false := by
    rw [wordBefore_append, wordBefore, hruled.wordBefore]
  rw [Bool.eq_iff_iff, inheritsMarked_iff, inheritsMarked_iff]
  constructor
  · rintro ⟨start, later, htext, hstart, htelling⟩
    rcases List.append_eq_append_iff.mp htext with ⟨others, rfl, rfl⟩ | ⟨inner, hpart, rfl⟩
    · refine ⟨others, later, rfl, ?_, htelling⟩
      rwa [wordBefore_append, hends] at hstart
    by_cases hne : inner = []
    · rw [hne] at htelling
      exact ⟨[], rest, rfl, rfl, htelling⟩
    · exact absurd htelling (h.not_telling hfront hruled hpart hne hstart rest)
  · rintro ⟨start, later, rfl, hstart, htelling⟩
    refine ⟨(front ++ ':' :: part) ++ start, later, (List.append_assoc _ _ _).symm, ?_, htelling⟩
    rw [wordBefore_append, hends, hstart]

/-- **A finished content shows its telling bases itself.** -/
theorem Finished.inheritsMarked_append (h : Finished cs)
    (hbreak : Break (['\n', '\n'] ++ rest)) :
    inheritsMarked (cs ++ (['\n', '\n'] ++ rest)) = (inheritsMarked cs || inheritsMarked rest) := by
  have hends : ∀ afterWord, wordBefore afterWord ['\n', '\n'] = false := by decide
  rw [Bool.eq_iff_iff, Bool.or_eq_true, inheritsMarked_iff, inheritsMarked_iff, inheritsMarked_iff]
  constructor
  · rintro ⟨start, later, htext, hstart, htelling⟩
    rcases List.append_eq_append_iff.mp htext with ⟨others, rfl, hothers⟩ | ⟨inner, rfl, rfl⟩
    · right
      rcases List.append_eq_append_iff.mp hothers with ⟨front, rfl, rfl⟩ | ⟨lines, hlines, rfl⟩
      · refine ⟨front, later, rfl, ?_, htelling⟩
        rwa [wordBefore_append, wordBefore_append, hends] at hstart
      · cases lines with
        | nil => exact ⟨[], rest, rfl, rfl, htelling⟩
        | cons c lines =>
          have hblank : ∀ c ∈ ['\n', '\n'], isBlank c = true := forall_mem_of_all (by decide)
          have hc : c ∈ ['\n', '\n'] := by
            rw [hlines]
            exact List.mem_append_right others List.mem_cons_self
          exact absurd htelling (not_telling_of_blank (hblank c hc) _)
    · by_cases hne : inner = []
      · rw [hne] at htelling
        exact absurd htelling (not_telling_of_blank (by decide) _)
      · exact .inl ⟨start, inner, rfl, hstart, h.telling rfl hne hstart hbreak htelling⟩
  · rintro (⟨start, later, rfl, hstart, htelling⟩ | ⟨start, later, rfl, hstart, htelling⟩)
    · exact ⟨start, later ++ _, List.append_assoc _ _ _, hstart, htelling.append _⟩
    · refine ⟨cs ++ (['\n', '\n'] ++ start), later, ?_, ?_, htelling⟩
      · simp only [List.append_assoc]
      · rw [wordBefore_append, wordBefore_append, hends, hstart]

end Bases

end Upgradeable

end ContractLens
