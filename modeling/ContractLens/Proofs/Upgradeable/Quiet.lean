import ContractLens.Proofs.Text.Alike
import ContractLens.Proofs.Upgradeable.Bases
import ContractLens.Proofs.Upgradeable.Imports
/-!
# Quiet labels

A path that shows no sign itself, and no word that starts one, is quiet (`Quiet`). Texts that differ
in quiet paths show the same calls and the same names. They show the same imports if the paths have
no quotation mark and no semicolon, where an import that starts before them would end, and the same
bases if the paths have no brace and no telling word (`importsMarked_of_alike`,
`declaresMarked_of_alike`, `inheritsMarked_of_alike`).
-/

namespace ContractLens

open Text

namespace Upgradeable

/-! ## Quiet labels -/

/-- The part of a line on which a path stands shows no sign, and starts none. -/
structure Quiet (label : List Char) : Prop where
  /-- The word for imports does not stand there. -/
  imports : occurs (wholeWord "import") label = false
  /-- Nothing is declared. -/
  declares : ∀ word ∈ headWords, occurs (keywordThenName word) label = false
  /-- There is no call in the caller's context. -/
  delegates : contains "delegatecall".toList label = false
  /-- There is no function of an administrator. -/
  functions : holdsAny functionMarks label = false

instance (label : List Char) : Decidable (Quiet label) :=
  decidable_of_iff (occurs (wholeWord "import") label = false ∧
    (∀ word ∈ headWords, occurs (keywordThenName word) label = false) ∧
    contains "delegatecall".toList label = false ∧ holdsAny functionMarks label = false)
    ⟨fun ⟨imports, declares, delegates, functions⟩ => ⟨imports, declares, delegates, functions⟩,
      fun h => ⟨h.imports, h.declares, h.delegates, h.functions⟩⟩

theorem isKey_of_headWord {word : String} (h : word ∈ headWords) : IsKey word :=
  (isWordChar_of_headWord h).symm

/-- The words that start an import or a declaration do not stand in a text. -/
def Silent (front : List Char) : Prop :=
  ∀ word ∈ "import" :: headWords, contains word.toList front = false

instance (front : List Char) : Decidable (Silent front) :=
  inferInstanceAs (Decidable (∀ word ∈ "import" :: headWords, contains word.toList front = false))

theorem silent_nil : Silent [] := by decide

section Quiet

variable {front part before inner : List Char}

theorem Quiet.importedPath_eq_none (h : Quiet part) (hfront : Silent front) (hruled : Ruled part)
    (htext : front ++ ':' :: part = before ++ inner) (hne : inner ≠ []) (afterWord : Bool)
    (rest : List Char) : importedPath (wordBefore afterWord before) (inner ++ rest) = none := by
  have hkey : IsKey "import" := ⟨by decide, forall_mem_of_all (by decide)⟩
  have hnone := (keyed_wholeWord hkey).none_of_line (hfront _ List.mem_cons_self) hruled h.imports
    htext hne afterWord rest
  rw [importedPath, hnone]
  rfl

theorem Quiet.keywordThenName_eq_none (h : Quiet part) (hfront : Silent front) {word : String}
    (hword : word ∈ headWords) (hruled : Ruled part)
    (htext : front ++ ':' :: part = before ++ inner) (hne : inner ≠ []) (afterWord : Bool)
    (rest : List Char) :
    keywordThenName word (wordBefore afterWord before) (inner ++ rest) = none :=
  (keyed_keywordThenName (isKey_of_headWord hword)).none_of_line
    (hfront _ (List.mem_cons_of_mem _ hword)) hruled (h.declares word hword) htext hne afterWord
    rest

/-- No declaration starts on a quiet line. -/
theorem Quiet.not_telling (h : Quiet part) (hfront : Silent front) (hruled : Ruled part)
    (htext : front ++ ':' :: part = before ++ inner) (hne : inner ≠ []) {afterWord : Bool}
    (hstart : wordBefore afterWord before = false) (rest : List Char) :
    ¬ Telling (inner ++ rest) := by
  rintro ⟨word, hword, blanks, name, tail, before', after, bases, left, hnamed, -⟩
  have hread := h.keywordThenName_eq_none hfront hword hruled htext hne afterWord rest
  rw [hstart, keywordThenName_eq_some_iff.mpr ⟨rfl, blanks, name, hnamed, rfl⟩] at hread
  cases hread

end Quiet

/-! ## Signs of texts that are alike -/

section Alike

variable {inert : List Char → Prop} {cs ds path left : List Char}

/-- A text in quotation marks goes up to the same mark in texts that are alike. -/
theorem readQuoted?_alike (hclear : ∀ part, inert part → Clear part) (h : Alike inert cs ds)
    {c : Char} (hread : readQuoted? (c :: cs) = some (path, left)) :
    ∃ closing path' left', cs = path ++ closing :: left ∧ ds = path' ++ closing :: left' ∧
      readQuoted? (c :: ds) = some (path', left') ∧ Alike inert path path' ∧
      Alike inert left left' := by
  obtain ⟨opening, closing, hquoted⟩ := readQuoted?_eq_some_iff.mp hread
  obtain ⟨rfl, rfl⟩ := List.cons.inj hquoted.text
  obtain ⟨path', left', rfl, hpath, hfree, hleft⟩ := h.cut (p := fun c => isQuote c = false)
    (fun part hpart c hc => (hclear part hpart c hc).1) (by decide) hquoted.free
    (by rw [hquoted.closes]; decide)
  have hne : path' ≠ [] := by
    rintro rfl
    exact hquoted.ne (hpath.symm.eq_of_not_mem nofun).symm
  exact ⟨closing, path', left', rfl, rfl, readQuoted?_eq_some_iff.mpr ⟨c, closing,
    ⟨rfl, hquoted.opens, hquoted.closes, hne, hfree⟩⟩, hpath, hleft⟩

/-- The first path is found in the same place of texts that are alike. -/
theorem firstQuoted?_alike (hclear : ∀ part, inert part → Clear part) (h : Alike inert cs ds)
    (hfound : firstQuoted? cs = some (path, left)) :
    ∃ taken taken' path' left', cs = taken ++ left ∧ ds = taken' ++ left' ∧
      firstQuoted? ds = some (path', left') ∧ Alike inert path path' ∧
      Alike inert taken taken' ∧ Alike inert left left' := by
  induction h with
  | nil => cases hfound
  | @same c cs ds h ih =>
    rw [firstQuoted?] at hfound
    split at hfound
    · rename_i found hread
      cases hfound
      obtain ⟨closing, path', left', rfl, rfl, hother, hpath, hleft⟩ :=
        readQuoted?_alike hclear h hread
      refine ⟨c :: (path ++ [closing]), c :: (path' ++ [closing]), path', left', ?_, ?_, ?_, hpath,
        .same c (hpath.append (.refl _)), hleft⟩
      · rw [List.cons_append, List.append_assoc, List.singleton_append]
      · rw [List.cons_append, List.append_assoc, List.singleton_append]
      · rw [firstQuoted?, hother]
    · rename_i hread
      split at hfound
      · cases hfound
      · rename_i hsemicolon
        have hother : readQuoted? (c :: ds) = none := by
          cases hother : readQuoted? (c :: ds) with
          | none => rfl
          | some found =>
            obtain ⟨_, _, _, _, _, hsome, _⟩ := readQuoted?_alike hclear h.symm hother
            rw [hsome] at hread
            cases hread
        obtain ⟨taken, taken', path', left', rfl, rfl, hfound', hpath, htaken, hleft⟩ := ih hfound
        refine ⟨c :: taken, c :: taken', path', left', rfl, rfl, ?_, hpath, .same c htaken, hleft⟩
        rw [firstQuoted?, hother]
        dsimp only
        rw [if_neg hsemicolon]
        exact hfound'
  | @gap part other cs ds hpart hinert hother hinert' h ih =>
    have hcolon : isQuote ':' = false ∧ ':' ≠ ';' := by decide
    have hgap : ∀ {part}, inert part → Clear (':' :: part) := fun hinert =>
      List.forall_mem_cons.mpr ⟨hcolon, hclear _ hinert⟩
    rw [← List.cons_append, firstQuoted?_append_of_clear (hgap hinert)] at hfound
    obtain ⟨taken, taken', path', left', rfl, rfl, hfound', hpath, htaken, hleft⟩ := ih hfound
    refine ⟨':' :: (part ++ taken), ':' :: (other ++ taken'), path', left', ?_, ?_, ?_, hpath,
      .gap hpart hinert hother hinert' htaken, hleft⟩
    · rw [List.cons_append, List.append_assoc]
    · rw [List.cons_append, List.append_assoc]
    · rw [← List.cons_append, firstQuoted?_append_of_clear (hgap hinert')]
      exact hfound'

/-- Imports are read in the same way. -/
theorem faithful_importedPath (hquiet : ∀ part, inert part → Quiet part)
    (hclear : ∀ part, inert part → Clear part) :
    Faithful inert importedPath (Alike inert) where
  passes hruled hinert htext hne :=
    (hquiet _ hinert).importedPath_eq_none silent_nil hruled htext hne
  follows {afterWord cs ds a left} h hread := by
    obtain ⟨hafterWord, tail, rfl, hhead, hfound⟩ := importedPath_eq_some_iff.mp hread
    obtain ⟨tail', rfl, htail⟩ := h.of_append (by decide)
    obtain ⟨taken, taken', path', left', rfl, rfl, hfound', hpath, htaken, hleft⟩ :=
      firstQuoted?_alike hclear htail hfound
    refine ⟨"import".toList ++ taken, "import".toList ++ taken', path', left',
      (List.append_assoc _ _ _).symm, (List.append_assoc _ _ _).symm,
      List.append_ne_nil_of_left_ne_nil (by decide) _, ?_, hpath,
      (Alike.refl "import".toList).append htaken, hleft⟩
    exact importedPath_eq_some_iff.mpr ⟨hafterWord, _, rfl, htail.head?_eq ▸ hhead, hfound'⟩

/-- Names are read as they are. -/
theorem faithful_keywordThenName {word : String} (hword : word ∈ headWords)
    (hquiet : ∀ part, inert part → Quiet part) : Faithful inert (keywordThenName word) Eq where
  passes hruled hinert htext hne :=
    (hquiet _ hinert).keywordThenName_eq_none silent_nil hword hruled htext hne
  follows {afterWord cs ds a left} h hread := by
    obtain ⟨hafterWord, blanks, name, hnamed, hvalue⟩ := keywordThenName_eq_some_iff.mp hread
    have hfree : ':' ∉ word.toList ++ (blanks ++ name) :=
      (hnamed.phrase (isKey_of_headWord hword).2).not_mem (by decide)
    have htext : cs = (word.toList ++ (blanks ++ name)) ++ left := by
      rw [hnamed.text]
      simp only [List.append_assoc]
    rw [htext] at h
    obtain ⟨left', rfl, hleft⟩ := h.of_append hfree
    refine ⟨_, _, a, left', htext, rfl,
      List.append_ne_nil_of_left_ne_nil (isKey_of_headWord hword).1 _, ?_, rfl, .refl _, hleft⟩
    refine keywordThenName_eq_some_iff.mpr ⟨hafterWord, blanks, name,
      { hnamed with text := ?_, ends := hleft.head?_eq ▸ hnamed.ends }, hvalue⟩
    simp only [List.append_assoc]

/-- A mark in the one text is in the other, if the parts of their own do not hold it. -/
theorem infix_of_alike {mark : List Char} (hfree : ':' ∉ mark ∧ '\n' ∉ mark)
    (hinert : ∀ part, inert part → ¬ mark <:+: part) (h : Alike inert cs ds)
    (hinside : mark <:+: cs) : mark <:+: ds := by
  obtain ⟨start, rest, rfl⟩ := hinside
  rw [List.append_assoc] at h
  rcases h.place with ⟨start', rest', rfl, -, hrest⟩ |
    ⟨part, hruled, hpart, outer, before, inner, after, -, htext, hpart_eq, hbefore, hne⟩
  · obtain ⟨rest', rfl, -⟩ := hrest.of_append hfree.1
    exact ⟨start', rest', List.append_assoc _ _ _⟩
  · obtain ⟨front, rfl⟩ : ∃ front, inner = front ++ ['\n'] := by
      rcases hruled.suffix hpart_eq hne with rfl | ⟨front, rfl⟩
      · exact ⟨[], rfl⟩
      · exact ⟨front ++ ['='], by rw [List.append_assoc, List.singleton_append]⟩
    rw [List.append_assoc, List.singleton_append] at htext
    obtain ⟨second, rfl, -⟩ := exists_append_of_not_mem hfree.2 htext
    obtain ⟨c, before, rfl⟩ := List.exists_cons_of_ne_nil hbefore
    rw [List.cons_append] at hpart_eq
    obtain ⟨-, rfl⟩ := List.cons.inj hpart_eq
    refine absurd ⟨before, second ++ ['\n'], ?_⟩ (hinert _ hpart)
    simp only [List.append_assoc]

theorem importsMarked_of_alike (hquiet : ∀ part, inert part → Quiet part)
    (hclear : ∀ part, inert part → Clear part) (h : Alike inert cs ds) :
    importsMarked cs = importsMarked ds := by
  have hfree : ∀ mark ∈ importMarks, ':' ∉ mark.toList := by decide
  have hstarts : ∀ {path path' : List Char}, Alike inert path path' → ∀ mark ∈ importMarks,
      mark.toList.isPrefixOf path = true → mark.toList.isPrefixOf path' = true := by
    intro path path' hpath mark hmark hprefix
    obtain ⟨rest, rfl⟩ := List.isPrefixOf_iff_prefix.mp hprefix
    obtain ⟨rest', rfl, -⟩ := hpath.of_append (hfree mark hmark)
    exact List.isPrefixOf_iff_prefix.mpr (List.prefix_append _ _)
  refine h.any_findAll (faithful_importedPath hquiet hclear) fun path path' hpath => ?_
  rw [Bool.eq_iff_iff, List.any_eq_true, List.any_eq_true]
  exact ⟨fun ⟨mark, hmark, hprefix⟩ => ⟨mark, hmark, hstarts hpath mark hmark hprefix⟩,
    fun ⟨mark, hmark, hprefix⟩ => ⟨mark, hmark, hstarts hpath.symm mark hmark hprefix⟩⟩

theorem declaresMarked_of_alike (hquiet : ∀ part, inert part → Quiet part)
    (h : Alike inert cs ds) : declaresMarked cs = declaresMarked ds :=
  h.any_findAll (faithful_keywordThenName List.mem_cons_self hquiet) fun _ _ hname => hname ▸ rfl

/-- The head of a declaration, up to its bases, is made of words and blanks. -/
theorem phrase_of_head {word : String} (hword : word ∈ headWords)
    {whole blanks name tail before after bases left : List Char}
    (hnamed : NamedBy word.toList whole blanks name tail)
    (hbased : Declaration.BasedOn tail before after bases left) :
    Phrase (word.toList ++ (blanks ++ (name ++ (before ++ (['i', 's'] ++ after))))) := by
  have his : ∀ c ∈ ['i', 's'], isWordChar c = true := forall_mem_of_all (by decide)
  have hnames := hnamed.phrase (isKey_of_headWord hword).2
  intro c hc
  rw [← List.append_assoc blanks, ← List.append_assoc word.toList] at hc
  rcases List.mem_append.mp hc with hc | hc
  · exact hnames c hc
  simp only [List.mem_append] at hc
  rcases hc with hc | hc | hc
  · exact .inr (hbased.before_blank c hc)
  · exact .inl (his c hc)
  · exact .inr (hbased.after_blank c hc)

/-- A declaration with telling bases stands in texts that are alike, if the parts of their own have
neither marks nor braces. -/
theorem Telling.of_alike (hbrace : ∀ part, inert part → '\x7b' ∉ part)
    (hbases : ∀ part, inert part → holdsAny baseMarks part = false) (h : Alike inert cs ds)
    (htelling : Telling cs) : Telling ds := by
  obtain ⟨word, hword, blanks, name, tail, before, after, bases, left, hnamed, hbased, mark, hmark,
    hinside⟩ := htelling
  have hmarks : ∀ mark ∈ baseMarks, ':' ∉ mark.toList ∧ '\n' ∉ mark.toList := by decide
  have hfree : ':' ∉ word.toList ++ (blanks ++ (name ++ (before ++ (['i', 's'] ++ after)))) :=
    (phrase_of_head hword hnamed hbased).not_mem (by decide)
  have htext : cs = (word.toList ++ (blanks ++ (name ++ (before ++ (['i', 's'] ++ after))))) ++
      (bases ++ '\x7b' :: left) := by
    rw [hnamed.text, hbased.text]
    simp only [List.append_assoc]
  rw [htext] at h
  obtain ⟨rest, rfl, hrest⟩ := h.of_append hfree
  obtain ⟨bases', left', rfl, hbases', hno_brace, -⟩ := hrest.cut (p := fun c => c ≠ '\x7b')
    (fun part hpart c hc heq => hbrace part hpart (heq ▸ hc)) (by decide)
    (fun c hc heq => hbased.no_brace (heq ▸ hc)) (fun h => h rfl)
  have hnamed' := namedBy_of_based hnamed hbased
    (['i', 's'] ++ (after ++ (bases' ++ '\x7b' :: left')))
  refine ⟨word, hword, blanks, name, _, before, after, bases', left', ?_,
    { hbased with
      text := rfl
      no_brace := fun hmem => hno_brace _ hmem rfl
      starts := hbases'.head?_eq ▸ hbased.starts }, mark, hmark, ?_⟩
  · simpa only [List.append_assoc] using hnamed'
  · refine infix_of_alike (hmarks mark hmark) (fun part hpart hheld => ?_) hbases' hinside
    have hholds := holdsAny_iff.mpr ⟨mark, hmark, hheld⟩
    rw [hbases part hpart] at hholds
    cases hholds

theorem inheritsMarked_of_alike (hquiet : ∀ part, inert part → Quiet part)
    (hbrace : ∀ part, inert part → '\x7b' ∉ part)
    (hbases : ∀ part, inert part → holdsAny baseMarks part = false) (h : Alike inert cs ds)
    (hmarked : inheritsMarked cs = true) : inheritsMarked ds = true := by
  obtain ⟨start, rest, rfl, hstart, htelling⟩ := inheritsMarked_iff.mp hmarked
  rcases h.place with ⟨start', rest', rfl, hstart', hrest⟩ |
    ⟨part, hruled, hpart, outer, before, inner, after, rfl, rfl, htext, -, hne⟩
  · exact inheritsMarked_iff.mpr ⟨start', rest', rfl, hstart'.wordBefore_eq false ▸ hstart,
      htelling.of_alike hbrace hbases hrest⟩
  · rw [wordBefore_append] at hstart
    exact absurd htelling ((hquiet part hpart).not_telling silent_nil hruled htext hne hstart
      after)

end Alike

end Upgradeable

end ContractLens
