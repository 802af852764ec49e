import ContractLens.Proofs.Source.Lowered
import ContractLens.Proofs.Upgradeable.Bases
import ContractLens.Proofs.Upgradeable.Imports
/-!
# Verdicts on sets put together

The text of two sets is that of the one and then that of the other. Signs of the first are signs of
both: what is read in a text as a path is read there when the text goes on (`growing_importedPath`).
So are signs of the second but for one. Marks stand where they stood, telling bases are read
wherever a declaration names them, and no name is read across the start of the second text. But a
path that starts in the first text, at a quotation mark without a partner, ends at the first
quotation mark of the second, and what stands between is not read again. An import is lost only in
this way (`mem_findAll_or_swallows`).
-/

namespace ContractLens

open Text

namespace Upgradeable

/-! ## Paths in a text that goes on -/

section Paths

variable {cs rest path left : List Char}

/-- A text in quotation marks that can end in a text ends there, whatever follows. -/
theorem readQuoted?_append {c d : Char} (hd : d ∈ cs) (hquote : isQuote d = true)
    (rest : List Char) : readQuoted? (c :: (cs ++ rest)) =
      (readQuoted? (c :: cs)).map fun found => (found.1, found.2 ++ rest) := by
  have hdrop : cs.dropWhile (fun d => !isQuote d) ≠ [] := by
    intro hnil
    have hall := List.dropWhile_eq_nil_iff.mp hnil d hd
    rw [hquote] at hall
    cases hall
  obtain ⟨htake, hdropped⟩ := run_append _ cs (.inl hdrop)
  rw [readQuoted?, readQuoted?, List.span_eq_takeWhile_dropWhile, List.span_eq_takeWhile_dropWhile,
    htake, hdropped]
  obtain ⟨e, after, hafter⟩ := List.exists_cons_of_ne_nil hdrop
  rw [hafter, List.cons_append]
  split
  · dsimp only
    split <;> rfl
  · rfl

/-- There is a quotation mark where a path is found. -/
theorem exists_quote_of_firstQuoted? (h : (firstQuoted? cs).isSome = true) :
    ∃ d ∈ cs, isQuote d = true := by
  induction cs with
  | nil => cases h
  | cons c cs ih =>
    rw [firstQuoted?] at h
    split at h
    · rename_i found hfound
      obtain ⟨opening, closing, hquoted⟩ := readQuoted?_eq_some_iff.mp hfound
      exact ⟨opening, hquoted.text ▸ List.mem_cons_self, hquoted.opens⟩
    · split at h
      · cases h
      · obtain ⟨d, hd, hquote⟩ := ih h
        exact ⟨d, List.mem_cons_of_mem _ hd, hquote⟩

/-- Where a path can be found further down, the search does not go beyond the text. -/
theorem firstQuoted?_append {tail : List Char} (htail : tail <:+ cs)
    (hfound : (firstQuoted? tail).isSome = true) (rest : List Char) :
    firstQuoted? (cs ++ rest) =
      (firstQuoted? cs).map fun found => (found.1, found.2 ++ rest) := by
  induction cs generalizing tail with
  | nil =>
    rw [List.suffix_nil.mp htail] at hfound
    cases hfound
  | cons c cs ih =>
    -- a mark stands behind the first character, and the rest is as before or has a path
    obtain ⟨⟨d, hd, hquote⟩, hlater⟩ : (∃ d ∈ cs, isQuote d = true) ∧
        (readQuoted? (c :: cs) = none → (c == ';') = false → firstQuoted? (cs ++ rest) =
          (firstQuoted? cs).map fun found => (found.1, found.2 ++ rest)) := by
      rcases List.suffix_cons_iff.mp htail with rfl | htail
      · rw [firstQuoted?] at hfound
        split at hfound
        · rename_i found hread
          obtain ⟨opening, closing, hquoted⟩ := readQuoted?_eq_some_iff.mp hread
          obtain ⟨-, htext⟩ := List.cons.inj hquoted.text
          refine ⟨⟨closing, ?_, hquoted.closes⟩, fun hnone => ?_⟩
          · rw [htext]
            exact List.mem_append_right _ List.mem_cons_self
          · rw [hread] at hnone
            cases hnone
        · split at hfound
          · cases hfound
          · exact ⟨exists_quote_of_firstQuoted? hfound, fun _ _ => ih List.suffix_rfl hfound⟩
      · obtain ⟨d, hd, hquote⟩ := exists_quote_of_firstQuoted? hfound
        exact ⟨⟨d, htail.subset hd, hquote⟩, fun _ _ => ih htail hfound⟩
    rw [List.cons_append, firstQuoted?, firstQuoted?, readQuoted?_append hd hquote]
    cases hread : readQuoted? (c :: cs) with
    | some found => rfl
    | none =>
      dsimp only [Option.map_none]
      split
      · rfl
      · rename_i hsemicolon
        exact hlater hread (Bool.eq_false_iff.mpr hsemicolon)

/-- **Paths that are read in a text are read when it goes on**, and another one only behind them. -/
theorem growing_importedPath (rest : List Char) : Growing importedPath rest where
  stays {afterWord cs a left} hread := by
    obtain ⟨rfl, tail, rfl, hhead, hfound⟩ := importedPath_eq_some_iff.mp hread
    have hwhole := firstQuoted?_append List.suffix_rfl (by rw [hfound]; rfl) rest
    rw [hfound, Option.map_some] at hwhole
    refine importedPath_eq_some_iff.mpr ⟨rfl, tail ++ rest, List.append_assoc _ _ _, ?_, hwhole⟩
    cases tail with
    | nil => cases hfound
    | cons c tail => exact hhead
  last {afterWord c cs} hnone hsome := by
    refine List.eq_nil_iff_forall_not_mem.mpr fun a ha => ?_
    obtain ⟨before, inner, left, rfl, hread⟩ := exists_place_of_mem ha
    obtain ⟨-, tail, rfl, -, hfound⟩ := importedPath_eq_some_iff.mp hread
    obtain ⟨found, hwhole⟩ := Option.isSome_iff_exists.mp hsome
    obtain ⟨rfl, whole, htext, hhead, hwhole⟩ := importedPath_eq_some_iff.mp hwhole
    -- the keyword lies in the text, so what is found behind it is found there as well
    obtain ⟨own, hown, rfl⟩ : ∃ own, c :: (before ++ ("import".toList ++ tail)) =
        "import".toList ++ own ∧ whole = own ++ rest := by
      rw [← List.cons_append] at htext
      rcases List.append_eq_append_iff.mp htext with ⟨gap, hkeyword, -⟩ | ⟨own, hown, hwhole⟩
      · have hlength := congrArg List.length hkeyword
        simp only [List.length_append, List.length_cons] at hlength
        omega
      · exact ⟨own, hown, hwhole⟩
    have hsuffix : tail <:+ own := by
      have htail : tail <:+ c :: (before ++ ("import".toList ++ tail)) := by
        refine ⟨c :: (before ++ "import".toList), ?_⟩
        rw [List.cons_append, List.append_assoc]
      refine List.suffix_of_suffix_length_le htail ⟨"import".toList, hown.symm⟩ ?_
      have hlength := congrArg List.length hown
      simp only [List.length_append, List.length_cons] at hlength
      omega
    rw [firstQuoted?_append hsuffix (by rw [hfound]; rfl)] at hwhole
    obtain ⟨within, hwithin, -⟩ := Option.map_eq_some_iff.mp hwhole
    have hread : importedPath false (c :: (before ++ ("import".toList ++ tail))) = some within := by
      refine importedPath_eq_some_iff.mpr ⟨rfl, own, hown, ?_, hwithin⟩
      cases own with
      | nil => cases hwithin
      | cons d own => exact hhead
    rw [hread] at hnone
    cases hnone

end Paths

/-! ## Paths behind another text -/

section Behind

variable {cs path left right : List Char}

/-- Before the path that is found there is a text in which it does not matter where the search
starts. -/
theorem firstQuoted?_eq_some (h : firstQuoted? cs = some (path, left)) :
    ∃ lead quoted opening closing, cs = lead ++ quoted ∧
      QuotedBy quoted opening path closing left ∧
      ∀ second, second <:+ lead → firstQuoted? (second ++ quoted) = some (path, left) := by
  induction cs with
  | nil => cases h
  | cons c cs ih =>
    have hstep := h
    rw [firstQuoted?] at hstep
    split at hstep
    · rename_i found hread
      cases hstep
      obtain ⟨opening, closing, hquoted⟩ := readQuoted?_eq_some_iff.mp hread
      refine ⟨[], c :: cs, opening, closing, rfl, hquoted, fun second hsecond => ?_⟩
      rw [List.suffix_nil.mp hsecond]
      exact h
    · split at hstep
      · cases hstep
      · obtain ⟨lead, quoted, opening, closing, rfl, hquoted, hsecond⟩ := ih hstep
        refine ⟨c :: lead, quoted, opening, closing, rfl, hquoted, fun second hsuffix => ?_⟩
        rcases List.suffix_cons_iff.mp hsuffix with rfl | hsuffix
        · exact h
        · exact hsecond second hsuffix

/-- **A path that is read inside the reading of another is the same path, or the other holds its
keyword.** -/
theorem eq_or_infix_of_inside {front inner taken after : List Char} {afterWord : Bool}
    (hread : importedPath afterWord (front ++ inner) = some (taken, after))
    (hinner : importedPath (wordBefore afterWord front) inner = some (path, left))
    (hfront : front ≠ []) (hlength : after.length < inner.length) :
    (taken, after) = (path, left) ∨ "import".toList <:+: taken := by
  have hword : ∀ c ∈ "import".toList, isWordChar c = true ∧ isQuote c = false :=
    forall_mem_of_all (by decide)
  have hmark : ∀ {c : Char}, isQuote c = true → c ∉ "import".toList := fun hc hmem => by
    rw [(hword _ hmem).2] at hc
    cases hc
  obtain ⟨-, tail, htext, -, hfound⟩ := importedPath_eq_some_iff.mp hread
  obtain ⟨hstart, tail', rfl, -, hfound'⟩ := importedPath_eq_some_iff.mp hinner
  obtain ⟨lead, quoted, opening, closing, rfl, hquoted, hsecond⟩ := firstQuoted?_eq_some hfound
  rcases List.append_eq_append_iff.mp htext with ⟨gap, hkeyword, -⟩ | ⟨gap, rfl, hgap⟩
  · -- no word starts inside the keyword
    rw [wordBefore_of_forall hfront fun c hc =>
      (hword c (hkeyword ▸ List.mem_append_left gap hc)).1] at hstart
    cases hstart
  rw [hquoted.text] at hgap
  rcases List.append_eq_append_iff.mp hgap with ⟨beyond, rfl, htail⟩ | ⟨middle, hlead, htail⟩
  · cases beyond with
    | nil =>
      -- the keyword does not start with a mark
      exact absurd htail.symm (append_ne_cons (by decide) (hmark hquoted.opens) _ _)
    | cons c beyond =>
      obtain ⟨-, htail⟩ := List.cons.inj htail
      rcases List.append_eq_append_iff.mp htail with ⟨last, -, hlast⟩ | ⟨middle, htaken, hmiddle⟩
      · cases last with
        | nil => exact absurd hlast.symm (append_ne_cons (by decide) (hmark hquoted.closes) _ _)
        | cons d last =>
          -- nor does it stand beyond the path
          rw [List.cons_append] at hlast
          obtain ⟨-, rfl⟩ := List.cons.inj hlast
          rw [List.length_append] at hlength
          omega
      · obtain ⟨second, rfl, -⟩ := exists_append_of_not_mem (hmark hquoted.closes) hmiddle
        exact .inr ⟨beyond, second, by rw [htaken, List.append_assoc]⟩
  · -- before the first mark it does not matter where the search starts
    obtain ⟨second, rfl, rfl⟩ := exists_append_of_not_mem (hmark hquoted.opens) htail
    rw [← hquoted.text, hsecond second ⟨gap ++ "import".toList, by rw [hlead, List.append_assoc]⟩]
      at hfound'
    exact .inl (Option.some.inj hfound')

theorem length_lt_of_importedPath {afterWord : Bool}
    (h : importedPath afterWord cs = some (path, left)) : left.length < cs.length := by
  obtain ⟨-, tail, rfl, -, hfound⟩ := importedPath_eq_some_iff.mp h
  obtain ⟨lead, quoted, opening, closing, rfl, hquoted, -⟩ := firstQuoted?_eq_some hfound
  rw [hquoted.text]
  simp only [List.length_append, List.length_cons]
  omega

/-- A path that is read across the start of the second of two texts holds the keyword of another
one. -/
def Swallows (left right : List Char) : Prop :=
  ∃ taken ∈ findAll importedPath (left ++ right), "import".toList <:+: taken ∧
    ∃ after, Crosses importedPath false left right taken after

/-- **A path that is read in a text is read when another text stands before it**, unless its
statement is swallowed. -/
theorem mem_findAll_or_swallows (hends : wordBefore false left = false)
    (h : path ∈ findAll importedPath right) :
    path ∈ findAll importedPath (left ++ right) ∨ Swallows left right := by
  rcases continues_findAllFrom (Nat.zero_le _) false right with
    ⟨before, hfound⟩ | ⟨taken, after, hcrosses, before, hfound⟩
  · rw [hends] at hfound
    rw [findAll, hfound]
    exact .inl (List.mem_append_right _ h)
  · have hwhole : findAll importedPath (left ++ right) = before ++ taken ::
        findAllFrom importedPath false (right.length - after.length) right := by
      rw [findAll, hfound, hends]
    rcases @findAllFrom_zero_cases _ importedPath length_lt_of_importedPath right _
      (Nat.sub_le _ after.length) false with
      hsame | ⟨between, inner, own, left', rfl, hbetween, hown, hright⟩
    · rw [hwhole, ← hsame]
      exact .inl (List.mem_append_right _ (List.mem_cons_of_mem _ h))
    · -- the first path of the second text starts inside the reading that crosses over to it
      obtain ⟨start, inner', rfl, hne, hread, hlength⟩ := hcrosses
      have hword : wordBefore (wordBefore false start) (inner' ++ between) =
          wordBefore false between := by
        rw [← wordBefore_append, ← List.append_assoc, wordBefore_append, hends]
      rw [← List.append_assoc] at hread
      rw [← hword] at hown
      rw [List.length_append] at hbetween hlength
      rcases eq_or_infix_of_inside hread hown (List.append_ne_nil_of_left_ne_nil hne _) (by omega)
        with heq | hinside
      · obtain ⟨rfl, rfl⟩ := Prod.mk.inj heq
        rw [findAll, hright] at h
        exact .inl (hwhole ▸ List.mem_append_right _ h)
      · refine .inr ⟨taken, hwhole ▸ List.mem_append_right _ List.mem_cons_self, hinside, after,
          start, inner', rfl, hne, ?_, ?_⟩
        · rwa [← List.append_assoc]
        · rwa [List.length_append]

end Behind

/-! ## Signs of two texts put together -/

section Signs

variable {left right : List Char}

theorem holdsAny_of_part {marks : List String} (h : holdsAny marks left = true)
    (hpart : left <:+: right) : holdsAny marks right = true := by
  obtain ⟨mark, hmark, hinside⟩ := holdsAny_iff.mp h
  exact holdsAny_iff.mpr ⟨mark, hmark, hinside.trans hpart⟩

theorem contains_of_part {part : List Char} (h : contains part left = true)
    (hpart : left <:+: right) : contains part right = true :=
  contains_iff.mpr ((contains_iff.mp h).trans hpart)

/-- Names do not reach across a break. -/
theorem declaresMarked_append (hbreak : Break right) (hends : wordBefore false left = false) :
    declaresMarked (left ++ right) = (declaresMarked left || declaresMarked right) := by
  have hword : ∀ c ∈ "contract".toList, isBlank c = false := forall_mem_of_all (by decide)
  rw [declaresMarked, findAll_append (apart_keywordThenName hword hbreak _ _) hends,
    List.any_append, declaresMarked, declaresMarked]

/-- A sign of the first text is one of the two. -/
theorem Signed.append_right (hbreak : Break right) (hends : wordBefore false left = false)
    (h : Signed left) : Signed (left ++ right) := by
  rcases h with h | h | h | h
  · exact .inl (contains_of_part h (List.prefix_append _ _).isInfix)
  · obtain ⟨path, hpath, hmark⟩ := List.any_eq_true.mp h
    have hprefix := findAllFrom_prefix_append (growing_importedPath right) (Nat.zero_le left.length)
      false
    exact .inr (.inl (List.any_eq_true.mpr ⟨path, hprefix.subset hpath, hmark⟩))
  · obtain ⟨start, rest, rfl, hstart, htelling⟩ := inheritsMarked_iff.mp h
    exact .inr (.inr (.inl (inheritsMarked_iff.mpr
      ⟨start, rest ++ right, List.append_assoc _ _ _, hstart, htelling.append right⟩)))
  · refine .inr (.inr (.inr ?_))
    rw [declaresMarked_append hbreak hends, h, Bool.true_or]

/-- A sign of the second text is one of the two, unless it is an import that is swallowed. -/
theorem Signed.append_left (hbreak : Break right) (hends : wordBefore false left = false)
    (h : Signed right) :
    Signed (left ++ right) ∨ importsMarked right = true ∧ Swallows left right := by
  rcases h with h | h | h | h
  · exact .inl (.inl (contains_of_part h (List.suffix_append _ _).isInfix))
  · obtain ⟨path, hpath, hmark⟩ := List.any_eq_true.mp h
    rcases mem_findAll_or_swallows hends hpath with hmem | hswallows
    · exact .inl (.inr (.inl (List.any_eq_true.mpr ⟨path, hmem, hmark⟩)))
    · exact .inr ⟨h, hswallows⟩
  · obtain ⟨start, rest, rfl, hstart, htelling⟩ := inheritsMarked_iff.mp h
    refine .inl (.inr (.inr (.inl (inheritsMarked_iff.mpr
      ⟨left ++ start, rest, (List.append_assoc _ _ _).symm, ?_, htelling⟩))))
    rw [wordBefore_append, hends, hstart]
  · refine .inl (.inr (.inr (.inr ?_)))
    rw [declaresMarked_append hbreak hends, h, Bool.or_true]

end Signs

end Upgradeable

/-! ## Verdicts -/

namespace Workbench

open SourceFile

/-- **Signs of a part of a set reach the verdict, unless they are swallowed.** When the text of one
of two sets shows signs, so does that of both together, and bars the record; or else only the second
does, by an import, and a path that is read across its start holds the word `import`. -/
theorem barred_of_part_or_swallowed (bench : Workbench) (id : String) (trace : Trace)
    (input : VerifiedInput) {left right : List SourceFile} (hfiles : input.files = left ++ right)
    (h : Upgradeable.inSource (combine left) = true ∨
      Upgradeable.inSource (combine right) = true) :
    Upgradeable.inSource (combine (left ++ right)) = true ∧
        (bench.recordOf id trace (.verified input)).Barred ∨
      Upgradeable.inSource (combine left) = false ∧
        Upgradeable.importsMarked (lower (combine right)) = true ∧
        Upgradeable.Swallows (lower (combine left)) (lower (combine right)) := by
  have hbarred : Upgradeable.inSource (combine (left ++ right)) = true →
      Upgradeable.inSource (combine (left ++ right)) = true ∧
        (bench.recordOf id trace (.verified input)).Barred := fun hwhole =>
    ⟨hwhole, bench.barred_of_inSource id trace (hfiles ▸ hwhole)⟩
  by_cases hright : right = []
  · rw [hright, List.append_nil] at hbarred ⊢
    exact .inl (hbarred (h.resolve_right (hright ▸ nofun)))
  have hbreak := break_lower_combine hright
  have hends := wordBefore_lower_combine left
  have hwhole : Upgradeable.Signed (lower (combine left) ++ lower (combine right)) ∨
      Upgradeable.holdsAny Upgradeable.functionMarks
        (lower (combine left) ++ lower (combine right)) = true →
      Upgradeable.inSource (combine (left ++ right)) = true := fun hsign => by
    rwa [Upgradeable.inSource_combine_iff, lower_combine_append]
  cases hleft : Upgradeable.inSource (combine left) with
  | true =>
    refine .inl (hbarred (hwhole ?_))
    exact (Upgradeable.inSource_combine_iff.mp hleft).imp
      (fun hsigned => hsigned.append_right hbreak hends)
      (fun hmark => Upgradeable.holdsAny_of_part hmark (List.prefix_append _ _).isInfix)
  | false =>
    rw [hleft] at h
    rcases Upgradeable.inSource_combine_iff.mp (h.resolve_left nofun) with hsigned | hmark
    · rcases hsigned.append_left hbreak hends with hsigned | hswallows
      · exact .inl (hbarred (hwhole (.inl hsigned)))
      · exact .inr ⟨rfl, hswallows⟩
    · exact .inl (hbarred (hwhole (.inr
        (Upgradeable.holdsAny_of_part hmark (List.suffix_append _ _).isInfix))))

/-- A file that holds a comment only. -/
def commentFile (comment : String) : SourceFile := ⟨"Notes.sol", comment ++ "\n"⟩

/-- Behind a comment without quotation marks an import from an upgradeable library bars the record:
no path that is read holds the word. -/
theorem barred_of_part_or_swallowed_commentFile :
    (offlineRecord [commentFile "// import is used", importFile ""]).Barred := by
  have hpart : Upgradeable.inSource (combine [importFile ""]) = true := by decide +kernel
  refine ((barred_of_part_or_swallowed offline "id" {}
    (sourceOf [commentFile "// import is used", importFile ""])
    (List.singleton_append).symm (.inr hpart)).resolve_right ?_).2
  rintro ⟨-, -, taken, htaken, hinside, -⟩
  have hnone : ∀ taken ∈ findAll Upgradeable.importedPath
      (lower (combine [commentFile "// import is used"]) ++ lower (combine [importFile ""])),
      contains "import".toList taken = false := by
    decide +kernel
  have hheld := contains_iff.mpr hinside
  rw [hnone taken htaken] at hheld
  cases hheld

/-- **A file with a comment clears the verdict on the file behind it**, and the record is kept. -/
theorem not_upgradeable_commentFile :
    Upgradeable.inSource (combine [importFile ""]) = true ∧
      Upgradeable.inSource
        (combine ([commentFile "// import isn't used"] ++ [importFile ""])) = false ∧
      (offlineRecord [importFile ""]).cacheEligible = false ∧
      (offlineRecord ([commentFile "// import isn't used"] ++ [importFile ""])).cacheEligible =
        true := by
  refine ⟨?_, ?_, ?_, ?_⟩ <;> decide +kernel

end Workbench

end ContractLens
