import ContractLens.Proofs.Import.Statement
import ContractLens.Proofs.Text.SmallForm
import ContractLens.Proofs.Upgradeable.Verdict
/-!
# Telling imports

The paths that are signs are looked for in the text of the whole set: the first text in quotation
marks behind the word `import`, wherever the word stands. An import statement is lost in two ways.
A quotation mark or a semicolon among its names in braces stops the search before the path. And a
word `import` further up, in a comment say, may be followed by a quotation mark without a partner:
then the text from that mark to the one before the path is taken for a path, statement and all.
There is no third way (`barred_of_import_or_lost`), in whatever characters the set is written: the
marks and the beginning of the path are ASCII, and no other character becomes one of theirs where
it would matter.
-/

namespace ContractLens

open Text

namespace Text

/-- A path in quotation marks is lowered on its own. -/
theorem QuotedBy.exists_lowersTo {cs path left lowered : List Char} {opening closing : Char}
    (h : QuotedBy cs opening path closing left) (hlowered : LowersTo cs lowered) :
    ∃ small rest, LowersTo path small ∧ QuotedBy lowered opening small closing rest := by
  have hpart := h.text ▸ hlowered
  obtain ⟨behind, rfl, hbehind⟩ := hpart.exists_cons (small_of_isQuote h.opens)
  obtain ⟨small, behind, rfl, hsmall, hclosed⟩ := hbehind.exists_append
  obtain ⟨rest, rfl, -⟩ := hclosed.exists_cons (small_of_isQuote h.closes)
  exact ⟨small, rest, hsmall, rfl, h.opens, h.closes, hsmall.ne_nil h.ne, hsmall.not_isQuote h.free⟩

end Text

namespace Upgradeable

/-! ## Clear texts -/

theorem ascii_of_importMark {mark : String} (h : mark ∈ importMarks) :
    ∀ c ∈ mark.toList, c.toNat < 128 := by
  have hmarks : ∀ mark ∈ importMarks, mark.toList.all (·.toNat < 128) = true := by decide
  exact forall_mem_of_all (hmarks mark h)

/-- There is no quotation mark and no semicolon in a text. -/
def Clear (cs : List Char) : Prop := ∀ c ∈ cs, isQuote c = false ∧ c ≠ ';'

theorem Clear.lowersTo {cs ds : List Char} (h : Clear cs) (hlowered : LowersTo cs ds) :
    Clear ds := by
  have hquote := hlowered.not_isQuote fun c hc => (h c hc).1
  have hsemicolon : ∀ d ∈ ds, d ≠ ';' :=
    hlowered.forall_ne (by decide) fun c hc => (h c hc).2
  exact fun c hc => ⟨hquote c hc, hsemicolon c hc⟩

theorem clear_of_isPlain {cs : List Char} (h : ∀ c ∈ cs, Import.isPlain c = true) : Clear cs := by
  intro c hc
  have hplain := h c hc
  constructor
  · refine Bool.eq_false_iff.mpr fun hquote => ?_
    simp only [isQuote, Bool.or_eq_true, beq_iff_eq] at hquote
    rcases hquote with rfl | rfl <;> exact absurd hplain (by decide)
  · rintro rfl
    exact absurd hplain (by decide)

section Readings

variable {lead cs path left : List Char} {opening closing : Char}

/-- The search for a path goes on behind a clear text. -/
theorem firstQuoted?_append_of_clear (hlead : Clear lead) (cs : List Char) :
    firstQuoted? (lead ++ cs) = firstQuoted? cs := by
  induction lead with
  | nil => rfl
  | cons c lead ih =>
    obtain ⟨hquote, hsemicolon⟩ := hlead c List.mem_cons_self
    have hnone : readQuoted? (c :: (lead ++ cs)) = none := by
      rw [readQuoted?, if_neg (by rw [hquote]; decide)]
    rw [List.cons_append, firstQuoted?, hnone]
    dsimp only
    rw [if_neg (by simpa using hsemicolon)]
    exact ih fun d hd => hlead d (List.mem_cons_of_mem _ hd)

/-- A path is found behind a clear text. -/
theorem firstQuoted?_of_clear (hlead : Clear lead) (h : QuotedBy cs opening path closing left) :
    firstQuoted? (lead ++ cs) = some (path, left) := by
  have hread := readQuoted?_eq_some_iff.mpr ⟨opening, closing, h⟩
  rw [firstQuoted?_append_of_clear hlead]
  rw [h.text] at hread ⊢
  rw [firstQuoted?, hread]

/-- What is found when the search starts further up and ends behind the clear text is the path, or
it ends with the clear text. -/
theorem eq_or_suffix_of_firstQuoted {start taken after : List Char} (hlead : Clear lead)
    (h : QuotedBy cs opening path closing left)
    (hread : firstQuoted? (start ++ (lead ++ cs)) = some (taken, after))
    (hlength : after.length < (lead ++ cs).length) : taken = path ∨ lead <:+ taken := by
  induction start with
  | nil =>
    rw [List.nil_append, firstQuoted?_of_clear hlead h] at hread
    cases hread
    exact .inl rfl
  | cons c start ih =>
    rw [List.cons_append, firstQuoted?] at hread
    split at hread
    · -- a text in quotation marks that starts here and reaches beyond the lead holds all of it
      rename_i found hfound
      cases hread
      obtain ⟨mark, mark', hquoted⟩ := readQuoted?_eq_some_iff.mp hfound
      obtain ⟨-, htext⟩ := List.cons.inj hquoted.text
      have hends : start ++ (lead ++ cs) = (taken ++ [mark']) ++ after := by
        rw [htext, List.append_assoc, List.singleton_append]
      obtain ⟨middle, hmiddle_ne, htaken, -⟩ := exists_append_of_length_lt hends hlength
      have hstart : ∀ c ∈ start, isQuote c = false := by
        have hstarts : start <+: taken := by
          rcases List.prefix_concat_iff.mp ⟨middle, htaken.symm⟩ with heq | hstarts
          · rw [heq] at htaken
            exact absurd (List.self_eq_append_right.mp htaken) hmiddle_ne
          · exact hstarts
        exact fun c hc => hquoted.free c (hstarts.subset hc)
      have hbefore : ∀ c ∈ start ++ lead, isQuote c = false := by
        intro c hc
        rcases List.mem_append.mp hc with hc | hc
        · exact hstart c hc
        · exact (hlead c hc).1
      have hsplit : (start ++ lead) ++ opening :: (path ++ closing :: left) =
          taken ++ mark' :: after := by
        rw [← h.text, List.append_assoc, htext]
      exact .inr ⟨start, (run_unique (not_isQuote_iff.mpr hbefore) (head_of_isQuote h.opens)
        (not_isQuote_iff.mpr hquoted.free) (head_of_isQuote hquoted.closes) hsplit).1⟩
    · split at hread
      · cases hread
      · exact ih hread

/-- A path is read where the keyword stands as a word, and the path behind it. -/
theorem importedPath_eq_some_iff {afterWord : Bool} {found : List Char × List Char} :
    importedPath afterWord cs = some found ↔ afterWord = false ∧ ∃ tail,
      cs = "import".toList ++ tail ∧ (∀ c ∈ tail.head?, isWordChar c = false) ∧
        firstQuoted? tail = some found := by
  simp only [importedPath, Option.bind_eq_bind, Option.bind_eq_some_iff]
  constructor
  · rintro ⟨⟨⟨⟩, tail⟩, hword, hfound⟩
    obtain ⟨hafterWord, hcs, hhead⟩ := wholeWord_eq_some_iff.mp hword
    exact ⟨hafterWord, tail, hcs, hhead, hfound⟩
  · rintro ⟨hafterWord, tail, hcs, hhead, hfound⟩
    exact ⟨((), tail), wholeWord_eq_some_iff.mpr ⟨hafterWord, hcs, hhead⟩, hfound⟩

/-- The path of a statement with a clear clause is read. -/
theorem importedPath_of_clear {clause : List Char} (hclear : Clear clause)
    (hstarts : ∃ blank rest, clause = blank :: rest ∧ isBlank blank = true)
    (h : QuotedBy cs opening path closing left) :
    importedPath false ("import".toList ++ (clause ++ cs)) = some (path, left) := by
  obtain ⟨blank, rest, hclause, hblank⟩ := hstarts
  refine importedPath_eq_some_iff.mpr ⟨rfl, _, rfl, ?_, firstQuoted?_of_clear hclear h⟩
  rw [hclause, List.cons_append]
  exact forall_head?_cons (isWordChar_of_isBlank hblank) _

/-- A reading that reaches across the start of a statement is of its path, or takes the statement up
to its path for the end of one. -/
theorem eq_or_suffix_of_straddles {clause inner taken : List Char} {afterWord : Bool}
    (hclear : Clear clause) (h : QuotedBy cs opening path closing left)
    (hstraddles : Straddles importedPath inner ("import".toList ++ (clause ++ cs)) taken)
    (hstart : wordBefore afterWord inner = false) :
    taken = path ∨ "import".toList ++ clause <:+ taken := by
  have hword : ∀ c ∈ "import".toList, isWordChar c = true := forall_mem_of_all (by decide)
  have hwordClear : Clear "import".toList := forall_mem_of_all (by decide)
  obtain ⟨hinner, here, after, hread, hlength⟩ := hstraddles
  obtain ⟨-, rest, htext, -, hfound⟩ := importedPath_eq_some_iff.mp hread
  rcases List.append_eq_append_iff.mp htext with ⟨gap, hkeyword, -⟩ | ⟨start, rfl, hrest⟩
  · -- the statement does not start inside the other keyword
    rw [wordBefore_of_forall hinner fun c hc => hword c ?_] at hstart
    · cases hstart
    · exact hkeyword ▸ List.mem_append_left gap hc
  · rw [hrest, ← List.append_assoc "import".toList] at hfound
    rw [← List.append_assoc] at hlength
    refine eq_or_suffix_of_firstQuoted (fun c hc => ?_) h hfound hlength
    rcases List.mem_append.mp hc with hc | hc
    · exact hwordClear c hc
    · exact hclear c hc

end Readings

/-! ## Statements in a lowered text -/

/-- Among the names in braces of a clause there is a quotation mark or a semicolon. -/
def Crowded (clause : List Char) : Prop :=
  ∃ names, Import.Braced clause names ∧ ∃ c ∈ names, isQuote c = true ∨ c = ';'

theorem Crowded.brace_mem {clause : List Char} (h : Crowded clause) : '\x7b' ∈ clause := by
  obtain ⟨names, ⟨⟨blanks, behind, rfl, -, -⟩, -⟩, -⟩ := h
  exact List.mem_append_right _ List.mem_cons_self

theorem clear_of_not_crowded {clause : List Char} (h : Import.Clausal clause)
    (hcrowded : ¬ Crowded clause) : Clear clause := by
  rcases h with hplain | ⟨names, hbraced⟩
  · exact clear_of_isPlain hplain
  · obtain ⟨blanks, behind, htext, hblank, hplain⟩ := hbraced.text
    have hnames : Clear names := fun c hc =>
      ⟨Bool.eq_false_iff.mpr fun hquote => hcrowded ⟨names, hbraced, c, hc, .inl hquote⟩,
        fun hsemicolon => hcrowded ⟨names, hbraced, c, hc, .inr hsemicolon⟩⟩
    intro c hc
    rw [htext] at hc
    rcases List.mem_append.mp hc with hc | hc
    · exact clear_of_isPlain (Import.isPlain_of_isBlank hblank) c hc
    rcases List.mem_cons.mp hc with rfl | hc
    · exact ⟨rfl, by decide⟩
    rcases List.mem_append.mp hc with hc | hc
    · exact hnames c hc
    rcases List.mem_cons.mp hc with rfl | hc
    · exact ⟨rfl, by decide⟩
    · exact clear_of_isPlain hplain c hc

/-- Something that is read as a path in a lowered text ends with a statement up to its path. -/
def Swallowed (clause lowered : List Char) : Prop :=
  ∃ taken ∈ findAll importedPath lowered,
    ∃ small, LowersTo clause small ∧ "import".toList ++ small <:+ taken

/-- A statement of a file has a place in the lowered text of its set. -/
theorem exists_lowered_statement {files : List SourceFile} {file : SourceFile}
    (hfile : file ∈ files) {before rest clause path : List Char}
    (hcontent : file.content.toList = before ++ rest) (hplace : wordBefore false before = false)
    (h : Import.Written rest clause path) :
    ∃ start clause' quoted, lower (SourceFile.combine files) =
        start ++ ("import".toList ++ (clause' ++ quoted)) ∧
      wordBefore false start = false ∧ LowersTo clause clause' ∧
      ∃ opening path' closing left, LowersTo path path' ∧
        QuotedBy quoted opening path' closing left := by
  obtain ⟨opening, closing, left, hquoted, htext⟩ := h.text
  obtain ⟨banner, following, hcombine⟩ := SourceFile.exists_combine_of_mem hfile
  have hfollowed : QuotedBy (opening :: (path ++ closing :: (left ++ '\n' :: following))) opening
      path closing (left ++ '\n' :: following) :=
    { hquoted with text := rfl }
  have hwhole : SourceFile.combine files = (banner ++ '\n' :: before) ++ ("import".toList ++
      (clause ++ opening :: (path ++ closing :: (left ++ '\n' :: following)))) := by
    rw [hcombine, hcontent, htext]
    simp only [List.append_assoc, List.cons_append]
  have hlowered := lowersTo_lower (SourceFile.combine files)
  generalize lower (SourceFile.combine files) = lowered at hlowered ⊢
  rw [hwhole] at hlowered
  obtain ⟨start, behind, rfl, hstart, hstatement⟩ := hlowered.exists_append
  have hascii : ∀ c ∈ "import".toList, c.toNat ∈ smallAscii := forall_mem_of_all (by decide)
  have hkeyword : ∀ c ∈ "import".toList, Small c := fun c hc =>
    small_of_mem_smallAscii (hascii c hc)
  obtain ⟨behind, rfl, hclaused⟩ := hstatement.exists_append_of_small hkeyword
  obtain ⟨clause', quoted, rfl, hclause, hpath⟩ := hclaused.exists_append
  obtain ⟨path', left', hpath', hquoted'⟩ := hfollowed.exists_lowersTo hpath
  have hbreak : isWordChar '\n' = false := by decide
  refine ⟨start, clause', quoted, rfl, hstart.wordBefore id ?_, hclause,
    opening, path', closing, left', hpath', hquoted'⟩
  rw [wordBefore_append, wordBefore, hbreak, hplace]

/-- **The path of a statement is read in the lowered text of its set**, unless there is a quotation
mark or a semicolon before it, or the statement is swallowed. -/
theorem mem_findAll_or_swallowed {files : List SourceFile} {file : SourceFile}
    (hfile : file ∈ files) {before rest clause path : List Char}
    (hcontent : file.content.toList = before ++ rest) (hplace : wordBefore false before = false)
    (h : Import.Written rest clause path) (hclear : Clear clause) :
    (∃ path' ∈ findAll importedPath (lower (SourceFile.combine files)), LowersTo path path') ∨
      Swallowed clause (lower (SourceFile.combine files)) := by
  obtain ⟨start, clause', quoted, hlowered, hstart, hclause, opening, path', closing, left, hpath,
    hquoted⟩ := exists_lowered_statement hfile hcontent hplace h
  have hclear' : Clear clause' := hclear.lowersTo hclause
  have hread : importedPath (wordBefore false start)
      ("import".toList ++ (clause' ++ quoted)) = some (path', left) := by
    obtain ⟨blank, blanks, rfl, hblank⟩ := h.starts
    obtain ⟨blanks', rfl, -⟩ := hclause.exists_cons (small_of_isBlank hblank)
    rw [hstart]
    exact importedPath_of_clear hclear' ⟨blank, blanks', rfl, hblank⟩ hquoted
  rw [Swallowed, hlowered]
  rcases mem_findAllFrom_or_straddles (Nat.zero_le _)
    (List.append_ne_nil_of_left_ne_nil (by decide) _) hread with
    hmem | ⟨taken, htaken, before', inner, rfl, hstraddles⟩
  · exact .inl ⟨path', hmem, hpath⟩
  · rw [wordBefore_append] at hstart
    rcases eq_or_suffix_of_straddles hclear' hquoted hstraddles hstart with rfl | hsuffix
    · exact .inl ⟨_, htaken, hpath⟩
    · exact .inr ⟨taken, htaken, clause', hclause, hsuffix⟩

end Upgradeable

/-! ## Verdicts -/

namespace Workbench

/-- **Telling imports reach the verdict, unless their statement is lost.** A path that some file
imports and that starts, in whatever case, like one from an upgradeable library bars the record; or
else its statement has names in braces with a quotation mark or a semicolon, or it is swallowed by a
quotation mark further up. -/
theorem barred_of_import_or_lost (bench : Workbench) (id : String) (trace : Trace)
    (input : VerifiedInput) {file : SourceFile} (hfile : file ∈ input.files) {path : String}
    (hpath : path ∈ Import.extract file.content) {mark : String}
    (hmark : mark ∈ Upgradeable.importMarks) (hstarts : mark.toList <+: lower path.toList) :
    (bench.recordOf id trace (.verified input)).Barred ∨
      ∃ before rest clause, file.content.toList = before ++ rest ∧
        Import.Written rest clause path.toList ∧ (Upgradeable.Crowded clause ∨
          Upgradeable.Swallowed clause (lower (SourceFile.combine input.files))) := by
  obtain ⟨before, rest, clause, hcontent, hplace, hwritten⟩ := Import.exists_written hpath
  by_cases hcrowded : Upgradeable.Crowded clause
  · exact .inr ⟨before, rest, clause, hcontent, hwritten, .inl hcrowded⟩
  have hclear := Upgradeable.clear_of_not_crowded hwritten.clausal hcrowded
  rcases Upgradeable.mem_findAll_or_swallowed hfile hcontent hplace hwritten hclear with
    ⟨path', hmem, hpath'⟩ | hswallowed
  · refine .inl (bench.barred_of_sign id trace (.inr (.inl ?_)))
    -- the path may be lowered otherwise on its own, but not where it is like the library's
    have hstarts' : mark.toList <+: path' :=
      (lowersTo_lower path.toList).starts hpath' (Upgradeable.ascii_of_importMark hmark) hstarts
    exact List.any_eq_true.mpr ⟨path', hmem,
      List.any_eq_true.mpr ⟨mark, hmark, List.isPrefixOf_iff_prefix.mpr hstarts'⟩⟩
  · exact .inr ⟨before, rest, clause, hcontent, hwritten, .inr hswallowed⟩

/-- A file that imports from an upgradeable library, under a comment. -/
def importFile (comment : String) : SourceFile :=
  ⟨"Vault.sol", comment ++ "\nimport \"@openzeppelin/contracts-upgradeable/Own.sol\";\n"⟩

/-- The path that it imports. -/
def importFilePath : String := "@openzeppelin/contracts-upgradeable/Own.sol"

/-- Under a comment without quotation marks the import bars the record: there are no braces, and no
path that is read holds another statement. -/
theorem barred_of_import_or_lost_importFile :
    (offlineRecord [importFile "// import is used"]).Barred := by
  have hpath : importFilePath ∈
      Import.extract (importFile "// import is used").content := by
    decide +kernel
  have hlibrary :
      "@openzeppelin/contracts-upgradeable/".toList <+: lower importFilePath.toList := by
    decide +kernel
  refine (barred_of_import_or_lost offline "id" {}
    (sourceOf [importFile "// import is used"])
    List.mem_cons_self hpath (by decide) hlibrary).resolve_right ?_
  rintro ⟨before, rest, clause, hcontent, hwritten, hcrowded | ⟨taken, htaken, _, -, hsuffix⟩⟩
  · obtain ⟨opening, closing, left, -, htext⟩ := hwritten.text
    have hmem : '\x7b' ∈ (importFile "// import is used").content.toList := by
      rw [hcontent, htext]
      simp only [List.mem_append]
      exact .inr (.inr (.inl hcrowded.brace_mem))
    exact absurd hmem (by decide +kernel)
  · have hnone : ∀ taken ∈ findAll Upgradeable.importedPath
        (lower (SourceFile.combine [importFile "// import is used"])),
        contains "import".toList taken = false := by
      decide +kernel
    have hheld : contains "import".toList taken = true :=
      contains_iff.mpr ((List.prefix_append _ _).isInfix.trans hsuffix.isInfix)
    rw [hnone taken htaken] at hheld
    cases hheld

/-- **An import under a comment with an apostrophe does not reach the verdict.** -/
theorem not_upgradeable_importFile :
    (∃ path ∈ Import.extract (importFile "// import isn't used").content,
      ∃ mark ∈ Upgradeable.importMarks, mark.toList <+: lower path.toList) ∧
    (offlineRecord [importFile "// import isn't used"]).isUpgradeable = false := by
  constructor <;> decide +kernel

end Workbench

end ContractLens
