import ContractLens.Proofs.Upgradeable.Verdict
/-!
# Telling bases

The bases of a contract are read off one line, and the sign is looked for in the text of the whole
set. There a list of bases goes on to the next opening brace, so that an unfinished declaration, in
another file perhaps, may take the next one for a part of its list. Then the search passes that one
over, but no base is lost: the list of the one that is passed over is the end of the list that is
read (`Heads.suffix_of_across`). For the head of a declaration is three words, and a head that lies
inside another one would make it more.
-/

namespace ContractLens

open Text

/-! ## Heads of declarations -/

namespace Declaration

/-- A text starts with the three words of a head, bases, and an opening brace. -/
structure Heads (cs lead bases left : List Char) : Prop where
  /-- The parts follow each other. -/
  text : cs = lead ++ (bases ++ '\x7b' :: left)
  /-- The head is three words. -/
  words : words false lead = 3
  /-- It starts with the first of them. -/
  starts : ∃ c rest, lead = c :: rest ∧ isWordChar c = true
  /-- The brace is the first one. -/
  no_brace : '\x7b' ∉ lead ++ bases

/-- The head of a declaration, up to its bases. -/
def lead (word blanks name before after : List Char) : List Char :=
  (word ++ blanks) ++ ((name ++ before) ++ (['i', 's'] ++ after))

theorem heads_of_parts {word cs blanks name tail before after bases left : List Char}
    (hword : ∀ c ∈ word, isWordChar c = true) (hne : word ≠ [])
    (hnamed : NamedBy word cs blanks name tail) (hbased : BasedOn tail before after bases left) :
    Heads cs (lead word blanks name before after) bases left := by
  have his : ∀ c ∈ ['i', 's'], isWordChar c = true := forall_mem_of_all (by decide)
  have hfirst := words_run_blanks hne hword hnamed.blanks_ne hnamed.blank
  have hsecond := words_run_blanks hnamed.name_ne hnamed.isWord hbased.before_ne
    hbased.before_blank
  have hthird := words_run_blanks (List.cons_ne_nil _ _) his hbased.after_ne hbased.after_blank
  constructor
  case text =>
    rw [hnamed.text, hbased.text, lead]
    simp only [List.append_assoc]
  case words =>
    rw [lead, words_append, hfirst.1, hfirst.2, words_append, hsecond.1, hsecond.2, hthird.1]
  case starts =>
    obtain ⟨c, cs, rfl⟩ := List.exists_cons_of_ne_nil hne
    exact ⟨c, _, rfl, hword c List.mem_cons_self⟩
  case no_brace =>
    have hrun : ∀ {cs : List Char}, (∀ c ∈ cs, isWordChar c = true) → '\x7b' ∉ cs :=
      fun h hmem => absurd (h _ hmem) (by decide)
    have hblank : ∀ {cs : List Char}, (∀ c ∈ cs, isBlank c = true) → '\x7b' ∉ cs :=
      fun h hmem => absurd (h _ hmem) (by decide)
    simp only [lead, List.mem_append, not_or]
    exact ⟨⟨⟨hrun hword, hblank hnamed.blank⟩, ⟨hrun hnamed.isWord, hblank hbased.before_blank⟩,
      hrun his, hblank hbased.after_blank⟩, hbased.no_brace⟩

/-- **The bases of a declaration that lies across the start of another end with the other's
bases.** -/
theorem Heads.suffix_of_across {inner rest lead bases left lead' bases' left' : List Char}
    (hacross : Heads (inner ++ rest) lead bases left) (h : Heads rest lead' bases' left')
    (hinner : inner ≠ []) (hstart : wordBefore false inner = false)
    (hlength : left.length < rest.length) : bases' <:+ bases := by
  -- the brace that ends the one is the brace that ends the other
  obtain ⟨middle, hmiddle, hrest⟩ : ∃ middle, lead ++ bases = inner ++ middle ∧
      rest = middle ++ '\x7b' :: left := by
    have htext : inner ++ rest = (lead ++ bases) ++ '\x7b' :: left := by
      rw [hacross.text, List.append_assoc]
    rcases List.append_eq_append_iff.mp htext with ⟨middle, hbefore, hrest⟩ | ⟨gap, hbefore, hrest⟩
    · exact ⟨middle, hbefore, hrest⟩
    · cases gap with
      | nil => exact ⟨[], by rw [hbefore, List.append_nil, List.append_nil], hrest.symm⟩
      | cons c gap =>
        have hlengths := congrArg List.length hrest
        rw [List.length_append, List.length_cons, List.length_cons] at hlengths
        omega
  have hsame : middle = lead' ++ bases' := by
    have hends : ∀ {left : List Char}, ∀ c ∈ ('\x7b' :: left).head?, (c != '\x7b') = false :=
      forall_head?_cons (by decide) _
    have htexts : middle ++ '\x7b' :: left = (lead' ++ bases') ++ '\x7b' :: left' := by
      rw [← hrest, h.text, List.append_assoc]
    have hfree : '\x7b' ∉ middle := fun hbrace =>
      hacross.no_brace (hmiddle ▸ List.mem_append_right _ hbrace)
    exact (run_unique (bne_brace_iff.mpr hfree) hends (bne_brace_iff.mpr h.no_brace) hends
      htexts).1
  rw [hsame, ← List.append_assoc] at hmiddle
  rcases List.append_eq_append_iff.mp hmiddle with ⟨gap, -, hbases⟩ | ⟨gap, hlead, -⟩
  · exact ⟨gap, hbases.symm⟩
  · -- the other head would lie inside the first one, with a word before it
    obtain ⟨c, cs, hcons, hc⟩ := hacross.starts
    obtain ⟨k, ks, rfl⟩ := List.exists_cons_of_ne_nil hinner
    have hk : isWordChar k = true := by
      rw [hlead, List.cons_append, List.cons_append, List.cons.injEq] at hcons
      exact hcons.1 ▸ hc
    have hcount := hacross.words
    rw [hlead, words_append, words_append, hstart, h.words] at hcount
    have hone : 0 < Text.words false (k :: ks) := words_pos hk
    omega

end Declaration

/-! ## Readings of bases -/

namespace Upgradeable

/-- The keywords that may start a list of bases. -/
def headWords : List String := ["contract", "interface"]

theorem isWordChar_of_headWord {word : String} (h : word ∈ headWords) :
    (∀ c ∈ word.toList, isWordChar c = true) ∧ word.toList ≠ [] := by
  have hall : ∀ word ∈ headWords, word.toList.all isWordChar = true ∧ word.toList ≠ [] := by
    decide
  exact (hall word h).imp_left List.all_eq_true.mp

/-- What was read stands there: a keyword, a name, and bases, or only blanks for them. -/
theorem parts_of_inheritance {afterWord : Bool} {cs found left : List Char}
    (h : inheritance afterWord cs = some (found, left)) :
    afterWord = false ∧ ∃ word ∈ headWords, ∃ blanks name tail before after bases,
      NamedBy word.toList cs blanks name tail ∧
      Declaration.BasedOn tail before after bases left ∧
      (bases = found ∧ bases ≠ [] ∨ bases = [] ∧ ∃ blank, isBlank blank = true ∧ found = [blank])
    := by
  -- the two keywords go on in the same way
  obtain ⟨word, hword, first, hkeyword, second, hblanks, ⟨name, tail⟩, hname, ⟨bases, after⟩,
      hbases, hfound⟩ : ∃ word ∈ headWords, ∃ first, keyword word afterWord cs = some ((), first) ∧
      ∃ second, dropBlanks? first = some second ∧ ∃ named, takeWord? second = some named ∧
      ∃ based, Declaration.readBases? named.2 = some based ∧
      some (based.1, based.2.drop 1) = some (found, left) := by
    simp only [inheritance, Option.bind_eq_bind] at h
    split at h
    · rename_i rest hcontract
      simp only [Option.bind_some, Option.bind_eq_some_iff] at h
      exact ⟨"contract", List.mem_cons_self, rest.2, hcontract, h⟩
    · simp only [Option.bind_eq_some_iff] at h
      obtain ⟨rest, hinterface, h⟩ := h
      exact ⟨"interface", List.mem_cons_of_mem _ List.mem_cons_self, rest.2, hinterface, h⟩
  cases hfound
  obtain ⟨hafterWord, rfl⟩ := keyword_eq_some_iff.mp hkeyword
  obtain ⟨blanks, rfl, hblanks_ne, hblank, -⟩ := dropBlanks?_eq_some_iff.mp hblanks
  obtain ⟨rfl, hname_ne, hisWord, hends⟩ := takeWord?_eq_some_iff.mp hname
  obtain ⟨before, after', body, left, hbased, rfl, hbody⟩ :=
    Declaration.readBases?_eq_some hbases
  refine ⟨hafterWord, word, hword, blanks, name, tail, before, after', body,
    ⟨rfl, hblanks_ne, hblank, hname_ne, hisWord, hends⟩, hbased, ?_⟩
  rcases hbody with ⟨rfl, hne⟩ | hnone
  · exact .inl ⟨rfl, hne⟩
  · exact .inr hnone

/-- Bases are read after the head of a declaration, unless only blanks stand for them. -/
theorem heads_of_inheritance {afterWord : Bool} {cs found left : List Char}
    (h : inheritance afterWord cs = some (found, left)) :
    ∃ lead bases, Declaration.Heads cs lead bases left ∧ (bases = found ∨ bases = []) := by
  obtain ⟨-, word, hword, blanks, name, tail, before, after, bases, hnamed, hbased, hcase⟩ :=
    parts_of_inheritance h
  obtain ⟨hisWord, hne⟩ := isWordChar_of_headWord hword
  exact ⟨_, bases, Declaration.heads_of_parts hisWord hne hnamed hbased,
    hcase.imp (·.1) (·.1)⟩

/-- The keyword for contracts is not read where the one for interfaces stands. -/
theorem keyword_contract_of_interface (rest : List Char) :
    keyword "contract" false ("interface".toList ++ rest) = none :=
  rfl

/-- Bases are read where a contract or an interface is declared with them. -/
theorem inheritance_of_parts {word : String} (hword : word ∈ headWords)
    {cs blanks name tail before after bases left : List Char}
    (hnamed : NamedBy word.toList cs blanks name tail)
    (hbased : Declaration.BasedOn tail before after bases left) (hne : bases ≠ []) :
    inheritance false cs = some (bases, left) := by
  have hstart : ∀ c ∈ (name ++ tail).head?, isBlank c = false :=
    forall_head?_append hnamed.name_ne (fun c hc => isBlank_of_isWordChar (hnamed.isWord c hc)) _
  have hkeyword : keyword word false cs = some ((), blanks ++ (name ++ tail)) :=
    keyword_eq_some_iff.mpr ⟨rfl, hnamed.text⟩
  have hblanks : dropBlanks? (blanks ++ (name ++ tail)) = some (name ++ tail) :=
    dropBlanks?_eq_some_iff.mpr ⟨blanks, rfl, hnamed.blanks_ne, hnamed.blank, hstart⟩
  have htake : takeWord? (name ++ tail) = some (name, tail) :=
    takeWord?_eq_some_iff.mpr ⟨rfl, hnamed.name_ne, hnamed.isWord, hnamed.ends⟩
  have hbases := Declaration.readBases?_of_basedOn hbased hne
  have hrest : ∀ {first : List Char}, first = blanks ++ (name ++ tail) →
      ((dropBlanks? first).bind fun second => (takeWord? second).bind fun named =>
        (Declaration.readBases? named.2).bind fun based => some (based.1, based.2.drop 1)) =
      some (bases, left) := by
    rintro first rfl
    simp only [hblanks, htake, hbases, Option.bind_some]
    rfl
  rcases List.mem_cons.mp hword with rfl | hword
  · simp only [inheritance, hkeyword, Option.bind_eq_bind, Option.bind_some]
    exact hrest rfl
  · rw [List.mem_singleton.mp hword] at hkeyword hnamed
    have hnone : keyword "contract" false cs = none := by
      rw [hnamed.text]
      exact keyword_contract_of_interface _
    simp only [inheritance, hnone, hkeyword, Option.bind_eq_bind, Option.bind_some]
    exact hrest rfl

/-- Bases are read where they stand, perhaps as a part of a longer list. -/
theorem exists_read_of_parts {word : String} (hword : word ∈ headWords)
    {start cs blanks name tail before after bases left : List Char}
    (hstart : wordBefore false start = false) (hnamed : NamedBy word.toList cs blanks name tail)
    (hbased : Declaration.BasedOn tail before after bases left) (hne : bases ≠ []) :
    ∃ found ∈ findAll inheritance (start ++ cs), bases <:+: found := by
  obtain ⟨hisWord, hword_ne⟩ := isWordChar_of_headWord hword
  have hread : inheritance (wordBefore false start) cs = some (bases, left) := by
    rw [hstart]
    exact inheritance_of_parts hword hnamed hbased hne
  have hcs : cs ≠ [] := by
    rw [hnamed.text]
    exact List.append_ne_nil_of_left_ne_nil hword_ne _
  rcases mem_findAllFrom_or_straddles (Nat.zero_le _) hcs hread with
    hmem | ⟨found, hfound, before', inner, hinner, hinner_ne, here, after', hacross, hlength⟩
  · exact ⟨_, hmem, List.infix_rfl⟩
  · -- a list that starts sooner and goes on beyond the declaration ends with the same bases
    obtain ⟨lead, body, hheads, hbody⟩ := heads_of_inheritance hacross
    have hboundary : wordBefore false inner = false := by
      rw [hinner, wordBefore_append] at hstart
      rwa [wordBefore_of_ne_nil hinner_ne false (wordBefore false before')]
    have hsuffix := hheads.suffix_of_across
      (Declaration.heads_of_parts hisWord hword_ne hnamed hbased) hinner_ne hboundary hlength
    refine ⟨found, hfound, ?_⟩
    rcases hbody with rfl | rfl
    · exact hsuffix.isInfix
    · exact absurd (List.suffix_nil.mp hsuffix) hne

/-- **The bases of a contract are read in the lowered text of its set.** -/
theorem exists_read_bases {files : List SourceFile} (hascii : SourceFile.Ascii files)
    {contract : Contract} (hcontract : contract ∈ (ParsedSources.ofFiles files).contracts)
    {base : String} (hbase : base ∈ contract.inherits) :
    ∃ found ∈ findAll inheritance (lower (SourceFile.combine files)),
      lower base.toList <:+: found := by
  obtain ⟨start, rest, hcombine, hstart, blanks, name, tail, hlowered⟩ :=
    Declaration.exists_lowered hascii hcontract
  obtain ⟨before, after, bases, left, hbased, hne, hinside⟩ := hlowered.bases base hbase
  obtain ⟨found, hfound, hheld⟩ :=
    exists_read_of_parts List.mem_cons_self hstart hlowered.named hbased hne
  rw [hcombine]
  exact ⟨found, hfound, hinside.trans hheld⟩

/-- A mark in a list of bases is in one of them. -/
theorem inheritsMarked_of_infix {lowered found : List Char} {mark : String}
    (hfound : found ∈ findAll inheritance lowered) (hmark : mark ∈ baseMarks)
    (hinside : mark.toList <:+: found) : inheritsMarked lowered = true := by
  have hcomma : ∀ mark ∈ baseMarks, ',' ∉ mark.toList := by decide
  obtain ⟨part, hpart, hheld⟩ := exists_part_of_infix (hcomma mark hmark) hinside
  rw [inheritsMarked, List.any_eq_true]
  refine ⟨found, hfound, List.any_eq_true.mpr ⟨part, hpart, ?_⟩⟩
  exact holdsAny_iff.mpr ⟨mark, hmark, hheld⟩

/-- A text starts with a declaration whose list of bases has a mark in it. -/
def Telling (cs : List Char) : Prop :=
  ∃ word ∈ headWords, ∃ blanks name tail before after bases left,
    NamedBy word.toList cs blanks name tail ∧
    Declaration.BasedOn tail before after bases left ∧
    ∃ mark ∈ baseMarks, mark.toList <:+: bases

/-- The blanks after a name end it, whatever comes behind them. -/
theorem namedBy_of_based {word cs blanks name tail before after bases left : List Char}
    (hnamed : NamedBy word cs blanks name tail)
    (hbased : Declaration.BasedOn tail before after bases left) (later : List Char) :
    NamedBy word (word ++ (blanks ++ (name ++ (before ++ later)))) blanks name (before ++ later) :=
  { hnamed with
    text := rfl
    ends := forall_head?_append hbased.before_ne
      (fun c hc => isWordChar_of_isBlank (hbased.before_blank c hc)) _ }

theorem Telling.append {cs : List Char} (h : Telling cs) (rest : List Char) :
    Telling (cs ++ rest) := by
  obtain ⟨word, hword, blanks, name, tail, before, after, bases, left, hnamed, hbased, hmark⟩ := h
  refine ⟨word, hword, blanks, name, tail ++ rest, before, after, bases, left ++ rest, ?_,
    hbased.append rest, hmark⟩
  have hwhole := namedBy_of_based hnamed hbased
    (['i', 's'] ++ (after ++ (bases ++ '\x7b' :: (left ++ rest))))
  rw [hnamed.text, hbased.text]
  simpa only [List.append_assoc, List.cons_append] using hwhole

/-- No mark is empty, and none is made of blanks. -/
theorem exists_of_mem_baseMarks {mark : String} (h : mark ∈ baseMarks) :
    ∃ c ∈ mark.toList, isBlank c = false := by
  have hany : ∀ mark ∈ baseMarks, (mark.toList.any fun c => !isBlank c) = true := by
    decide
  obtain ⟨c, hc, hblank⟩ := List.any_eq_true.mp (hany mark h)
  exact ⟨c, hc, Bool.not_eq_true' _ ▸ hblank⟩

/-- **A telling base is read wherever a declaration names one**, whatever stands around it. -/
theorem inheritsMarked_iff {lowered : List Char} : inheritsMarked lowered = true ↔
    ∃ start rest, lowered = start ++ rest ∧ wordBefore false start = false ∧ Telling rest := by
  constructor
  · intro h
    obtain ⟨found, hfound, hparts⟩ := List.any_eq_true.mp h
    obtain ⟨part, hpart, hheld⟩ := List.any_eq_true.mp hparts
    obtain ⟨mark, hmark, hinside⟩ := holdsAny_iff.mp hheld
    obtain ⟨first, last, hfirst, -⟩ := exists_append_of_mem_splitAt hpart
    have hmarked : mark.toList <:+: found :=
      hinside.trans ⟨first, last, by rw [hfirst, List.append_assoc]⟩
    obtain ⟨start, rest, left, rfl, hread⟩ := exists_place_of_mem hfound
    obtain ⟨hstart, word, hword, blanks, name, tail, before, after, bases, hnamed, hbased, hcase⟩ :=
      parts_of_inheritance hread
    refine ⟨start, rest, rfl, hstart, word, hword, blanks, name, tail, before, after, bases, left,
      hnamed, hbased, mark, hmark, ?_⟩
    rcases hcase with ⟨rfl, -⟩ | ⟨-, blank, hblank, rfl⟩
    · exact hmarked
    · obtain ⟨c, hc, hnone⟩ := exists_of_mem_baseMarks hmark
      rw [List.mem_singleton.mp (hmarked.subset hc), hblank] at hnone
      cases hnone
  · rintro ⟨start, rest, rfl, hstart, word, hword, blanks, name, tail, before, after, bases, left,
      hnamed, hbased, mark, hmark, hinside⟩
    have hne : bases ≠ [] := by
      obtain ⟨c, hc, -⟩ := exists_of_mem_baseMarks hmark
      exact List.ne_nil_of_mem (hinside.subset hc)
    obtain ⟨found, hfound, hheld⟩ := exists_read_of_parts hword hstart hnamed hbased hne
    exact inheritsMarked_of_infix hfound hmark (hinside.trans hheld)

/-- **A contract with a telling base is a sign.** -/
theorem inheritsMarked_of_base {files : List SourceFile} (hascii : SourceFile.Ascii files)
    {contract : Contract} (hcontract : contract ∈ (ParsedSources.ofFiles files).contracts)
    {base : String} (hbase : base ∈ contract.inherits) {mark : String} (hmark : mark ∈ baseMarks)
    (hinside : mark.toList <:+: lower base.toList) :
    inheritsMarked (lower (SourceFile.combine files)) = true := by
  obtain ⟨found, hfound, hheld⟩ := exists_read_bases hascii hcontract hbase
  exact inheritsMarked_of_infix hfound hmark (hinside.trans hheld)

/-- A call in the caller's context is one in the lowered text. -/
theorem contains_delegatecall_lower {files : List SourceFile} (hascii : SourceFile.Ascii files)
    (h : contains "delegatecall".toList (SourceFile.combine files) = true) :
    contains "delegatecall".toList (lower (SourceFile.combine files)) = true := by
  have hword : "delegatecall".toList.map Char.toLower = "delegatecall".toList := by decide
  rw [contains_iff] at h ⊢
  rw [SourceFile.lower_combine hascii, ← hword]
  exact h.map Char.toLower

end Upgradeable

/-! ## Verdicts -/

namespace Workbench

/-- **Telling bases and calls in the caller's context reach the verdict.** For a set in ASCII, a
contract that names a base with a mark in it, in whatever case, bars the record, and so do features
that show a call in the caller's context; and every record is to be kept exactly when it is not of
an upgradeable contract. -/
theorem barred_of_bases_or_delegation (bench : Workbench) (id : String) (trace : Trace)
    (input : VerifiedInput) (hascii : SourceFile.Ascii input.files) :
    ((∃ parsed ∈ (bench.recordOf id trace (.verified input)).parsed,
        ∃ contract ∈ parsed.contracts, ∃ base ∈ contract.inherits,
        ∃ mark ∈ Upgradeable.baseMarks, mark.toList <:+: lower base.toList) →
      (bench.recordOf id trace (.verified input)).Barred) ∧
    ((∃ features ∈ (bench.recordOf id trace (.verified input)).features,
        features.hasDelegateCall = true) →
      (bench.recordOf id trace (.verified input)).Barred) ∧
    ∀ other : AnalysisInput, (bench.recordOf id trace other).cacheEligible =
      !(bench.recordOf id trace other).isUpgradeable := by
  obtain ⟨imports, hrecord⟩ := bench.exists_recordOf_verified id trace input
  refine ⟨?_, ?_, bench.cacheEligible_recordOf id trace⟩
  · rintro ⟨parsed, hparsed, contract, hcontract, base, hbase, mark, hmark, hinside⟩
    rw [hrecord] at hparsed
    cases hparsed
    exact bench.barred_of_sign id trace
      (.inr (.inr (.inl (Upgradeable.inheritsMarked_of_base hascii hcontract hbase hmark hinside))))
  · rintro ⟨features, hfeatures, hdelegates⟩
    rw [hrecord] at hfeatures
    cases hfeatures
    exact bench.barred_of_sign id trace
      (.inl (Upgradeable.contains_delegatecall_lower hascii hdelegates))

/-- Two files. In the first a declaration breaks off; in the lowered text of both it takes the one
in the second for a part of its list. -/
def draftFiles : List SourceFile := [
  ⟨"Notes.sol", "// contract Draft is unfinished\n"⟩,
  ⟨"Vault.sol", "contract Vault is Ownable, UUPSUpgradeable \x7b\n\x7d\n"⟩]

/-- A file with a call in the caller's context. -/
def forwarderFiles : List SourceFile := [
  ⟨"Forwarder.sol", "contract Forwarder \x7b\n  a.delegatecall(b);\n\x7d\n"⟩]

/-- The base of the second declaration bars the record, although its own list is not read; the call
bars the other record. -/
theorem barred_of_bases_or_delegation_draftFiles :
    (offlineRecord draftFiles).Barred ∧ (offlineRecord forwarderFiles).Barred := by
  constructor
  · refine (barred_of_bases_or_delegation offline "id" {} (sourceOf _) ?_).1 ⟨_, rfl, ?_⟩
    · decide
    · decide +kernel
  · refine (barred_of_bases_or_delegation offline "id" {} (sourceOf _) ?_).2.1 ⟨_, rfl, ?_⟩
    · decide
    · decide +kernel

end Workbench

end ContractLens
