import ContractLens.Proofs.Upgradeable.Verdict
/-!
# Telling names

The names of contracts are looked for from left to right in the text of the whole set, comments and
all, and what one reading took is not read again. So where a comment ends with the word `contract`,
the keyword of the declaration after it is taken for a name, and the declaration is passed over. In
ASCII there is no other way in which a name gets lost: a contract with a telling name bars the
record, unless its declaration stands right behind the word `contract`
(`barred_of_name_or_behind_keyword`). Beyond ASCII there is: the small form of the dotted capital
`İ` is two characters, of which the second belongs to no word, so that a name is read up to there
only.
-/

namespace ContractLens

open Text

/-! ## Readings of names -/

namespace Upgradeable

/-- In a text the declaration of a contract follows the word `contract` and blanks. -/
def BehindKeyword (name text : List Char) : Prop :=
  ∃ gap blanks, gap ≠ [] ∧ (∀ c ∈ gap, isBlank c = true) ∧ blanks ≠ [] ∧
    (∀ c ∈ blanks, isBlank c = true) ∧
    "contract".toList ++ (gap ++ ("contract".toList ++ (blanks ++ name))) <:+: text

/-- Behind the keyword, the keyword stands twice. -/
theorem BehindKeyword.sublist {name text : List Char} (h : BehindKeyword name text) :
    ("contract".toList ++ "contract".toList).Sublist text := by
  obtain ⟨gap, blanks, -, -, -, -, hinside⟩ := h
  refine List.Sublist.trans (List.Sublist.append_left ?_ _) hinside.sublist
  exact (List.sublist_append_left _ _).trans (List.sublist_append_right _ _)

/-- **The name of a contract is read in the lowered text of its set**, unless its declaration is
passed over behind another keyword. -/
theorem mem_findAll_or_behindKeyword {files : List SourceFile} (hascii : SourceFile.Ascii files)
    {contract : Contract} (hcontract : contract ∈ (ParsedSources.ofFiles files).contracts) :
    String.ofList (lower contract.name.toList) ∈
        findAll (keywordThenName "contract") (lower (SourceFile.combine files)) ∨
      BehindKeyword (lower contract.name.toList) (lower (SourceFile.combine files)) := by
  have hword : ∀ c ∈ "contract".toList, isWordChar c = true := forall_mem_of_all (by decide)
  obtain ⟨start, rest, hcombine, hstart, blanks, name, tail, hlowered⟩ :=
    Declaration.exists_lowered hascii hcontract
  have hread : keywordThenName "contract" (wordBefore false start) rest =
      some (String.ofList name, tail) :=
    keywordThenName_eq_some_iff.mpr ⟨hstart, blanks, name, hlowered.named, rfl⟩
  rw [hlowered.name, hcombine]
  refine (mem_findAll_or_endsWith hword (by decide) hread).imp_right fun hbehind => ?_
  obtain ⟨before, gap, hbefore, hgap_ne, hgap⟩ := hbehind
  refine ⟨gap, blanks, hgap_ne, hgap, hlowered.named.blanks_ne, hlowered.named.blank, before,
    tail, ?_⟩
  rw [hbefore, hlowered.named.text]
  simp only [List.append_assoc]

end Upgradeable

/-! ## Verdicts -/

namespace Workbench

/-- **Telling names reach the verdict, unless the keyword is taken for a name.** For a set in ASCII,
a contract whose name has a mark in it, in whatever case, bars the record, or else its declaration
follows the word `contract` and blanks. -/
theorem barred_of_name_or_behind_keyword (bench : Workbench) (id : String) (trace : Trace)
    (input : VerifiedInput) (hascii : SourceFile.Ascii input.files) {contract : Contract}
    (hcontract : contract ∈ (ParsedSources.ofFiles input.files).contracts) {mark : String}
    (hmark : mark ∈ Upgradeable.nameMarks) (hinside : mark.toList <:+: lower contract.name.toList) :
    (bench.recordOf id trace (.verified input)).Barred ∨
      Upgradeable.BehindKeyword (lower contract.name.toList)
        (lower (SourceFile.combine input.files)) := by
  rcases Upgradeable.mem_findAll_or_behindKeyword hascii hcontract with hmem | hbehind
  · refine .inl (bench.barred_of_sign id trace (.inr (.inr (.inr ?_))))
    refine List.any_eq_true.mpr ⟨_, hmem, Upgradeable.holdsAny_iff.mpr ⟨mark, hmark, ?_⟩⟩
    rwa [String.toList_ofList]
  · exact .inr hbehind

/-- A name with the dotted capital in front of its mark is cut off there. -/
example : (offlineRecord [⟨"Token.sol", "contract \u0130Proxy \x7b\n\x7d\n"⟩]).isUpgradeable =
    false := by
  decide +kernel

/-- A file that declares a proxy under a comment. -/
def proxyFiles : List SourceFile := [
  ⟨"Token.sol", "// a minimal token\ncontract TokenProxy \x7b\n\x7d\n"⟩]

/-- The same file with another word at the end of the comment. -/
def mutedProxyFiles : List SourceFile := [
  ⟨"Token.sol", "// a minimal contract\ncontract TokenProxy \x7b\n\x7d\n"⟩]

/-- The proxy bars the record of the first file, where the keyword stands once. -/
theorem barred_of_name_or_behind_keyword_proxyFiles :
    (offlineRecord proxyFiles).Barred := by
  obtain ⟨contract, hcontract, hname⟩ : ∃ contract ∈ (ParsedSources.ofFiles proxyFiles).contracts,
      contract.name = "TokenProxy" := by
    decide +kernel
  have hinside : "proxy".toList <:+: lower contract.name.toList := by
    rw [hname]
    decide +kernel
  refine (barred_of_name_or_behind_keyword offline "id" {} (sourceOf proxyFiles)
    (by decide) hcontract (by decide)
    hinside).resolve_right fun hbehind => ?_
  exact absurd hbehind.sublist (by decide +kernel)

/-- **A proxy whose declaration follows the word at the end of a comment does not reach the
verdict.** -/
theorem not_upgradeable_mutedProxyFiles :
    (∃ contract ∈ (ParsedSources.ofFiles mutedProxyFiles).contracts,
      ∃ mark ∈ Upgradeable.nameMarks, mark.toList <:+: lower contract.name.toList) ∧
    (offlineRecord mutedProxyFiles).isUpgradeable = false := by
  constructor <;> decide +kernel

end Workbench

end ContractLens
