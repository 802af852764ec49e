import ContractLens.Proofs.Source.Order
import ContractLens.Proofs.Source.Place
/-!
# Construction sites

Where a line of a body says `new` and the name of another contract, the first creates the second
(`Site`). The call graph does not look at the lines one by one but at the body as a whole, and there
a line may go on where the one before ends: behind a line that ends with the word `new`, the keyword
of a site is itself read for a name, and the site is passed over. This is the only way in which a
site gets lost, whatever else the body holds (`noted_or_endsWith_keyword`).
-/

namespace ContractLens

open Text

/-! ## Sites -/

/-- A place in the lines of a body where a contract is created: there stand `new`, blanks and the
name, the keyword and the name each a word of its own. -/
structure Site (body : List (List Char)) (name : List Char) where
  /-- The lines before. -/
  earlier : List (List Char)
  /-- What stands before on the line. -/
  before : List Char
  /-- The blanks between the keyword and the name. -/
  blanks : List Char
  /-- What stands behind on the line. -/
  after : List Char
  /-- The lines behind. -/
  later : List (List Char)
  /-- The line is one of the body. -/
  body_eq : body =
    earlier ++ (before ++ ("new".toList ++ (blanks ++ (name ++ after)))) :: later
  /-- No word goes on where the keyword starts. -/
  starts : wordBefore false before = false
  /-- There are blanks. -/
  blanks_ne : blanks ≠ []
  /-- They are blanks. -/
  blank : ∀ c ∈ blanks, isBlank c = true
  /-- The name ends where the word ends. -/
  ends : ∀ c ∈ after.head?, isWordChar c = false

/-- The text of a body up to a site. -/
def Site.textBefore {body : List (List Char)} {name : List Char} (site : Site body name) :
    List Char :=
  List.intercalate ['\n'] (site.earlier ++ [site.before])

/-- **A site is read in the text of the body**, unless that text ends with `new` and blanks where
the site starts. -/
theorem Site.mem_created_or_endsWith {entry : ScannedContract} {name : List Char}
    (site : Site entry.body name) (hne : name ≠ []) (hword : ∀ c ∈ name, isWordChar c = true) :
    String.ofList name ∈ CallGraph.created entry ∨ EndsWith "new".toList site.textBefore := by
  obtain ⟨start, after, hbefore, htext, hstart, hafter⟩ := exists_intercalate_append '\n'
    site.earlier site.before ("new".toList ++ (site.blanks ++ (name ++ site.after))) site.later
  have hbreak : isWordChar '\n' = false := by decide
  have hplace : wordBefore false site.textBefore = false := by
    have hfirst : wordBefore false start = false := by
      rcases hstart with rfl | ⟨front, rfl⟩
      · rfl
      · rw [wordBefore_concat, hbreak]
    rw [Site.textBefore, hbefore, wordBefore_append, hfirst, site.starts]
  -- the name ends on its line, or where the line does
  have hends : ∀ c ∈ (site.after ++ after).head?, isWordChar c = false := by
    cases hrest : site.after with
    | nil => exact fun c hc => (hafter c hc).symm ▸ hbreak
    | cons c cs => exact forall_head?_cons (site.ends c (by rw [hrest]; rfl)) _
  have hnamed : NamedBy "new".toList
      (("new".toList ++ (site.blanks ++ (name ++ site.after))) ++ after) site.blanks name
      (site.after ++ after) :=
    { text := by simp only [List.append_assoc]
      blanks_ne := site.blanks_ne
      blank := site.blank
      name_ne := hne
      isWord := hword
      ends := hends }
  have hbody : entry.bodyText = site.textBefore ++
      (("new".toList ++ (site.blanks ++ (name ++ site.after))) ++ after) :=
    calc entry.bodyText = List.intercalate ['\n'] (site.earlier ++ (site.before ++
          ("new".toList ++ (site.blanks ++ (name ++ site.after)))) :: site.later) :=
        congrArg (List.intercalate ['\n']) site.body_eq
      _ = site.textBefore ++
          (("new".toList ++ (site.blanks ++ (name ++ site.after))) ++ after) := by
        rw [htext, Site.textBefore, hbefore, List.append_assoc start]
  rw [CallGraph.created, hbody]
  exact mem_findAll_or_endsWith (forall_mem_of_all (by decide)) (by decide)
    (keywordThenName_eq_some_iff.mpr ⟨hplace, site.blanks, name, hnamed, rfl⟩)

namespace ParsedSources

/-- A contract's name is a word. -/
theorem isWord_of_mem_contracts {files : List SourceFile} {contract : Contract}
    (h : contract ∈ (ofFiles files).contracts) :
    contract.name.toList ≠ [] ∧ ∀ c ∈ contract.name.toList, isWordChar c = true := by
  obtain ⟨_, _, -, -, _, name, _, hdeclares⟩ := Declaration.exists_declares h
  have hname : contract.name.toList = name := by rw [hdeclares.name, String.toList_ofList]
  rw [hname]
  exact ⟨hdeclares.named.name_ne, hdeclares.named.isWord⟩

/-! ## Calls -/

section Calls

variable {files : List SourceFile} {entry : ScannedContract} {caller callee : String}

theorem noted_calls_ofFiles :
    CallGraph.Noted CallNode.calls (ofFiles files).callGraph caller callee ↔
      CallGraph.Creates (scanFiles files) caller callee :=
  CallGraph.noted_calls_ofContracts _ _ _

theorem noted_calledBy_ofFiles :
    CallGraph.Noted CallNode.calledBy (ofFiles files).callGraph callee caller ↔
      CallGraph.Creates (scanFiles files) caller callee :=
  CallGraph.noted_calledBy_ofContracts _ _ _

/-- **Every site is noted as a call on both sides, unless the keyword is taken for a name.** A
contract whose body creates another of the set calls it, or else the text of the body ends with
`new` and blanks where the site starts. -/
theorem noted_or_endsWith_keyword (hother : callee ≠ caller)
    (hcallee : ∃ contract ∈ (ofFiles files).contracts, contract.name = callee)
    (hentry : entry ∈ scanFiles files) (hcaller : entry.contract.name = caller)
    (site : Site entry.body callee.toList) :
    (CallGraph.Noted CallNode.calls (ofFiles files).callGraph caller callee ∧
      CallGraph.Noted CallNode.calledBy (ofFiles files).callGraph callee caller) ∨
        EndsWith "new".toList site.textBefore := by
  obtain ⟨contract, hcontract, rfl⟩ := hcallee
  obtain ⟨hne, hword⟩ := isWord_of_mem_contracts hcontract
  refine (site.mem_created_or_endsWith hne hword).imp_left fun hcreated => ?_
  rw [String.ofList_toList] at hcreated
  obtain ⟨declared, hdeclared, rfl⟩ := List.mem_map.mp hcontract
  have hcreates : CallGraph.Creates (scanFiles files) caller declared.contract.name :=
    ⟨hother, ⟨declared, hdeclared, rfl⟩, entry, hentry, hcaller, hcreated⟩
  exact ⟨noted_calls_ofFiles.mpr hcreates, noted_calledBy_ofFiles.mpr hcreates⟩

end Calls

/-- The deployer's call of the token is noted on both sides: what stands before the site does not
end with the keyword. -/
theorem noted_or_endsWith_keyword_deployerFile :
    CallGraph.Noted CallNode.calls (ofFiles [deployerFile, tokenFile]).callGraph
        "Deployer" "Token" ∧
      CallGraph.Noted CallNode.calledBy (ofFiles [deployerFile, tokenFile]).callGraph
        "Token" "Deployer" := by
  obtain ⟨⟨⟨contract, body⟩, hentry, hname, hbody⟩, hcallee⟩ :
      (∃ entry ∈ scanFiles [deployerFile, tokenFile], entry.contract.name = "Deployer" ∧
        entry.body = [[], "function run() external \x7b new Token(); \x7d".toList,
          "\x7d".toList]) ∧
      ∃ contract ∈ (ofFiles [deployerFile, tokenFile]).contracts, contract.name = "Token" := by
    decide +kernel
  subst hbody
  refine (noted_or_endsWith_keyword (by decide) hcallee hentry hname
    ⟨[[]], "function run() external \x7b ".toList, [' '], '(' :: "); \x7d".toList,
      ["\x7d".toList], rfl, by decide, by decide, forall_mem_of_all (by decide),
      forall_head?_cons (by decide) _⟩).resolve_right ?_
  have hnone : 'w' ∉ List.intercalate ['\n'] [[], "function run() external \x7b ".toList] := by
    decide
  exact fun hbehind => hnone (hbehind.subset (by decide))

/-- A file with a contract that creates another, on the line after a comment. -/
def factoryFile : SourceFile :=
  ⟨"Market.sol",
    "contract Factory \x7b\n  function make() external \x7b // always new\n" ++
      "    new Pool();\n  \x7d\n\x7d\ncontract Pool \x7b\x7d\n"⟩

/-- **A site is passed over behind a comment that ends with the keyword**: the call is noted on
neither side. -/
theorem not_noted_factoryFile :
    (∃ entry ∈ scanFiles [factoryFile], entry.contract.name = "Factory" ∧
        Nonempty (Site entry.body "Pool".toList)) ∧
      (∃ contract ∈ (ofFiles [factoryFile]).contracts, contract.name = "Pool") ∧
      ¬ CallGraph.Noted CallNode.calls (ofFiles [factoryFile]).callGraph "Factory" "Pool" ∧
      ¬ CallGraph.Noted CallNode.calledBy (ofFiles [factoryFile]).callGraph "Pool" "Factory" := by
  rw [noted_calls_ofFiles, noted_calledBy_ofFiles]
  obtain ⟨⟨⟨contract, body⟩, hentry, hname, hbody⟩, hcallee, hcreates⟩ :
      (∃ entry ∈ scanFiles [factoryFile], entry.contract.name = "Factory" ∧
        entry.body = [[], "function make() external \x7b // always new".toList,
          "new Pool();".toList, "\x7d".toList, "\x7d".toList]) ∧
      (∃ contract ∈ (ofFiles [factoryFile]).contracts, contract.name = "Pool") ∧
      ¬ CallGraph.Creates (scanFiles [factoryFile]) "Factory" "Pool" := by
    decide +kernel
  subst hbody
  exact ⟨⟨_, hentry, hname, ⟨⟨[[], "function make() external \x7b // always new".toList], [], [' '],
    '(' :: ");".toList, ["\x7d".toList, "\x7d".toList], rfl, by decide, by decide,
    forall_mem_of_all (by decide), forall_head?_cons (by decide) _⟩⟩⟩, hcallee, hcreates, hcreates⟩

end ParsedSources

end ContractLens
