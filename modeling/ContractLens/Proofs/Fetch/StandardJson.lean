import ContractLens.Fetch.StandardJson
import ContractLens.Proofs.Json.Limits
import ContractLens.Proofs.Number.NumberText
import ContractLens.Proofs.Text.Keyword
import ContractLens.Proofs.Text.Lines
/-!
# Sources in one or two pairs of braces

A second pair of braces around a text in a single one makes no difference, whatever stands between
them (`parse?_doubled`). In a text that is an object with sources, each name is one file, in the
place where the name first came and with the content of its last entry (`parse?_of_fits`); only a
text that the JSON reader has no room for is refused, for that reason (`parse?_of_not_fits`).
-/

namespace ContractLens.StandardJson

open Text Json

/-! ## Braces -/

/-- A text in braces, but not in two pairs of them. -/
structure SingleBraced (cs : List Char) : Prop where
  /-- It begins with a brace. -/
  opening : cs.head? = some '\x7b'
  /-- It ends with a brace. -/
  closing : cs.getLast? = some '\x7d'
  /-- It does not begin and end with two of them. -/
  single : ¬ (['\x7b', '\x7b'] <+: cs ∧ ['\x7d', '\x7d'] <:+ cs)

/-- A text in one more pair of braces. -/
def doubled (cs : List Char) : List Char := '\x7b' :: (cs ++ ['\x7d'])

/-- Braces are no blanks. -/
theorem trim_of_braces {cs : List Char} (hopening : cs.head? = some '\x7b')
    (hclosing : cs.getLast? = some '\x7d') : trim cs = cs := by
  refine trim_of_ends (fun c hc => ?_) fun c hc => ?_
  · rw [hopening] at hc
    cases hc
    rfl
  · rw [hclosing] at hc
    cases hc
    rfl

theorem unwrap_eq_self {cs : List Char}
    (h : ¬ (['\x7b', '\x7b'] <+: cs ∧ ['\x7d', '\x7d'] <:+ cs)) : unwrap cs = cs := by
  rw [unwrap, if_neg]
  rwa [Bool.and_eq_true, isSome_dropStart?_iff, List.isSuffixOf_iff_suffix]

theorem SingleBraced.unwrap_doubled {cs : List Char} (h : SingleBraced cs) :
    unwrap (doubled cs) = cs := by
  obtain ⟨more, rfl⟩ := List.head?_eq_some_iff.mp h.opening
  obtain ⟨init, hinit⟩ := List.getLast?_eq_some_iff.mp h.closing
  have hbraces : ['\x7b', '\x7b'] <+: doubled ('\x7b' :: more) ∧
      ['\x7d', '\x7d'] <:+ doubled ('\x7b' :: more) := by
    refine ⟨⟨more ++ ['\x7d'], rfl⟩, '\x7b' :: init, ?_⟩
    rw [doubled, hinit]
    simp
  rw [unwrap, if_pos]
  · rw [doubled, List.drop_one, List.tail_cons, List.dropLast_concat]
  · rwa [Bool.and_eq_true, isSome_dropStart?_iff, List.isSuffixOf_iff_suffix]

theorem SingleBraced.unwrap_trim {cs : List Char} (h : SingleBraced cs) :
    unwrap (trim (String.ofList cs).toList) = cs := by
  rw [String.toList_ofList, trim_of_braces h.opening h.closing, unwrap_eq_self h.single]

/-- **A second pair of braces makes no difference.** -/
theorem SingleBraced.parse?_doubled [Platform] {cs : List Char} (h : SingleBraced cs) :
    parse? (String.ofList (doubled cs)) = parse? (String.ofList cs) := by
  have hclosing : (doubled cs).getLast? = some '\x7d' := by
    rw [doubled, ← List.cons_append, List.getLast?_concat]
  unfold parse?
  rw [h.unwrap_trim, String.toList_ofList, trim_of_braces rfl hclosing, h.unwrap_doubled]

/-- The first character behind a gap belongs to the gap, or is what follows it. -/
theorem head?_gap_append {gap : List Char} (hgap : Gap gap) {c d : Char} {rest : List Char}
    (h : (gap ++ c :: rest).head? = some d) : d = c ∨ isSpace d = true := by
  cases gap with
  | nil => exact .inl (Option.some.inj h).symm
  | cons e gap =>
    obtain rfl : e = d := Option.some.inj h
    exact .inr (hgap e List.mem_cons_self)

/-- What follows the opening brace of an object. -/
theorem head?_of_object [Platform] {members : List Labelled} (hne : members ≠ [])
    {rest : List Char} {d : Char}
    (h : (joined [','] (members.map Labelled.chars) ++ rest).head? = some d) :
    d = '\x22' ∨ isSpace d = true := by
  obtain ⟨first, members, rfl⟩ := List.exists_cons_of_ne_nil hne
  rw [List.map_cons, joined_eq, Labelled.chars, Labelled.inner, List.append_assoc,
    List.append_assoc, List.cons_append] at h
  exact head?_gap_append first.before.property h

theorem not_two_braces {cs : List Char} {c : Char} (hcs : cs.head? = some c)
    (hc : c ≠ '\x7b') : ¬ ['\x7b', '\x7b'] <+: '\x7b' :: cs := by
  rintro ⟨rest, h⟩
  rw [← (List.cons.inj h).2] at hcs
  exact hc (Option.some.inj hcs).symm

/-- **An object stands in single braces**, however it is written. -/
theorem singleBraced_of_spells [Platform] {cs : List Char} {members : List (String × Json)}
    (h : Spells cs (object members)) : SingleBraced cs := by
  have hbrace : ∀ c, isSpace c = true → c ≠ '\x7b' := by
    rintro c hc rfl
    exact absurd hc (by decide)
  generalize hj : object members = j at h
  cases h with
  | word hword =>
    subst hj
    simp [Json.words] at hword
  | number n =>
    rw [Numeral.value] at hj
    split at hj <;> cases hj
  | text _ => cases hj
  | emptyList _ => cases hj
  | list _ _ => cases hj
  | emptyObject gap =>
    refine ⟨rfl, by rw [← List.cons_append, List.getLast?_concat], fun hboth => ?_⟩
    obtain ⟨c, more, hc⟩ := exists_cons_of_append_cons gap.val '\x7d' []
    refine not_two_braces (c := c) (by rw [hc]; rfl) ?_ hboth.1
    rcases head?_gap_append gap.property (by rw [hc]; rfl) with rfl | hspace
    · decide
    · exact hbrace c hspace
  | @object written hne _ =>
    refine ⟨rfl, by rw [← List.cons_append, List.getLast?_concat], fun hboth => ?_⟩
    obtain ⟨c, more, hc⟩ :=
      exists_cons_of_append_cons (joined [','] (written.map Labelled.chars)) '\x7d' []
    refine not_two_braces (c := c) (by rw [hc]; rfl) ?_ hboth.1
    rcases head?_of_object hne (by rw [hc]; rfl) with rfl | hspace
    · decide
    · exact hbrace c hspace

/-! ## Sources -/

/-- The content of a source: the last text `content` of the last entry of its name. -/
def Content (entries : List (String × Json)) (name content : String) : Prop :=
  ∃ fields, last? entries name = some (object fields) ∧
    last? fields "content" = some (text content)

/-- The members of an object whose sources all have a content. -/
structure Sourced (members entries : List (String × Json)) : Prop where
  /-- The sources are an object. -/
  sources : last? members "sources" = some (object entries)
  /-- Each of them has a content. -/
  contents : ∀ name ∈ Table.names entries, ∃ content, Content entries name content

/-- One file for each name of the sources, in the order in which the names first came, with the
content of the name's last entry. -/
structure FilesOf (entries : List (String × Json)) (files : List SourceFile) : Prop where
  paths : files.map (·.path) = (Table.names entries).eraseDups
  contents : ∀ file ∈ files, Content entries file.path file.content

theorem filesOf_eq_ok {sources : List (String × Json)} (content : String → String)
    (h : ∀ source ∈ sources, contentOf source.2 = .ok (text (content source.1))) :
    filesOf sources = .ok (sources.map fun source => ⟨source.1, content source.1⟩) := by
  rw [filesOf]
  induction sources with
  | nil => rfl
  | cons source sources ih =>
    obtain ⟨hsource, hsources⟩ := List.forall_mem_cons.mp h
    obtain ⟨path, source⟩ := source
    rw [List.mapM_cons, ih hsources]
    dsimp only at hsource ⊢
    rw [hsource]
    rfl

/-- What is read of sources with contents gives one file for each of their names. -/
theorem exists_filesOf {depth : Nat} {entries : List (String × Json)} {value : Json}
    (hread : readBack depth (object entries) = .ok value)
    (hcontents : ∀ name ∈ Table.names entries, ∃ content, Content entries name content) :
    ∃ sources files, value = object sources ∧ filesOf sources = .ok files ∧
      FilesOf entries files := by
  obtain ⟨d, sources, rfl, rfl, hnames, hnodup, hlast⟩ := exists_last_of_readBack hread
  have hchoice : ∀ name, ∃ content, name ∈ Table.names entries → Content entries name content := by
    intro name
    by_cases hname : name ∈ Table.names entries
    · obtain ⟨content, hcontent⟩ := hcontents name hname
      exact ⟨content, fun _ => hcontent⟩
    · exact ⟨"", fun h => absurd h hname⟩
  choose content hcontent using hchoice
  have hmem : ∀ source ∈ sources, source.1 ∈ Table.names entries := by
    intro source hsource
    have hname : source.1 ∈ Table.names sources := List.mem_map_of_mem hsource
    rwa [hnames, List.mem_eraseDups] at hname
  refine ⟨sources, _, rfl, filesOf_eq_ok content fun source hsource => ?_, ?_, ?_⟩
  · -- the source is what was read of the last entry, and its content is read as it is
    obtain ⟨fields, hfields, hfield⟩ := hcontent source.1 (hmem source hsource)
    obtain ⟨v, hv, hget⟩ := hlast source.1 _ hfields
    rw [(Table.get?_eq_some_iff hnodup).mpr hsource] at hget
    obtain ⟨d, found, rfl, hfound, -, -, hmember⟩ := exists_last_of_readBack hv
    obtain ⟨w, hw, hcontentOf⟩ := hmember "content" _ hfield
    simp only [readBack, Except.ok.injEq] at hw
    rw [Option.some.inj hget, hfound, contentOf, hcontentOf, ← hw]
    rfl
  · rw [List.map_map]
    exact hnames
  · intro file hfile
    obtain ⟨source, hsource, rfl⟩ := List.mem_map.mp hfile
    exact hcontent source.1 (hmem source hsource)

section Reading

variable [Platform] {cs : List Char} {members entries : List (String × Json)}

/-- **An object with sources holds one file for each of their names.** -/
theorem parse?_of_fits (hcs : Spells cs (object members)) (h : Sourced members entries)
    (hfits : Fits Platform.levels (object members)) :
    ∃ files, parse? (String.ofList cs) = .ok (some files) ∧ FilesOf entries files := by
  obtain ⟨found, hfound, hread⟩ := read_of_fits hcs hfits
  obtain ⟨d, top, -, rfl, -, -, hlast⟩ := exists_last_of_readBack hfound
  obtain ⟨value, hvalue, hget⟩ := hlast "sources" _ h.sources
  obtain ⟨sources, files, rfl, hfiles, hof⟩ := exists_filesOf hvalue h.contents
  refine ⟨files, ?_, hof⟩
  unfold parse?
  rw [(singleBraced_of_spells hcs).unwrap_trim, hread]
  simp only [member?, hget, hfiles]
  rfl

theorem parse?_of_fault (hcs : Spells cs (object members)) {fault : Fault}
    (hfault : readBack Platform.levels (object members) = .error fault) (hlimit : fault.Limit) :
    parse? (String.ofList cs) = .error (.unreadable (fault.toFailure cs)) := by
  have hread := read_of_spells hcs gap_nil
  rw [List.append_nil, hfault] at hread
  unfold parse?
  rw [(singleBraced_of_spells hcs).unwrap_trim, hread]
  generalize hreason : fault.toFailure cs = reason
  have hlimit : reason.Limit := hreason ▸ hlimit cs
  rw [Except.mapError, hreason]
  cases hlimit <;> rfl

/-- **One that the reader has no room for is refused for that reason.** -/
theorem parse?_of_not_fits (hcs : Spells cs (object members))
    (hfits : ¬ Fits Platform.levels (object members)) :
    ∃ reason, reason.Limit ∧ parse? (String.ofList cs) = .error (.unreadable reason) := by
  obtain ⟨fault, hfault, hlimit⟩ := exists_fault_of_not_fits hfits
  exact ⟨_, hlimit cs, parse?_of_fault hcs hfault hlimit⟩

/-- **Sources are the same in one pair of braces and in two**: what a text in single braces gives,
it also gives in another pair. If it is an object whose sources have contents, then it gives one
file for each of their names, or the reader's refusal of a value beyond its limits. -/
theorem parse?_singleBraced (h : SingleBraced cs) :
    parse? (String.ofList (doubled cs)) = parse? (String.ofList cs) ∧
      ∀ members entries, Spells cs (object members) → Sourced members entries →
        (Fits Platform.levels (object members) →
          ∃ files, parse? (String.ofList cs) = .ok (some files) ∧ FilesOf entries files) ∧
        (¬ Fits Platform.levels (object members) →
          ∃ reason, reason.Limit ∧ parse? (String.ofList cs) = .error (.unreadable reason)) :=
  ⟨h.parse?_doubled, fun _ _ hcs hsourced =>
    ⟨parse?_of_fits hcs hsourced, parse?_of_not_fits hcs⟩⟩

end Reading

/-- Sources whose fields are texts. -/
def textSources (entries : List (String × List (String × String))) : List (String × Json) :=
  entries.map fun entry => (entry.1, object (entry.2.map fun field => (field.1, text field.2)))

theorem exact_textSources (entries : List (String × List (String × String))) :
    Exact (object (textSources entries)) :=
  .object (List.forall_mem_map.mpr fun _ _ => .object (List.forall_mem_map.mpr fun field _ =>
    .text field.2))

theorem fits_textSources {depth : Nat} (entries : List (String × List (String × String))) :
    Fits (depth + 2) (object (textSources entries)) :=
  .object (List.forall_mem_map.mpr fun _ _ => .object (List.forall_mem_map.mpr fun field _ =>
    .text field.2))

/-- Sources in which one name comes twice, the second time with two contents. -/
def renewed : List (String × Json) := textSources
  [("A.sol", [("content", "old")]), ("B.sol", [("content", "b")]),
    ("A.sol", [("content", "older"), ("content", "new")])]

/-- Their text. -/
def renewedText : List Char := writeAt .compact 0 (object [("sources", object renewed)])

theorem spells_renewedText : Spells renewedText (object [("sources", object renewed)]) :=
  spells_writeAt 0 Layout.gapped_compact
    (.object (List.forall_mem_singleton.mpr (exact_textSources _)))

/-- Two files, the first of them with its last content. -/
theorem parse?_singleBraced_renewed :
    SingleBraced renewedText ∧ Spells renewedText (object [("sources", object renewed)]) ∧
      Sourced [("sources", object renewed)] renewed ∧
      Fits Platform.levels (object [("sources", object renewed)]) ∧
      parse? (String.ofList (doubled renewedText)) = parse? (String.ofList renewedText) ∧
      ∃ files, parse? (String.ofList renewedText) = .ok (some files) ∧
        files.map (·.path) = ["A.sol", "B.sol"] ∧ Content renewed "A.sol" "new" ∧
        ∀ file ∈ files, Content renewed file.path file.content := by
  have hnew : Content renewed "A.sol" "new" := ⟨_, rfl, rfl⟩
  have hsourced : Sourced [("sources", object renewed)] renewed := by
    refine ⟨rfl, ?_⟩
    simp only [renewed, textSources, Table.names, List.map_cons, List.map_nil, List.forall_mem_cons]
    exact ⟨⟨_, hnew⟩, ⟨"b", _, rfl, rfl⟩, ⟨_, hnew⟩, fun _ h => absurd h List.not_mem_nil⟩
  have hfits : Fits 960 (object [("sources", object renewed)]) :=
    .object (List.forall_mem_singleton.mpr (fits_textSources _))
  have hsingle := singleBraced_of_spells spells_renewedText
  obtain ⟨hdoubled, hfiles⟩ := parse?_singleBraced hsingle
  obtain ⟨files, hparse, hof⟩ := (hfiles _ _ spells_renewedText hsourced).1 hfits
  have hnames : (Table.names renewed).eraseDups = ["A.sol", "B.sol"] := by decide
  exact ⟨hsingle, spells_renewedText, hsourced, hfits, hdoubled, files, hparse,
    hof.paths.trans hnames, hnew, hof.contents⟩

/-- An object with a whole number of one digit too many behind its sources. -/
def overlong : List (String × Json) := [
  ("sources", object (textSources [("Token.sol", [("content", "contract Token \x7b\x7d")])])),
  ("n", int endless)]

/-- Its text. -/
def overlongText : List Char := writeAt .compact 0 (object overlong)

theorem readBack_overlong :
    readBack 960 (object overlong) = .error (.hugeInteger (maxIntegerDigits + 1)) := by
  obtain ⟨found, hfound⟩ : ∃ found, readBack 959 (object (textSources
      [("Token.sol", [("content", "contract Token \x7b\x7d")])])) = .ok found :=
    Fits.exists_readBack (fits_textSources _)
  have hhuge : readBack 959 (int endless) = .error (.hugeInteger (maxIntegerDigits + 1)) := by
    rw [readBack, length_endless, if_pos (Nat.lt_succ_self _)]
  rw [readBack, overlong, readBackMembers_of_ok hfound, readBackMembers_of_error hhuge]
  rfl

/-- **Proper sources are refused because of a number that is none of them.** -/
theorem parse?_overlong :
    Spells overlongText (object overlong) ∧ SingleBraced overlongText ∧
      Sourced overlong (textSources [("Token.sol", [("content", "contract Token \x7b\x7d")])]) ∧
      parse? (String.ofList overlongText) =
        .error (.unreadable (.hugeInteger (maxIntegerDigits + 1))) := by
  have hcs : Spells overlongText (object overlong) := spells_writeAt 0 Layout.gapped_compact
    (.object (List.forall_mem_cons.mpr ⟨exact_textSources _,
      List.forall_mem_singleton.mpr (.int _)⟩))
  have hlimit : (Fault.hugeInteger (maxIntegerDigits + 1)).Limit := fun _ =>
    .hugeInteger (Nat.lt_succ_self _)
  exact ⟨hcs, singleBraced_of_spells hcs, ⟨rfl, List.forall_mem_singleton.mpr ⟨_, _, rfl, rfl⟩⟩,
    parse?_of_fault hcs readBack_overlong hlimit⟩

end ContractLens.StandardJson
