import ContractLens.Fetch.Resolve
import ContractLens.Proofs.Json.Plain
import ContractLens.Proofs.Schema.Accepted
/-!
# Shapes of answers

Any value may come as an answer, and not every value can be taken apart: a member is asked of a
value that has none, or a text is due and there is a number. Each place has a shape
(`Shape.published`, `Shape.explored`, `Shape.node`), which says what its answers have to look like
as far as they are looked at. Whatever has the shape is taken apart without failure.
-/

namespace ContractLens.Fetch

/-- What a value has to look like. -/
abbrev Shape := Json → Bool

namespace Shape

/-! ## Kinds of values -/

/-- A text. -/
def text : Shape
  | .text _ => true
  | _ => false

/-- An object. -/
def object : Shape
  | .object _ => true
  | _ => false

/-- A list of objects. -/
def objects : Shape
  | .list items => items.all object
  | _ => false

/-- A value that counts as nothing, or has a shape. -/
def orVoid (shape : Shape) : Shape := fun value => value.isVoid || shape value

/-- A text that holds a value with a shape, or no JSON at all. -/
def within [Platform] (shape : Shape) (s : String) : Bool :=
  match Json.read s with
  | .ok value => shape value
  | .error (.malformed ..) => true
  | .error _ => false

/-! ## Published sources -/

/-- Contents by path. -/
def sources : Shape
  | .object members => members.all fun member => orVoid text member.2
  | _ => false

/-- The facts about a compilation. -/
def compilation : Shape := fun value =>
  object value && orVoid text (value.memberOrNull "name") &&
    orVoid text (value.memberOrNull "compilerVersion")

/-- An answer of the published sources: an object which, if it says that there is a match and has
sources, has everything else in shape. -/
def published : Shape := fun value =>
  object value && ((value.memberOrNull "match").isVoid || (value.memberOrNull "sources").isVoid ||
    (sources (value.memberOrNull "sources") &&
      orVoid compilation (value.memberOrNull "compilation") &&
      orVoid objects (value.memberOrNull "abi")))

/-! ## The explorer -/

/-- A source entry in one JSON text. -/
def source : Shape
  | .object members => text ((Table.get? members "content").getD (.text ""))
  | value => value.isVoid

/-- Sources in one JSON text. -/
def standardJson : Shape := fun value =>
  match value.member? "sources" with
  | some (.object sources) => sources.all fun member => source member.2
  | _ => true

/-- A source text that may hold several files. -/
def sourceText [Platform] (s : String) : Bool :=
  (s.toList.dropWhile Text.isBlank).head? != some '\x7b' ||
    within standardJson (String.ofList (StandardJson.unwrap (Text.trim s.toList)))

/-- Functions and events in a text; a value that is no list describes none. -/
def described [Platform] : Shape
  | .text s => within (fun value => match value with
    | .list items => items.all object
    | _ => true) s
  | _ => false

/-- A result of the explorer: an object which, if it has source code, has everything else in
shape. -/
def result [Platform] : Shape := fun value =>
  object value && match (value.member? "SourceCode").getD (.text "") with
    | .text s => s.isEmpty || (sourceText s &&
      text ((value.member? "ContractName").getD (.text "")) &&
      orVoid described (value.memberOrNull "ABI") &&
      text ((value.member? "CompilerVersion").getD (.text "")))
    | code => code.isVoid

/-- An answer of the explorer: an object whose first result, if there is one, is in shape. -/
def explored [Platform] : Shape := fun value =>
  object value && match value.memberOrNull "status", value.memberOrNull "result" with
    | .text "1", .list (first :: _) => result first
    | _, _ => true

/-! ## The node -/

/-- An answer of a node: an object with an error, or with a text or nothing for a result. -/
def node : Shape := fun value =>
  object value && (!(value.memberOrNull "error").isVoid ||
    orVoid text (value.memberOrNull "result"))

end Shape

/-! ## Parts that are in shape -/

theorem Shape.exists_text {value : Json} (h : Shape.text value = true) : ∃ s, value = .text s := by
  cases value with
  | text s => exact ⟨s, rfl⟩
  | _ => cases h

theorem Shape.exists_objects {value : Json} (h : Shape.objects value = true) :
    ∃ items, value = .list items ∧ ∀ item ∈ items, Shape.object item = true := by
  cases value with
  | list items => exact ⟨items, rfl, List.all_eq_true.mp h⟩
  | _ => cases h

theorem member_of_object {value : Json} (h : Shape.object value = true) (name : String) :
    member value name = .ok (value.memberOrNull name) := by
  cases value with
  | object members => rfl
  | _ => cases h

theorem member_bind_of_object {α : Type} {value : Json} (h : Shape.object value = true)
    (name : String) (read : Json → Except Failure α) :
    (do read (← member value name)) = read (value.memberOrNull name) := by
  rw [member_of_object h]
  rfl

theorem memberOr_of_object {value : Json} (h : Shape.object value = true) (name : String)
    (absent : Json) : memberOr value name absent = .ok ((value.member? name).getD absent) := by
  cases value with
  | object members => rfl
  | _ => cases h

/-- What stands for a value that counts as nothing has to be in shape as well. -/
theorem shape_orElse {shape : Shape} {value absent : Json} (h : Shape.orVoid shape value = true)
    (habsent : shape absent = true) : shape (orElse value absent) = true := by
  rw [Shape.orVoid, Bool.or_eq_true] at h
  rw [orElse, Json.filled?]
  split
  · exact habsent
  · exact h.resolve_left ‹_›

/-- Members that can each be read can be read together. -/
theorem exists_mapM_eq_ok {α β : Type} {read : α → Except Failure β} {members : List α}
    (h : ∀ member ∈ members, ∃ b, read member = .ok b) :
    ∃ found, members.mapM read = .ok found := by
  induction members with
  | nil => exact ⟨[], rfl⟩
  | cons member members ih =>
    obtain ⟨b, hb⟩ := h member List.mem_cons_self
    obtain ⟨found, hfound⟩ := ih fun other hother => h other (List.mem_cons_of_mem _ hother)
    refine ⟨b :: found, ?_⟩
    rw [List.mapM_cons, hb, hfound]
    rfl

theorem exists_fileOf (path : String) {content : Json} (h : Shape.text content = true) :
    ∃ file, StandardJson.fileOf path content = .ok file := by
  obtain ⟨s, rfl⟩ := Shape.exists_text h
  exact ⟨_, rfl⟩

/-- Texts and a list of objects make the verified source of a contract. -/
theorem exists_verifiedInput (address : String) (chainId : Int) {name version abi : Json}
    (files : List SourceFile) (hname : Shape.text name = true)
    (hversion : Shape.text version = true) (habi : Shape.objects abi = true) :
    ∃ input, verifiedInput address chainId name version files abi = .ok input ∧
      input.files = files := by
  obtain ⟨name, rfl⟩ := Shape.exists_text hname
  obtain ⟨version, rfl⟩ := Shape.exists_text hversion
  obtain ⟨items, rfl, hitems⟩ := Shape.exists_objects habi
  have haccepted : Schema.list Schema.object (.list items) = .accepted items := by
    have hmap : Schema.list Schema.object (.list (items.map id)) = .accepted items := by
      refine Schema.list_accepted fun item hitem => ?_
      have hobject := hitems item hitem
      cases item with
      | object members => rfl
      | _ => cases hobject
    rwa [List.map_id] at hmap
  refine ⟨⟨address, chainId, name, version, files, items⟩, ?_, rfl⟩
  rw [verifiedInput, haccepted]
  rfl

/-! ## Published sources -/

theorem publishedFiles_of_isVoid {value : Json} (h : value.isVoid = true) :
    publishedFiles value = .ok [] := by
  rw [publishedFiles, orElse, Json.filled?, if_pos h]
  rfl

theorem exists_publishedFiles {value : Json} (h : Shape.sources value = true) :
    ∃ files, publishedFiles value = .ok files := by
  have hsources : Shape.sources (orElse value (.object [])) = true :=
    shape_orElse (by rw [Shape.orVoid, h, Bool.or_true]) rfl
  rw [publishedFiles]
  cases hmembers : orElse value (.object []) with
  | object members =>
    rw [hmembers] at hsources
    refine exists_mapM_eq_ok fun member hmember => ?_
    have hcontent := List.all_eq_true.mp hsources member hmember
    exact exists_fileOf member.1 (shape_orElse hcontent rfl)
  | _ =>
    rw [hmembers] at hsources
    cases hsources

theorem exists_publishedInput (address : String) (chainId : Int) {value : Json}
    (files : List SourceFile) (hobject : Shape.object value = true)
    (hcompilation : Shape.orVoid Shape.compilation (value.memberOrNull "compilation") = true)
    (habi : Shape.orVoid Shape.objects (value.memberOrNull "abi") = true) :
    ∃ input, publishedInput address chainId value files = .ok input ∧ input.files = files := by
  have hfacts : Shape.compilation (orElse (value.memberOrNull "compilation") (.object [])) = true :=
    shape_orElse hcompilation rfl
  simp only [Shape.compilation, Bool.and_eq_true] at hfacts
  obtain ⟨⟨hfacts, hname⟩, hversion⟩ := hfacts
  simp only [publishedInput, member_of_object hobject, member_of_object hfacts, bind, Except.bind]
  exact exists_verifiedInput address chainId files (shape_orElse hname rfl)
    (shape_orElse hversion rfl) (shape_orElse habi rfl)

/-! ## The explorer -/

theorem exists_contentOf {value : Json} (h : Shape.source value = true) :
    ∃ content, StandardJson.contentOf value = .ok content ∧ Shape.text content = true := by
  cases value with
  | object members => exact ⟨_, rfl, h⟩
  | _ =>
    refine ⟨.text "", ?_, rfl⟩
    rw [StandardJson.contentOf.eq_def]
    exact if_pos h

/-- A text with sources in shape, or without JSON, is taken apart. -/
theorem exists_parse? [Platform] {s : String}
    (h : Shape.within Shape.standardJson (String.ofList (StandardJson.unwrap
      (Text.trim s.toList))) = true) : ∃ found, StandardJson.parse? s = .ok found := by
  rw [Shape.within] at h
  unfold StandardJson.parse?
  cases hread : Json.read (String.ofList (StandardJson.unwrap (Text.trim s.toList))) with
  | error reason =>
    rw [hread] at h
    cases reason with
    | malformed complaint line column index => exact ⟨none, rfl⟩
    | _ => cases h
  | ok value =>
    rw [hread] at h
    dsimp only at h ⊢
    rw [Shape.standardJson] at h
    cases hsources : value.member? "sources" with
    | none => exact ⟨none, rfl⟩
    | some sources =>
      rw [hsources] at h
      cases sources with
      | object sources =>
        obtain ⟨files, hfiles⟩ : ∃ files, StandardJson.filesOf sources = .ok files := by
          refine exists_mapM_eq_ok fun member hmember => ?_
          obtain ⟨content, hcontent, htext⟩ :=
            exists_contentOf (List.all_eq_true.mp h member hmember)
          obtain ⟨file, hfile⟩ := exists_fileOf member.1 htext
          exact ⟨file, by simp only [hcontent, bind, Except.bind, hfile]⟩
        refine ⟨some files, ?_⟩
        dsimp only
        rw [hfiles]
        rfl
      | _ => exact ⟨none, rfl⟩

/-- A source text in shape gives at least one file. -/
theorem exists_explorerFiles [Platform] (name : Json) {s : String} (h : Shape.sourceText s = true) :
    ∃ files unparsed, explorerFiles name s = .ok (files, unparsed) ∧ files ≠ [] := by
  have hne : ∀ single : SourceFile, ∀ files : List SourceFile,
      (if files.isEmpty then [single] else files) ≠ [] := by
    intro single files
    split
    · exact List.cons_ne_nil _ _
    · rename_i hfiles
      simpa using hfiles
  simp only [explorerFiles, bind, Except.bind]
  split
  · rename_i hstarts
    rw [Shape.sourceText, bne, hstarts, Bool.not_true, Bool.false_or] at h
    obtain ⟨parsed, hparsed⟩ := exists_parse? h
    rw [hparsed]
    exact ⟨_, _, rfl, hne _ _⟩
  · exact ⟨_, _, rfl, hne _ _⟩

/-- The text of an empty list describes nothing. -/
theorem described_emptyList [Platform] : Shape.described (.text "[]") = true := by
  have hplain : Json.Plain True Platform.levels (.list []) :=
    (Json.Plain.list nofun : Json.Plain True 1 (.list [])).mono
      (Nat.le_trans (by decide) Platform.roomy)
  have hread : Json.read "[]" = .ok (.list []) :=
    Json.read_write_of_plain Json.Layout.gapped_compact hplain trivial
  rw [Shape.described, Shape.within, hread]
  rfl

theorem exists_explorerAbi [Platform] {value : Json}
    (h : Shape.orVoid Shape.described value = true) :
    ∃ abi, explorerAbi value = .ok abi ∧ Shape.objects abi = true := by
  have hdescribed : Shape.described (orElse value (.text "[]")) = true :=
    shape_orElse h described_emptyList
  rw [explorerAbi]
  cases hvalue : orElse value (.text "[]") with
  | text s =>
    rw [hvalue, Shape.described, Shape.within] at hdescribed
    dsimp only
    cases hread : Json.read s with
    | error reason =>
      rw [hread] at hdescribed
      cases reason with
      | malformed complaint line column index => exact ⟨.list [], rfl, rfl⟩
      | _ => cases hdescribed
    | ok found =>
      rw [hread] at hdescribed
      cases found with
      | list items => exact ⟨.list items, rfl, hdescribed⟩
      | _ => exact ⟨.list [], rfl, rfl⟩
  | _ =>
    rw [hvalue] at hdescribed
    cases hdescribed

theorem exists_explorerResult? [Platform] {value : Json} (h : Shape.explored value = true) :
    ∃ found, explorerResult? value = .ok found ∧ ∀ first ∈ found, Shape.result first = true := by
  rw [Shape.explored, Bool.and_eq_true] at h
  obtain ⟨hobject, hfirst⟩ := h
  simp only [explorerResult?, member_of_object hobject, bind, Except.bind]
  split
  · rename_i first rest hstatus hresults
    rw [hstatus, hresults] at hfirst
    exact ⟨some first, rfl, fun other hother => Option.mem_some.mp hother ▸ hfirst⟩
  · exact ⟨none, rfl, fun other hother => absurd hother (Option.not_mem_none _)⟩

end ContractLens.Fetch
