import ContractLens.Proofs.Analysis.Desk
import ContractLens.Proofs.Schema.Accepted
import ContractLens.Proofs.Settings
/-!
# Inputs given as values

An input may be given as the value it is written as, with the members under either of their names:
the reader takes that value for the same input (`AnalysisInput.read_toJson`). So an analysis of the
value is an analysis of the input, and two of them make records that differ in nothing but their
name and their time (`alike_analyzeValue`), as long as the network answers both alike. What the
network answers may hang on all earlier requests; it is enough that from here on it does not tell
the one run from the other (`InStep`).
-/

namespace ContractLens

open Schema

/-! ## Reading inputs -/

theorem SourceFile.read_toJson (naming : Naming) (file : SourceFile) :
    SourceFile.read (file.toJson naming) = .accepted file := by
  simp only [SourceFile.read, SourceFile.toJson, record]
  cases naming <;>
    rw [required_accepted (a := file.path) rfl rfl,
      defaulted_accepted (a := file.content) rfl rfl] <;>
    rfl

/-- The descriptions of functions and events are objects. -/
def VerifiedInput.Described (input : VerifiedInput) : Prop :=
  ∀ entry ∈ input.abi, ∃ members, entry = .object members

theorem VerifiedInput.read_toJson (naming : Naming) {input : VerifiedInput} (h : input.Described) :
    VerifiedInput.read (input.toJson naming) = .accepted input := by
  have hfiles : list SourceFile.read (.list (input.files.map (SourceFile.toJson naming))) =
      .accepted input.files := list_accepted fun file _ => file.read_toJson naming
  have habi : list object (.list input.abi) = .accepted input.abi := items_object_accepted h 0
  simp only [VerifiedInput.read, VerifiedInput.toJson, record]
  cases naming <;>
    rw [defaulted_of_find? (a := ()) rfl rfl, defaulted_of_find? (a := input.address) rfl rfl,
      defaulted_of_find? (a := input.chainId) rfl rfl,
      defaulted_of_find? (a := input.contractName) rfl rfl,
      defaulted_of_find? (a := input.compilerVersion) rfl rfl, defaulted_of_find? rfl hfiles,
      defaulted_of_find? rfl habi] <;>
    rfl

theorem BytecodeInput.read_toJson (naming : Naming) (input : BytecodeInput) :
    BytecodeInput.read (input.toJson naming) = .accepted input := by
  simp only [BytecodeInput.read, BytecodeInput.toJson, record]
  cases naming <;>
    rw [defaulted_of_find? (a := ()) rfl rfl, defaulted_of_find? (a := input.address) rfl rfl,
      defaulted_of_find? (a := input.chainId) rfl rfl,
      defaulted_of_find? (a := input.bytecodeHex) rfl rfl] <;>
    rfl

/-- In verified source the descriptions of functions and events are objects. -/
def AnalysisInput.Described : AnalysisInput → Prop
  | verified input => input.Described
  | bytecode _ => True

/-- **An input is read back from the value it is written as**, under either naming. -/
theorem AnalysisInput.read_toJson (naming : Naming) {input : AnalysisInput} (h : input.Described) :
    AnalysisInput.read (input.toJson naming) = .accepted input := by
  cases input with
  | verified input =>
    have hkind : AnalysisInput.read (input.toJson naming) = .under (.name VerifiedInput.kind)
        (.map verified (VerifiedInput.read (input.toJson naming))) := by
      cases naming <;> rfl
    rw [toJson, hkind, VerifiedInput.read_toJson naming h, Checked.map_accepted,
      Checked.under_accepted]
  | bytecode input =>
    have hkind : AnalysisInput.read (input.toJson naming) = .under (.name BytecodeInput.kind)
        (.map bytecode (BytecodeInput.read (input.toJson naming))) := by
      cases naming <;> rfl
    rw [toJson, hkind, BytecodeInput.read_toJson naming, Checked.map_accepted,
      Checked.under_accepted]

/-! ## Runs in step -/

section InStep

variable {α β : Type} {earlier before : List Http.Request} {net twin : Http.Network}

/-- Two traces whose requests are the same since two points. -/
def SameSince (earlier before : List Http.Request) (trace other : Trace) : Prop :=
  ∃ more, trace.requests = earlier ++ more ∧ other.requests = before ++ more

/-- From two points on, two networks answer alike. -/
def AnswerAlike (net twin : Http.Network) (earlier before : List Http.Request) : Prop :=
  ∀ more request, twin (before ++ more) request = net (earlier ++ more) request

/-- Two computations that give the same result and make the same requests, each from its own
point on. -/
def InStep (earlier before : List Http.Request) (m other : Traced α) : Prop :=
  ∀ trace start, SameSince earlier before trace start →
    (other.run start).1 = (m.run trace).1 ∧
      SameSince earlier before (m.run trace).2 (other.run start).2

theorem inStep_pure (a : α) : InStep earlier before (pure a) (pure a) :=
  fun _ _ hsame => ⟨rfl, hsame⟩

theorem inStep_noteAll (entries : List Log.Entry) :
    InStep earlier before (Traced.noteAll entries) (Traced.noteAll entries) :=
  fun _ _ hsame => ⟨rfl, hsame⟩

theorem inStep_note (entry : Log.Entry) :
    InStep earlier before (Traced.note entry) (Traced.note entry) :=
  fun _ _ hsame => ⟨rfl, hsame⟩

theorem InStep.bind {m other : Traced α} {f g : α → Traced β} (hm : InStep earlier before m other)
    (hf : ∀ a, InStep earlier before (f a) (g a)) :
    InStep earlier before (m >>= f) (other >>= g) := by
  intro trace start hsame
  obtain ⟨hresult, hafter⟩ := hm trace start hsame
  have hrun : (m >>= f).run trace = (f (m.run trace).1).run (m.run trace).2 := rfl
  have hother : (other >>= g).run start = (g (other.run start).1).run (other.run start).2 := rfl
  rw [hrun, hother, hresult]
  exact hf _ _ _ hafter

/-- **A request is answered alike.** -/
theorem inStep_send (h : AnswerAlike net twin earlier before) (request : Http.Request) :
    InStep earlier before (Traced.send net request) (Traced.send twin request) := by
  rintro trace start ⟨more, htrace, hstart⟩
  have hanswer : twin start.requests request = net trace.requests request := by
    rw [htrace, hstart, h]
  refine ⟨hanswer, more ++ [request], ?_, ?_⟩
  · rw [← List.append_assoc, ← htrace]
    rfl
  · rw [← List.append_assoc, ← hstart]
    rfl

theorem inStep_sendTo (h : AnswerAlike net twin earlier before) (method : Http.Method)
    (address : String) (parameters : List (String × String)) (body : Option Json) :
    InStep earlier before (Traced.sendTo net method address parameters body)
      (Traced.sendTo twin method address parameters body) := by
  rw [Traced.sendTo, Traced.sendTo]
  cases Http.Url.read address with
  | error fault => exact inStep_pure _
  | ok url => exact (inStep_send h _).bind fun answer => inStep_pure _

theorem inStep_fetchRemote (h : AnswerAlike net twin earlier before) (base path : String) :
    InStep earlier before (Library.fetchRemote net base path)
      (Library.fetchRemote twin base path) := by
  refine (inStep_sendTo h _ _ _ _).bind fun answer => ?_
  cases answer with
  | error fault => exact inStep_pure _
  | ok answer =>
    dsimp only
    split
    · exact inStep_pure _
    · split
      · exact inStep_pure _
      · exact (inStep_note _).bind fun _ => inStep_pure _

mutual

/-- **A library answers alike.** -/
theorem inStep_lookup (h : AnswerAlike net twin earlier before) (path : String) :
    (library : Library) →
      InStep earlier before (library.lookup net path) (library.lookup twin path)
  | .table _ => inStep_pure _
  | .remote base => inStep_fetchRemote h base path
  | .chain libraries => inStep_lookupFirst h path libraries
  | .failing _ => inStep_pure _
  | .silent => inStep_pure _

/-- So do libraries in turn. -/
theorem inStep_lookupFirst (h : AnswerAlike net twin earlier before) (path : String) :
    (libraries : List Library) →
      InStep earlier before (Library.lookupFirst net path libraries)
        (Library.lookupFirst twin path libraries)
  | [] => inStep_pure _
  | library :: rest => by
    rw [Library.lookupFirst, Library.lookupFirst]
    refine (inStep_lookup h path library).bind fun outcome => ?_
    cases outcome with
    | absent => exact inStep_lookupFirst h path rest
    | _ => exact inStep_pure _

end

theorem inStep_lookAll (h : AnswerAlike net twin earlier before) (library : Library)
    (reports : Bool) (paths : List String) :
    InStep earlier before (Import.lookAll net library reports paths)
      (Import.lookAll twin library reports paths) := by
  induction paths with
  | nil => exact inStep_pure _
  | cons path paths ih =>
    refine (inStep_lookup h path library).bind fun outcome => ?_
    dsimp only
    split
    · exact (inStep_noteAll _).bind fun _ => ih.bind fun _ => inStep_pure _
    · exact ih.bind fun _ => inStep_pure _

theorem inStep_resolveWith (h : AnswerAlike net twin earlier before) (library : Library)
    (patience : Import.Patience) (files : List SourceFile) :
    InStep earlier before (Import.resolveWith net library patience files)
      (Import.resolveWith twin library patience files) := by
  have hlookups : ∀ paths, InStep earlier before (Import.lookups net library patience paths)
      (Import.lookups twin library patience paths) := by
    intro paths
    cases patience with
    | limited =>
      exact (inStep_lookAll h library false paths).bind fun _ =>
        (inStep_noteAll _).bind fun _ => inStep_pure _
    | none => exact (inStep_noteAll _).bind fun _ => inStep_pure _
  exact (hlookups _).bind fun _ => (inStep_note _).bind fun _ => inStep_pure _

end InStep

/-! ## Records of one input -/

/-- Two records that differ in nothing but their name and their time. -/
def AnalysisRecord.Alike (record other : AnalysisRecord) : Prop :=
  { other with analyzedAt := record.analyzedAt, analysisId := record.analysisId } = record

/-- Two benches with the same settings and libraries, whose networks answer alike after what was
requested so far. -/
structure Workbench.Alongside (bench twin : Workbench) (earlier before : List Http.Request) :
    Prop where
  /-- The settings are the same. -/
  settings : twin.settings = bench.settings
  /-- So are the places where imports are looked up. -/
  library : twin.library = bench.library
  /-- The networks answer alike. -/
  answers : AnswerAlike bench.net twin.net earlier before

/-- **One input makes records that are alike.** -/
theorem Workbench.alike_analyze {bench twin : Workbench} {trace start : Trace}
    (h : bench.Alongside twin trace.requests start.requests) (id other : String)
    (input : AnalysisInput) :
    ((bench.analyze id input).run trace).1.Alike ((twin.analyze other input).run start).1 := by
  cases input with
  | verified input =>
    have hsame : SameSince trace.requests start.requests
        { trace with entries := trace.entries ++ [(ParsedSources.ofFiles input.files).entry] }
        { start with entries := start.entries ++ [(ParsedSources.ofFiles input.files).entry] } :=
      ⟨[], (List.append_nil _).symm, (List.append_nil _).symm⟩
    obtain ⟨himports, -⟩ := inStep_resolveWith h.answers
      (bench.library.getD (libraryOf bench.settings))
      (.ofSeconds bench.settings.importTimeoutSeconds) input.files _ _ hsame
    have hrecord (bench : Workbench) (id : String) (trace : Trace) :
        ((bench.analyze id (.verified input)).run trace).1 =
          bench.verifiedRecord id input (ParsedSources.ofFiles input.files)
            ((Import.resolveWith bench.net (bench.library.getD (libraryOf bench.settings))
              (.ofSeconds bench.settings.importTimeoutSeconds) input.files).run
                { trace with
                  entries := trace.entries ++ [(ParsedSources.ofFiles input.files).entry] }).1 :=
      rfl
    rw [hrecord, hrecord, h.settings, h.library, himports]
    rfl
  | bytecode input =>
    have hrecord (bench : Workbench) (id : String) (trace : Trace) :
        ((bench.analyze id (.bytecode input)).run trace).1 = bench.bytecodeRecord id input
          (BytecodeReport.ofText bench.settings.thresholds input.address input.bytecodeHex) :=
      rfl
    rw [hrecord, hrecord, h.settings]
    rfl

namespace Office

theorem run_analyze (office : Office) (around : Option String) (input : AnalysisInput)
    (desk : Desk) :
    ∃ name, ((office.analyze around input).run desk).1 =
      .ok ((office.bench.analyze name input).run desk.trace).1 := by
  cases around with
  | some name => exact ⟨name, rfl⟩
  | none => exact ⟨office.fresh desk.given, rfl⟩

/-- **An input given as a value is analysed like the input itself.** Under either naming the
analysis of the value returns a record, as that of the input does, and the two are alike. -/
theorem alike_analyzeValue {office twin : Office} {desk start : Desk}
    (h : office.bench.Alongside twin.bench desk.trace.requests start.trace.requests)
    {input : AnalysisInput} (hinput : input.Described) (naming : Naming)
    (around other : Option String) :
    ∃ record same, ((office.analyze around input).run desk).1 = .ok record ∧
      ((twin.analyzeValue other (input.toJson naming)).run start).1 = .ok same ∧
      record.Alike same := by
  obtain ⟨id, hrecord⟩ := office.run_analyze around input desk
  obtain ⟨name, hsame⟩ := twin.run_analyze other input start
  rw [analyzeValue, AnalysisInput.read_toJson naming hinput]
  exact ⟨_, _, hrecord, hsame, Workbench.alike_analyze h id name input⟩

/-- A network that answers the first request with a body and knows nothing else. -/
def onceNetwork : Http.Network := fun earlier _ =>
  if earlier.isEmpty then .ok ⟨200, [], "interface IPool \x7b\x7d"⟩ else .ok ⟨404, [], ""⟩

/-- The second day of 1970. -/
def secondDay : Timestamp := ⟨⟨1970, 1, 2, by decide⟩, .midnight, some .universal⟩

/-- Imports are looked up over that network. -/
def onceOffice (now : Timestamp) : Office :=
  ⟨⟨{ Settings.usual with importCdnEnabled := true }, onceNetwork, none, now⟩, none, .calm,
    fun given => intText given⟩

/-- Source with two imports from packages and a described event. -/
def describedInput : AnalysisInput :=
  .verified ⟨"0xaa", 10, "Vault", "0.8.20",
    [⟨"Vault.sol", "import '@aave/IPool.sol';\nimport '@aave/Pool.sol';\ncontract Vault \x7b\x7d"⟩],
    [.object [("type", .text "event"), ("inputs", .list [])]]⟩

/-- The same source is analysed a day later, given as a value with plain names, under the name of a
scope. -/
theorem alike_analyzeValue_describedInput :
    (onceOffice .epoch).bench.Alongside (onceOffice secondDay).bench [] [] ∧
      describedInput.Described ∧
      ∃ record same, (((onceOffice .epoch).analyze none describedInput).run {}).1 = .ok record ∧
        (((onceOffice secondDay).analyzeValue (some "scope") (describedInput.toJson .plain)).run
          {}).1 = .ok same ∧ record.Alike same := by
  have halong : (onceOffice .epoch).bench.Alongside (onceOffice secondDay).bench [] [] :=
    ⟨rfl, rfl, fun _ _ => rfl⟩
  have hinput : describedInput.Described := fun entry hentry =>
    ⟨_, List.mem_singleton.mp hentry⟩
  exact ⟨halong, hinput, alike_analyzeValue halong hinput .plain none (some "scope")⟩

end Office

end ContractLens
