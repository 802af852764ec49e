import ContractLens.Proofs.Analysis.Analysed
import ContractLens.Proofs.Cli.Request
import ContractLens.Proofs.Files.Written
import ContractLens.Proofs.Json.Ascii
import ContractLens.Proofs.Upgradeable.Verdict
/-!
# Records that are printed

The program writes a record as JSON on the output, or to the file that a request names. Either text
is recovered as the record, through the same value as the text that the cache keeps
(`recovered_results`): the layouts differ, and so does what they escape, but a reader of JSON passes
over the one and undoes the other.
-/

namespace ContractLens

section Recovered

variable [Platform]

/-- A text from which a record is recovered: it is read as the value that the record's stored text
is read as, and the reader of records accepts that value as the record, whatever the time. -/
def AnalysisRecord.RecoveredFrom (record : AnalysisRecord) (text : String) : Prop :=
  ∃ value, Json.read text = .ok value ∧ Json.read record.encode = .ok value ∧
    ∀ now, AnalysisRecord.read now value = .accepted record

namespace AnalysisRecord

variable {record : AnalysisRecord}

theorem plain_wire (h : record.WellFormed) :
    Json.Plain True Platform.levels (record.toJson .wire) :=
  (plain_toJson fun _ => h).mono (Nat.le_trans (by decide) Platform.roomy)

/-- A text that is read as a well-formed record is one from which the record is recovered. -/
theorem recoveredFrom_of_read (h : record.WellFormed) {text : String}
    (htext : Json.read text = .ok (record.toJson .wire)) : record.RecoveredFrom text :=
  ⟨record.toJson .wire, htext,
    Json.read_write_of_plain Json.Layout.gapped_compact (plain_wire h) trivial,
    fun now => read_toJson now h⟩

end AnalysisRecord

end Recovered

/-- The record that an office makes of an input at a desk. -/
def Office.recordOf (office : Office) (desk : Desk) (input : AnalysisInput) : AnalysisRecord :=
  office.bench.recordOf (office.fresh desk.given) desk.trace input

namespace Cli

open Session

section Delivered

variable [Platform]

/-! ## Parts of a run -/

omit [Platform] in
theorem run_say (ls : List String) (station : Station) :
    (say ls).run station = (.ok (), { station with err := station.err ++ lines ls }) := rfl

omit [Platform] in
theorem run_print (ls : List String) (station : Station) :
    (print ls).run station = (.ok (), { station with out := station.out ++ lines ls }) := rfl

omit [Platform] in
theorem run_files {α : Type} (use : Tree → Except FileFault α) {station : Station} {value : α}
    (h : use station.tree = .ok value) : (files use).run station = (.ok value, station) := by
  have hget : (get : Session Station).run station = (.ok station, station) := rfl
  rw [files, run_bind_of_ok hget, h]
  rfl

omit [Platform] in
theorem eq_ok_of_toOption {ε α : Type} {result : Except ε α} {value : α}
    (h : result.toOption = some value) : result = .ok value := by
  cases result with
  | ok other =>
    cases h
    rfl
  | error _ => cases h

omit [Platform] in
/-- The record of an input is made at the desk of the station. -/
theorem run_service (office : Office) (input : AnalysisInput) (station : Station) :
    ∃ desk, (some <$> service (office.analyze none input)).run station =
      (.ok (some (office.recordOf station.desk input)), { station with desk := desk }) :=
  ⟨_, run_map_of_ok rfl some⟩

omit [Platform] in
theorem run_mention (quiet : Bool) (line : String) (station : Station) :
    ∃ err, (mention quiet line).run station = (.ok (), { station with err := err }) := by
  cases quiet with
  | true => exact ⟨station.err, rfl⟩
  | false => exact ⟨_, run_say [line] station⟩

/-! ## The analysis of an input -/

omit [Platform] in
theorem run_analyzePaths (office : Office) (quiet : Bool) {request : AnalyzeRequest}
    {station : Station} {files : List SourceFile}
    (h : Source.collect station.tree request.paths = .ok files) (hne : files.isEmpty = false) :
    ∃ err desk, (analyzePaths office quiet request).run station =
      (.ok (some (office.recordOf station.desk (sourceInput request.chainId files))),
        { station with err := err, desk := desk }) := by
  rw [analyzePaths, run_bind_of_ok (run_files (Source.collect · request.paths) h)]
  simp only [hne, Bool.false_eq_true, if_false]
  obtain ⟨err, hmention⟩ := run_mention quiet
    ("  Analyzing " ++ paint [.cyan] (count files) ++ " Solidity files...") station
  rw [run_bind_of_ok hmention]
  obtain ⟨desk, hservice⟩ := run_service office (sourceInput request.chainId files)
    { station with err := err }
  exact ⟨err, desk, hservice⟩

/-- **A request that names an input has it analysed.** -/
theorem run_analyzeRequest (office : Office) (quiet : Bool) {request : AnalyzeRequest}
    {station : Station} {input : AnalysisInput} (h : request.input? station.tree = some input) :
    ∃ err desk, (analyzeRequest office quiet request).run station =
      (.ok (some (office.recordOf station.desk input)),
        { station with err := err, desk := desk }) := by
  unfold AnalyzeRequest.input? at h
  unfold analyzeRequest
  generalize filled? request.address = address, filled? request.bytecode = code,
    filled? request.bytecodeFile = path at h ⊢
  match address, code, path, h with
  | none, some code, _, h =>
    cases h
    obtain ⟨desk, hservice⟩ := run_service office (codeInput request.chainId code) station
    exact ⟨station.err, desk, hservice⟩
  | none, none, some path, h =>
    obtain ⟨code, hcode, rfl⟩ := Option.map_eq_some_iff.mp h
    obtain ⟨desk, hservice⟩ := run_service office (codeInput request.chainId code) station
    have hfile := run_files (·.text? (.ofText path)) (eq_ok_of_toOption hcode)
    exact ⟨station.err, desk, (run_bind_of_ok hfile).trans hservice⟩
  | none, none, none, h =>
    obtain ⟨files, hfiles, rfl⟩ := Option.map_eq_some_iff.mp h
    obtain ⟨hcollect, hne⟩ := Option.filter_eq_some_iff.mp hfiles
    exact run_analyzePaths office quiet (eq_ok_of_toOption hcollect) (by simpa using hne)

/-! ## Results -/

omit [Platform] in
theorem lines_singleton (s : String) : lines [s] = s ++ "\n" := by
  simp [lines, String.join]

/-- What a run leaves for a request as its result: the end of the output, or the text of the file
that the request names. -/
def AnalyzeRequest.Leaves (request : AnalyzeRequest) (before after : Station) (text : String) :
    Prop :=
  match filled? request.output with
  | none => after.out = before.out ++ text
  | some output => after.tree.text? (.ofText output) = .ok text

/-- A part of a run ends with a value, and leaves for a request a text from which a record is
recovered. -/
def AnalyzeRequest.Delivers {α : Type} (request : AnalyzeRequest) (part : Session α) (value : α)
    (station : Station) (record : AnalysisRecord) : Prop :=
  ∃ after text, part.run station = (.ok value, after) ∧ request.Leaves station after text ∧
    record.RecoveredFrom text

/-- The file that a request names for its result can be written. -/
def AnalyzeRequest.Writable (request : AnalyzeRequest) (tree : Tree) : Prop :=
  ∀ output ∈ filled? request.output, tree.Writable (.ofText output)

/-- **A well-formed record is recovered from what is left of it.** -/
theorem run_emit (quiet : Bool) {request : AnalyzeRequest} {record : AnalysisRecord}
    (station : Station) (hformat : request.format = .json)
    (hwritable : request.Writable station.tree) (h : record.WellFormed) :
    request.Delivers (emit quiet request record) () station record := by
  have hplain := AnalysisRecord.plain_wire h
  unfold AnalyzeRequest.Delivers emit AnalyzeRequest.Leaves
  rw [hformat]
  cases houtput : filled? request.output with
  | none =>
    have hread : Json.read (lines [recordText record]) = .ok (record.toJson .wire) := by
      rw [lines_singleton, recordText]
      exact Json.read_line_of_plain Json.Layout.gapped_indented hplain trivial
    exact ⟨_, _, run_print [recordText record] station, rfl,
      AnalysisRecord.recoveredFrom_of_read h hread⟩
  | some output =>
    have hsafe : Utf8.Safe (recordText record).toList :=
      Json.safe_write Json.Layout.inAscii_indented hplain.exact
    obtain ⟨tree, hwrite, htext⟩ := Tree.text?_of_write (hwritable output houtput) hsafe
    have hread : Json.read (recordText record) = .ok (record.toJson .wire) :=
      Json.read_write_of_plain Json.Layout.gapped_indented hplain trivial
    have hrecovered := AnalysisRecord.recoveredFrom_of_read h hread
    obtain ⟨out, hsaid⟩ : ∃ out, (if !quiet then
        print ["  Written to " ++ paint [.cyan] output] else pure () : Session Unit).run
          { station with tree := tree } = (.ok (), { station with tree := tree, out := out }) := by
      cases quiet with
      | true => exact ⟨station.out, rfl⟩
      | false => exact ⟨_, run_print ["  Written to " ++ paint [.cyan] output] _⟩
    refine ⟨{ station with tree := tree, out := out }, recordText record, ?_, htext, hrecovered⟩
    rw [run_bind_of_ok (run_files (fun tree =>
      tree.write (.ofText output) (recordText record).toUTF8.toList) hwrite)]
    exact hsaid

/-! ## Whole runs -/

/-- A machine has settings that a run can start with. -/
def Machine.Starts (machine : Machine) (quiet : Bool) (settings : Settings) : Prop :=
  Settings.load machine.environment [] = .ok settings ∧
    ∃ setup, Log.Setup.of settings.stage.word (if quiet then "WARNING" else settings.logLevel) =
      .ok setup

theorem run_loadSettings {machine : Machine} {quiet : Bool} {settings : Settings}
    (h : machine.Starts quiet settings) (station : Station) :
    (loadSettings machine quiet).run station = (.ok settings, station) := by
  obtain ⟨hload, setup, hsetup⟩ := h
  rw [loadSettings, hload]
  dsimp only
  rw [hsetup]
  rfl

/-- A command line that asks, in one way, for the analysis of an input, and for the record as
JSON. -/
structure Asked (machine : Machine) (station : Station) (words : List String) (manner : Manner)
    (request : AnalyzeRequest) (settings : Settings) (input : AnalysisInput) : Prop where
  /-- The words are read as the request. -/
  read : Invocation.read words = .run manner (some (.analyze request))
  /-- The version is not what is asked for. -/
  version : manner.version = false
  /-- The environment gives settings. -/
  starts : machine.Starts manner.quiet settings
  /-- The request names one thing. -/
  modes : request.modes = 1
  /-- That is the input. -/
  input : request.input? station.tree = some input
  /-- The result is to be JSON. -/
  format : request.format = .json
  /-- There is a place for it. -/
  writable : request.Writable station.tree

theorem run_runAnalyze (office : Office) (quiet : Bool) {request : AnalyzeRequest}
    (station : Station) {input : AnalysisInput} (hmodes : request.modes = 1)
    (hinput : request.input? station.tree = some input) (hformat : request.format = .json)
    (hwritable : request.Writable station.tree)
    (h : (office.recordOf station.desk input).WellFormed) :
    request.Delivers (runAnalyze office quiet request) 0 station
      (office.recordOf station.desk input) := by
  obtain ⟨err, desk, hrecord⟩ := run_analyzeRequest office quiet hinput
  obtain ⟨after, text, hemit, hleaves, hrecovered⟩ :=
    run_emit quiet { station with err := err, desk := desk } hformat hwritable h
  refine ⟨after, text, ?_, hleaves, hrecovered⟩
  rw [runAnalyze]
  simp only [hmodes, bne_self_eq_false, Bool.false_eq_true, if_false]
  have hfound := run_map_of_ok hrecord (Except.ok : _ → Except String (Option AnalysisRecord))
  rw [run_bind, run_tryCatch, hfound]
  exact run_bind_of_ok hemit

/-- A command is done with the settings of the environment, once the banner was shown or left
out. -/
theorem run_runCommand {machine : Machine} {manner : Manner} {request : AnalyzeRequest}
    {settings : Settings} (hversion : manner.version = false)
    (hstarts : machine.Starts manner.quiet settings) (station : Station) :
    ∃ err, (runCommand machine manner (some (.analyze request))).run station =
      (runAnalyze (machine.office settings) manner.quiet request).run
        { station with err := err } := by
  rw [runCommand]
  simp only [hversion, Bool.false_eq_true, if_false]
  rw [run_bind_of_ok (run_loadSettings hstarts station)]
  split
  · exact ⟨_, run_bind_of_ok (run_say banner station)⟩
  · exact ⟨station.err, rfl⟩

/-- **What is left of a record is what was analysed.** The record of every input is recovered from
what the program leaves of it; and a command line that asks for the analysis of an input ends well,
and leaves a text from which the record of that input is recovered.

Counts have to fit the digits that a reader of JSON takes. Those of an input do if it is small,
which allows for more characters than a machine can address; the number of a chain does if a command
line can ask for it. -/
theorem recovered_results :
    (∀ (bench : Workbench) (id : String) (trace : Trace) (input : AnalysisInput) (quiet : Bool)
        (request : AnalyzeRequest) (station : Station),
      Json.Short (Fetch.inputChain input) → Fetch.Small input → request.format = .json →
        request.Writable station.tree →
          request.Delivers (emit quiet request (bench.recordOf id trace input)) () station
            (bench.recordOf id trace input)) ∧
    ∀ (machine : Machine) (station : Station) (words : List String) (manner : Manner)
        (request : AnalyzeRequest) (settings : Settings) (input : AnalysisInput),
      Asked machine station words manner request settings input → Fetch.Small input →
        request.Delivers (run machine words) (.finished 0) station
          ((machine.office settings).recordOf station.desk input) := by
  refine ⟨fun bench id trace input quiet request station hchain hsmall hformat hwritable =>
    run_emit quiet station hformat hwritable (bench.wellFormed_analyze id hchain hsmall trace), ?_⟩
  intro machine station words manner request settings input hasked hsmall
  have hchain : Json.Short (Fetch.inputChain input) := by
    rw [AnalyzeRequest.inputChain_of_input? hasked.input]
    exact short_of_read hasked.read
  obtain ⟨err, hcommand⟩ := run_runCommand hasked.version hasked.starts station
  obtain ⟨after, text, hrun, hleaves, hrecovered⟩ :=
    run_runAnalyze (machine.office settings) manner.quiet { station with err := err }
      hasked.modes hasked.input hasked.format hasked.writable
      ((machine.office settings).bench.wellFormed_analyze _ hchain hsmall _)
  refine ⟨after, text, ?_, hleaves, hrecovered⟩
  rw [run, hasked.read]
  exact run_map_of_ok (hcommand.trans hrun) Ending.finished

end Delivered

/-- A machine without a network, a cache or an environment. -/
def bareMachine : Machine :=
  ⟨Workbench.offline.net, .calm, .epoch, fun _ => "scope", []⟩

/-- A station with one source file. -/
def sourceStation : Station :=
  { tree := { files :=
      [(.ofText "A.sol", "contract A \x7b\x7d".toList.map fun c => c.toNat.toUInt8)] } }

/-- The words that ask for the record of that file in another one. -/
def sourceWords : List String := ["analyze", "A.sol", "-f", "json", "-o", "a.json"]

/-- What they ask for. -/
def sourceRequest : AnalyzeRequest :=
  { paths := ["A.sol"], format := .json, output := some "a.json" }

/-- The file as an input. -/
def sourceFileInput : AnalysisInput := sourceInput 1 [⟨"A.sol", "contract A \x7b\x7d"⟩]

theorem asked_sourceWords : Asked bareMachine sourceStation sourceWords {} sourceRequest
    Settings.usual sourceFileInput where
  read := rfl
  version := rfl
  starts := ⟨Settings.load_nil, _, rfl⟩
  modes := by decide
  input := rfl
  format := rfl
  writable output houtput := by
    cases houtput
    exact ⟨by decide, .ofText "a.json", rfl, by decide⟩

/-- The record of a single instruction is recovered from a line of the output, and the record of a
source file from the file that the words name. -/
theorem recovered_results_source :
    (∃ after text, (emit false { format := .json }
        (Workbench.offline.recordOf "id" {} (codeInput 1 "0x00"))).run {} = (.ok (), after) ∧
      after.out = text ∧
      (Workbench.offline.recordOf "id" {} (codeInput 1 "0x00")).RecoveredFrom text) ∧
    ∃ after text, (run bareMachine sourceWords).run sourceStation = (.ok (.finished 0), after) ∧
      after.tree.text? (.ofText "a.json") = .ok text ∧
      ((bareMachine.office Settings.usual).recordOf {} sourceFileInput).RecoveredFrom text := by
  refine ⟨?_, ?_⟩
  · obtain ⟨after, text, hemit, hleaves, hrecovered⟩ :=
      recovered_results.1 Workbench.offline "id" {} (codeInput 1 "0x00") false { format := .json }
        {} (by decide) (by decide : "0x00".length < 10 ^ 40) rfl nofun
    exact ⟨after, text, hemit, hleaves.trans String.empty_append, hrecovered⟩
  · exact recovered_results.2 bareMachine sourceStation sourceWords {} sourceRequest Settings.usual
      sourceFileInput asked_sourceWords
      (by decide : SourceFile.weight [⟨"A.sol", "contract A \x7b\x7d"⟩] < 10 ^ 40)

end Cli

end ContractLens
