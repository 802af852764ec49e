import ContractLens.Cli.Run
import ContractLens.Proofs.Fetch.Fetched
import ContractLens.Proofs.Number.WholeText
/-!
# What a request names

A request names the code or the files that are analysed (`AnalyzeRequest.input?`), for a chain. The
number of that chain is the usual one, or was read from a word of the command line, and so has no
more digits than JSON text may hold (`short_of_read`).
-/

namespace ContractLens.Cli

/-! ## The chain of a request -/

theorem short_of_wholeNumber? {s : String} {n : Int} (h : wholeNumber? s = some n) : Json.Short n :=
  (Nat.length_toDigits_le_iff (by decide) (by decide)).mpr (natAbs_wholeNumber? h)

/-- Whatever option is taken, the chain stays short. -/
theorem AnalyzeRequest.short_take {request next : AnalyzeRequest} {spec : OptionSpec AnalyzeOption}
    {value : String} (h : Json.Short request.chainId) (htake : request.take spec value = .ok next) :
    Json.Short next.chainId := by
  unfold take at htake
  split at htake
  case h_5 =>
    split at htake
    · cases htake
      exact short_of_wholeNumber? ‹_›
    · cases htake
  case h_6 =>
    split at htake
    · cases htake
      exact h
    · cases htake
  case h_1 => cases htake
  all_goals
    cases htake
    exact h

/-- So it does when all events are taken. -/
theorem short_readAnalyze {request next : AnalyzeRequest} {strays more : List String}
    {events : List (Event AnalyzeOption)} (h : Json.Short request.chainId)
    (hread : readAnalyze request strays events = .ok (next, more)) : Json.Short next.chainId := by
  induction events generalizing request strays with
  | nil =>
    cases hread
    exact h
  | cons event events ih =>
    cases event with
    | option spec value =>
      rw [readAnalyze] at hread
      cases htake : request.take spec (value.getD "") with
      | error early =>
        rw [htake] at hread
        cases hread
      | ok taken =>
        rw [htake] at hread
        exact ih (AnalyzeRequest.short_take h htake) hread
    | operand word =>
      rw [readAnalyze] at hread
      refine ih ?_ hread
      exact h
    | command words => exact ih h hread
    | stray word => exact ih h hread
    | fault f => cases hread

theorem finish_eq_run {manner found : Manner} {command asked : Option Command}
    {strays : List String} (h : finish manner command strays = .run found asked) :
    command = asked := by
  unfold finish at h
  split at h
  · cases h
    rfl
  · cases h

theorem short_readCommand {manner found : Manner} {strays : List String} {name : String}
    {words : List String} {request : AnalyzeRequest}
    (h : readCommand manner strays name words = .run found (some (.analyze request))) :
    Json.Short request.chainId := by
  unfold readCommand at h
  split at h
  · split at h
    · rename_i hread
      cases finish_eq_run h
      exact short_readAnalyze (by decide) hread
    · rename_i early _
      cases early <;> cases h
  split at h
  · split at h
    · cases finish_eq_run h
    · rename_i early _
      cases early <;> cases h
  · cases h

/-- **A request that was read is for a chain with a short number.** -/
theorem short_of_read {words : List String} {manner : Manner} {request : AnalyzeRequest}
    (h : Invocation.read words = .run manner (some (.analyze request))) :
    Json.Short request.chainId := by
  suffices hprogram : ∀ (events : List (Event ProgramOption)) (start : Manner)
      (strays : List String),
      readProgram start strays events = .run manner (some (.analyze request)) →
        Json.Short request.chainId from hprogram _ _ _ h
  intro events
  induction events with
  | nil =>
    intro start strays hread
    cases finish_eq_run hread
  | cons event events ih =>
    intro start strays hread
    cases event with
    | option spec value =>
      rw [readProgram] at hread
      split at hread
      · cases hread
      all_goals exact ih _ _ hread
    | operand word => exact ih _ _ hread
    | stray word => exact ih _ _ hread
    | fault f => cases hread
    | command words =>
      cases words with
      | nil => exact ih _ _ hread
      | cons name words => exact short_readCommand hread

/-! ## The input of a request -/

/-- The input that a request names without an address: the code it holds, the code of its file, or
the files at its paths if there are any. -/
def AnalyzeRequest.input? (request : AnalyzeRequest) (tree : Tree) : Option AnalysisInput :=
  match filled? request.address, filled? request.bytecode, filled? request.bytecodeFile with
  | some _, _, _ => none
  | none, some code, _ => some (codeInput request.chainId code)
  | none, none, some path => (tree.text? (.ofText path)).toOption.map (codeInput request.chainId)
  | none, none, none =>
    ((Source.collect tree request.paths).toOption.filter (!·.isEmpty)).map
      (sourceInput request.chainId)

/-- The input is for the chain of the request. -/
theorem AnalyzeRequest.inputChain_of_input? {request : AnalyzeRequest} {tree : Tree}
    {input : AnalysisInput} (h : request.input? tree = some input) :
    Fetch.inputChain input = request.chainId := by
  unfold input? at h
  split at h
  · cases h
  · cases h
    rfl
  · obtain ⟨code, -, rfl⟩ := Option.map_eq_some_iff.mp h
    rfl
  · obtain ⟨files, -, rfl⟩ := Option.map_eq_some_iff.mp h
    rfl

end ContractLens.Cli
