import ContractLens.Proofs.Analysis.Encoded
import ContractLens.Proofs.Analysis.ReadBack
import ContractLens.Proofs.Cache.Fault
import ContractLens.Proofs.Cache.Key
import ContractLens.Proofs.Cache.Operation
/-!
# A kept record is given back

When keeping a record says that it was written, the text of its key is the record's own
(`text_of_store`), whatever commands failed on the way. Any server that still holds that text gives
the record back, under every spelling of its address (`get_of_store`).
-/

namespace ContractLens.Cache

section Kept

variable [Platform] {config : Config} {record : AnalysisRecord}

omit [Platform] in
/-- A text is set, or the command is answered with a fault and nothing changes. -/
theorem take_set_cases (schedule : Schedule) (server : Server) (key text : String)
    (seconds : Option Int) :
    (∃ fault, (server.take schedule (.set key text seconds)).1 = .error fault ∧
        (server.take schedule (.set key text seconds)).2.store = server.store) ∨
      (server.take schedule (.set key text seconds)).1 = .ok () ∧
        (server.take schedule (.set key text seconds)).2.store.texts =
          server.store.texts.insert key text ∧
        (server.take schedule (.set key text seconds)).2.store.indexes = server.store.indexes := by
  rcases server.take_cases schedule (.set key text seconds) with hfault | ⟨hanswer, hstore⟩
  · exact .inl hfault
  · rw [hanswer, hstore, Store.run]
    split
    · exact .inl ⟨_, rfl, rfl⟩
    · exact .inr ⟨rfl, rfl, rfl⟩

/-- How writing a record under a key ends, given the answer, the commands that failed and the store.
-/
inductive Written (config : Config) (record : AnalysisRecord) (key : String) (before : Store) :
    Bool → List Command → Store → Prop
  /-- The record has no text that could be set. -/
  | unwritable : (∃ reason, record.encoded = .error reason) →
      Written config record key before false [] before
  /-- The text was not set. -/
  | unset :
      Written config record key before false [.set key record.encode (some config.seconds)] before
  /-- The text was set, and its time has no place. -/
  | undated {after : Store} : (∃ fault, record.analyzedAt.seconds = .error fault) →
      after.texts = before.texts.insert key record.encode → after.indexes = before.indexes →
      Written config record key before false [] after
  /-- The text was set, and was not given its place. -/
  | unplaced {after : Store} {score : Binary64} : record.analyzedAt.seconds = .ok score →
      after.texts = before.texts.insert key record.encode → after.indexes = before.indexes →
      Written config record key before false [.zadd config.indexKey key score] after
  /-- The text was set and given its place. -/
  | placed {after : Store} : after.texts = before.texts.insert key record.encode →
      Written config record key before true [] after

/-- Writing a record ends at the first fault. -/
theorem written_writeRecord (config : Config) (record : AnalysisRecord) (key : String)
    (schedule : Schedule) (server : Server) :
    Written config record key server.store
      (server.run schedule (writeRecord config record key)).1
      (server.failed schedule (writeRecord config record key))
      (server.run schedule (writeRecord config record key)).2.2.store := by
  rw [writeRecord]
  cases htext : record.encoded with
  | error reason => exact .unwritable ⟨reason, htext⟩
  | ok text =>
    obtain rfl := AnalysisRecord.encode_eq_of_encoded htext
    dsimp only
    rw [Server.run_issue, Server.failed_issue]
    rcases take_set_cases schedule server key record.encode (some config.seconds) with
      ⟨fault, hset, hstore⟩ | ⟨hset, htexts, hindexes⟩
    · rw [hset]
      exact hstore ▸ .unset
    generalize (server.take schedule (.set key record.encode (some config.seconds))).2 = asked
      at htexts hindexes ⊢
    rw [hset]
    dsimp only
    cases hscore : record.analyzedAt.seconds with
    | error fault => exact .undated ⟨fault, hscore⟩ htexts hindexes
    | ok score =>
      dsimp only
      rw [Server.run_issue, Server.failed_issue]
      rcases asked.take_ok_cases schedule (.zadd config.indexKey key score) rfl with
        ⟨fault, hplaced, hstore⟩ | ⟨hplaced, hstore⟩
      · rw [hplaced]
        exact .unplaced hscore ((congrArg Store.texts hstore).trans htexts)
          ((congrArg Store.indexes hstore).trans hindexes)
      · rw [hplaced]
        exact .placed ((congrArg Store.texts hstore).trans htexts)

/-- A record is only said to be written when its text was set. -/
theorem text_of_writeRecord {schedule : Schedule} {server : Server} {key : String}
    (h : (server.run schedule (writeRecord config record key)).1 = true) :
    (server.run schedule (writeRecord config record key)).2.2.store.texts.get? key =
      some record.encode := by
  have hwritten := written_writeRecord config record key schedule server
  rw [h] at hwritten
  generalize server.failed schedule (writeRecord config record key) = failed at hwritten
  generalize (server.run schedule (writeRecord config record key)).2.2.store = after at hwritten ⊢
  cases hwritten with
  | placed htexts => rw [htexts, Table.get?_insert, beq_self_eq_true, if_pos rfl]

/-- **When a record is said to be kept, its key holds its text.** -/
theorem text_of_store {schedule : Schedule} {server : Server} {connection : Connection}
    (h : (server.run schedule (store config record connection)).1.1 = .ok true) :
    (server.run schedule (store config record connection)).2.2.store.texts.get?
      (config.keyText record.address record.chainId) = some record.encode := by
  cases hkey : config.recordKey record.address record.chainId with
  | error failure =>
    rw [store_of_no_key hkey] at h
    cases h
  | ok key => ?_
  rw [(recordKey_eq_ok_iff.mp hkey).2]
  rw [store_apply hkey, Server.run_bind] at h ⊢
  revert h
  generalize server.run schedule (ready config connection) = found
  obtain ⟨⟨connected, after⟩, entries, server'⟩ := found
  simp only
  intro h
  cases hveto : isVetoed record with
  | true =>
    cases connected with
    | false =>
      rw [hveto] at h
      cases h
    | true =>
      rw [hveto] at h
      simp only [if_true, Server.run, Server.run_bind] at h
      cases h
  | false =>
    cases connected with
    | false =>
      rw [hveto] at h
      cases h
    | true =>
      rw [hveto] at h
      simp only [Bool.false_eq_true, if_false, if_true, Server.run_bind] at h ⊢
      exact text_of_writeRecord (Except.ok.inj h)

/-- **A record that was kept is given back**, equal in every part, for every spelling of its
address, as long as the text of its key is the one that was set. -/
theorem get_of_store (hrecord : record.WellFormed) {schedule : Schedule} {server : Server}
    {connection : Connection}
    (hstored : (server.run schedule (store config record connection)).1.1 = .ok true)
    {later : Server}
    (hkept : later.store.texts.get? (config.keyText record.address record.chainId) =
      (server.run schedule (store config record connection)).2.2.store.texts.get?
        (config.keyText record.address record.chainId))
    {address : String} (haddress : Text.lowerString address = Text.lowerString record.address)
    {connection' : Connection} (hused : connection' ≠ .disabled) (now : Timestamp) :
    (later.run .calm (get config now address record.chainId connection')).1.1 =
      .ok (some record) := by
  have hkey : config.recordKey address record.chainId =
      .ok (config.keyText record.address record.chainId) :=
    recordKey_eq_ok_iff.mpr ⟨hrecord.chainId, keyText_congr haddress _⟩
  rw [(run_get_calm config now hkey hused later).1, recordAt?, hkept, text_of_store hstored]
  simp only [Option.bind_some, AnalysisRecord.decode_encode now hrecord, Except.toOption]

end Kept

/-- A cache whose records are kept for a day. -/
def dayConfig : Config := ⟨"redis://localhost:6379/0", "owdit", 86400⟩

/-- Sources with a call graph. -/
def factorySources : ParsedSources where
  contracts := [⟨"Factory", "src/F.sol", ["make"], [], [], false, ["Ownable"], 12⟩]
  callGraph := [("Factory", ⟨.ofList ["Pair", "Child"], ∅⟩), ("Child", ⟨∅, .ofList ["Factory"]⟩)]
  mainContract := none
  totalLines := 12
  totalFunctions := 1
  totalEvents := 0

theorem wellFormed_factorySources : factorySources.WellFormed where
  contracts := by decide
  callGraph := by decide
  totals := by decide

/-- A record of sources whose name has quotes, controls and characters of other scripts. -/
def factoryRecord : AnalysisRecord where
  address := "0xAbCd"
  chainId := 137
  verified := true
  contractName := "Fa\x22c\\tory\n\x00\x1f é 合約 😀"
  parsed := some factorySources
  imports := some ⟨[⟨"./C.sol", .relative, "contract Child {}"⟩], [⟨"x", .unknown, "no"⟩], []⟩
  dependencyGraph := [("src/F.sol", ["./C.sol"])]
  features := none
  bytecodeAnalysis := none
  proxy := ⟨false⟩
  isUpgradeable := false
  cacheEligible := true
  analyzedAt := ⟨⟨2026, 2, 28, by decide⟩, ⟨23, 59, 59, 40, by decide⟩, some ⟨-210, by decide⟩⟩
  analysisId := ""

theorem wellFormed_factoryRecord : factoryRecord.WellFormed where
  chainId := by decide
  parsed := fun _ hp => Option.mem_some.mp hp ▸ wellFormed_factorySources
  dependencyGraph := by decide
  features := fun _ hf => absurd hf (Option.not_mem_none _)
  bytecodeAnalysis := fun _ hb => absurd hb (Option.not_mem_none _)

/-- The key of the record. -/
def factoryKey : String := dayConfig.keyText factoryRecord.address factoryRecord.chainId

theorem recordKey_factoryRecord :
    dayConfig.recordKey factoryRecord.address factoryRecord.chainId = .ok factoryKey :=
  recordKey_of_short wellFormed_factoryRecord.chainId _

theorem encoded_factoryRecord : factoryRecord.encoded = .ok factoryRecord.encode :=
  AnalysisRecord.encoded_of_all (by decide +kernel)

/-- The record is given back under another spelling of its address. -/
theorem get_of_store_respelled :
    (Server.run .calm {} (store dayConfig factoryRecord .idle)).1.1 = .ok true ∧
      ((Server.run .calm {} (store dayConfig factoryRecord .idle)).2.2.run .calm
        (get dayConfig .epoch "0xaBcD" factoryRecord.chainId .active)).1.1 =
          .ok (some factoryRecord) := by
  have hseconds : 0 < dayConfig.seconds := by decide
  have hidle : Connection.idle ≠ .disabled := by decide
  have hveto : isVetoed factoryRecord = false := rfl
  have hstored : (Server.run .calm {} (store dayConfig factoryRecord .idle)).1.1 = .ok true :=
    congrArg Prod.fst (run_store_calm recordKey_factoryRecord encoded_factoryRecord hveto hseconds
      hidle {}).1
  have hcase : Text.lowerString "0xaBcD" = Text.lowerString factoryRecord.address := by decide
  exact ⟨hstored, get_of_store wellFormed_factoryRecord hstored rfl hcase (by decide) .epoch⟩

end ContractLens.Cache
