import ContractLens.Proofs.Cache.Garbled
import ContractLens.Proofs.Cache.Ledger
import ContractLens.Proofs.Cache.Resilience
import ContractLens.Proofs.Cache.Skipped
/-!
# A record that was not kept

Keeping a record may be refused, and its commands may fail; the answer is then that it was not kept.
What a client gives afterwards is what it gave before (`Client.GivesSame`), with one exception. The
text of a record is set before its place in the index, so when the place is what fails, because of
the command or because the time of the record has none, the record is under its key all the same: in
place of the one that was there, and without a place of its own (`Client.unkept_of_answer`).

A client whose connection could not be made is off from then on. It gives no records, and would have
given none at that moment.
-/

namespace ContractLens.Cache

section Unkept

variable [Platform] {config : Config} {schedule : Schedule} {record : AnalysisRecord}

/-! ## What two clients give -/

/-- Two clients that give the same records, while no command fails. -/
structure Client.GivesSame (config : Config) (before after : Client) : Prop where
  /-- For every address and chain. -/
  get : ∀ now address chainId, after.answer config .calm (.get now address chainId) =
    before.answer config .calm (.get now address chainId)
  /-- In every history. -/
  history : ∀ now query, after.answer config .calm (.history now query) =
    before.answer config .calm (.history now query)

theorem Store.legible_congr {before after : Store} {keys : List String}
    (h : ∀ key ∈ keys, after.texts.get? key = before.texts.get? key) (now : Timestamp) :
    after.legible now keys = before.legible now keys := by
  induction keys with
  | nil => rfl
  | cons key keys ih =>
    obtain ⟨hkey, hkeys⟩ := List.forall_mem_cons.mp h
    have hgarbled : after.garbled now key = before.garbled now key := by
      rw [garbled, garbled, hkey]
    rw [legible, legible, List.takeWhile_cons, List.takeWhile_cons, hgarbled, ← legible, ← legible,
      ih hkeys]

/-- Stores with the same texts for some keys have the same records before the first that is none. -/
theorem Store.recordsOf_legible_congr {before after : Store} {keys : List String}
    (h : ∀ key ∈ keys, after.texts.get? key = before.texts.get? key) (now : Timestamp) :
    after.recordsOf now (after.legible now keys) =
      before.recordsOf now (before.legible now keys) := by
  rw [legible_congr h]
  refine List.filterMap_congr fun key hkey => ?_
  rw [recordAt?, recordAt?, h key (List.takeWhile_subset _ hkey)]

/-- A client that is asked for a record without a key fails. -/
theorem Client.answer_get_of_no_key {address : String} {chainId : Int} {failure : Failure}
    (hkey : config.recordKey address chainId = .error failure) {client : Client}
    (h : client.connection ≠ .disabled) (now : Timestamp) :
    client.answer config .calm (.get now address chainId) = .error failure := by
  obtain ⟨ready, -, hvalue, -⟩ :=
    (Call.get now address chainId).run_operation_calm config id h client.server
  rw [answer, hvalue, Call.program, hkey]
  rfl

/-- A client gives the same when no text of a record or of a key of the index has changed, nor any
place. -/
theorem Client.givesSame_of_texts {before after : Client} (hbefore : before.connection ≠ .disabled)
    (hafter : after.connection ≠ .disabled)
    (htexts : ∀ key, key ≠ config.skippedKey ∨ key ∈ before.server.store.ranked config.indexKey →
      after.server.store.texts.get? key = before.server.store.texts.get? key)
    (hindexes : after.server.store.indexes = before.server.store.indexes) :
    before.GivesSame config after where
  get now address chainId := by
    cases hkey : config.recordKey address chainId with
    | error failure =>
      rw [answer_get_of_no_key hkey hafter, answer_get_of_no_key hkey hbefore]
    | ok key =>
      have hplace : key ≠ config.skippedKey :=
        (recordKey_eq_ok_iff.mp hkey).2 ▸ keyText_ne_skippedKey address chainId
      refine (congrArg Prod.fst (run_get_calm config now hkey hafter _).1).trans
        (Eq.trans ?_ (congrArg Prod.fst (run_get_calm config now hkey hbefore _).1).symm)
      rw [recordAt?, recordAt?, htexts key (.inl hplace)]
  history now query := by
    rw [after.answer_history config hafter, before.answer_history config hbefore,
      Store.ranked_congr hindexes,
      Store.recordsOf_legible_congr fun key hkey => htexts key (.inr hkey)]

/-- A client gives the same when a record was refused, unless the counter has a place. -/
theorem Client.givesSame_of_refused {before after : Client}
    (hbefore : before.connection ≠ .disabled) (hafter : after.connection ≠ .disabled)
    (hstore : Refused config before.server.store after.server.store)
    (hcounter : (before.server.store.scores config.indexKey).get? config.skippedKey = none) :
    before.GivesSame config after := by
  refine givesSame_of_texts hbefore hafter (fun key hkey => hstore.texts key ?_) hstore.indexes
  rcases hkey with hkey | hkey
  · exact hkey
  · rintro rfl
    exact Store.mem_ranked_iff.mp hkey hcounter

/-! ## What is left -/

/-- Whether a command gives a key a place in an index. -/
def Command.places : Command → Bool
  | .zadd .. => true
  | _ => false

/-- A client with a record left under its key, and nothing else changed. -/
structure Client.Left (config : Config) (client : Client) (record : AnalysisRecord)
    (after : Client) : Prop where
  /-- The text of the record is under its key. -/
  texts : after.server.store.texts = client.server.store.texts.insert
    (config.keyText record.address record.chainId) record.encode
  /-- No place has changed. -/
  indexes : after.server.store.indexes = client.server.store.indexes
  /-- The key gives the record. -/
  get : record.WellFormed → ∀ now, after.answer config .calm
    (.get now record.address record.chainId) = .ok (some record)

/-- What a client gives when it has said that a record was not kept, by the commands that failed. -/
inductive Client.Unkept (config : Config) (schedule : Schedule) (client : Client)
    (record : AnalysisRecord) (after : Client) : List Command → Prop
  /-- Neither the connection failed nor the place of the record: it gives the same as before. -/
  | same {failed : List Command} :
      (∀ command ∈ failed, command.opens = false ∧ command.places = false) →
      client.GivesSame config after → Unkept config schedule client record after failed
  /-- The connection could not be made: the store is as it was, and what is given is what any call
  would have been given at that moment. -/
  | unopened {command : Command} : command.opens = true →
      after.server.store = client.server.store →
      (∀ call : Call, client.answer config schedule call = call.without config ∧
        ∀ later, after.answer config later call = call.without config) →
      Unkept config schedule client record after [command]
  /-- The place failed: the record is under its key, and nothing else has changed. -/
  | unplaced {score : Binary64} : record.analyzedAt.seconds = .ok score →
      client.Left config record after →
      Unkept config schedule client record after
        [.zadd config.indexKey (config.keyText record.address record.chainId) score]
  /-- There is no place for the time of the record, and it is the same without a failed command. -/
  | undated {fault : ClockFault} : record.analyzedAt.seconds = .error fault →
      client.Left config record after → Unkept config schedule client record after []

theorem Client.failed_of_disabled {client : Client} (h : client.connection = .disabled)
    (call : Call) : client.failed config schedule call = [] := by
  rw [failed, h]
  by_cases hbarred : call.Barred
  · rw [Call.operation_of_barred hbarred]
    rfl
  · rw [Call.operation_apply config hbarred, Server.failed_bind]
    exact (Server.run_of_silent (call.silent_unready config .disabled) schedule client.server).2.2

/-- A client whose index has one key, and the text of a record for it, lists the record. -/
theorem Client.answer_history_of_text {client : Client} (h : client.connection ≠ .disabled)
    (hrecord : record.WellFormed) {key : String}
    (hranked : client.server.store.ranked config.indexKey = [key])
    (htext : client.server.store.texts.get? key = some record.encode) (now : Timestamp)
    (query : Query) :
    client.answer config .calm (.history now query) = query.page [record] := by
  have hdecode := AnalysisRecord.decode_encode now hrecord
  have hkey : client.server.store.garbled now key = false := by
    rw [Store.garbled, htext, Option.any_some, hdecode]
    rfl
  rw [client.answer_history config h, hranked, Store.legible_eq_self (by simpa using hkey),
    Store.recordsOf_cons_of_decode htext hdecode]
  rfl

/-- A refused record has only its count as a command. -/
theorem eq_incr_of_vetoed (h : isVetoed record = true) {server : Server} {command : Command}
    (hfailed : command ∈ server.failed schedule ((Call.store record).program config)) :
    command = .incr config.skippedKey := by
  have hissues : ((Call.store record).program config).Issues (· = .incr config.skippedKey) := by
    refine Call.issues_withKey ?_
    simp only [Call.keepRecord, h]
    exact ⟨rfl, fun counted => by cases counted <;> trivial⟩
  exact Server.allowed_of_failed hissues schedule hfailed

theorem written_program (schedule : Schedule) (h : isVetoed record = false) {key : String}
    (hkey : config.recordKey record.address record.chainId = .ok key) (server : Server) :
    ∃ kept, (server.run schedule ((Call.store record).program config)).1 = .ok kept ∧
      Written config record key server.store kept
        (server.failed schedule ((Call.store record).program config))
        (server.run schedule ((Call.store record).program config)).2.2.store := by
  have hkeep : Call.keepRecord config record key = writeRecord config record key := by
    simp only [Call.keepRecord, h, Bool.false_eq_true, if_false]
  have hprogram : (Call.store record).program config =
      (writeRecord config record key).bind fun kept => .done (.ok kept) := by
    rw [Call.program, hkey, withKey, hkeep]
    rfl
  have hfailed : server.failed schedule ((Call.store record).program config) =
      server.failed schedule (writeRecord config record key) := by
    rw [hprogram, Server.failed_bind]
    exact List.append_nil _
  rw [hfailed, hprogram, Server.run_bind]
  exact ⟨_, rfl, written_writeRecord config record key schedule server⟩

/-- A record that was not written left everything as it was, or has its text and no place. -/
theorem Client.unkept_of_written {client after : Client} {failed : List Command}
    (h : client.connection ≠ .disabled) (hafter : after.connection ≠ .disabled)
    (hwritten : Written config record (config.keyText record.address record.chainId)
      client.server.store false failed after.server.store) :
    client.Unkept config schedule record after failed := by
  generalize hstore : after.server.store = store at hwritten
  have hsame (hkept : store = client.server.store) : client.GivesSame config after :=
    givesSame_of_texts h hafter (fun key _ => by rw [hstore, hkept]) (by rw [hstore, hkept])
  have hleft (htexts : store.texts = client.server.store.texts.insert
        (config.keyText record.address record.chainId) record.encode)
      (hindexes : store.indexes = client.server.store.indexes) :
      client.Left config record after := by
    refine ⟨hstore ▸ htexts, hstore ▸ hindexes, fun hrecord =>
      answer_get_of_text hafter hrecord ?_⟩
    rw [hstore, htexts, Table.get?_insert, beq_self_eq_true, if_pos rfl]
  cases hwritten with
  | unwritable => exact .same (fun _ hcommand => absurd hcommand List.not_mem_nil) (hsame rfl)
  | unset =>
    refine .same (fun command hcommand => ?_) (hsame rfl)
    rw [List.mem_singleton.mp hcommand]
    exact ⟨rfl, rfl⟩
  | undated hdate htexts hindexes => exact .undated hdate.choose_spec (hleft htexts hindexes)
  | unplaced hscore htexts hindexes => exact .unplaced hscore (hleft htexts hindexes)

/-- **A record that was not kept leaves what a client gives as it was**, unless all that failed was
its place: then the record is under its key. -/
theorem Client.unkept_of_answer {client : Client}
    (hanswer : client.answer config schedule (.store record) = .ok false)
    (hcounter : isVetoed record = true →
      (client.server.store.scores config.indexKey).get? config.skippedKey = none) :
    client.Unkept config schedule record (client.step config schedule (.call (.store record)))
      (client.failed config schedule (.store record)) := by
  by_cases h : client.connection = .disabled
  · rw [(step_of_disabled h (.store record)).2.1, client.failed_of_disabled h (.store record)]
    exact .same (fun _ hcommand => absurd hcommand List.not_mem_nil)
      ⟨fun _ _ _ => rfl, fun _ _ => rfl⟩
  have hshort : Json.Short record.chainId := by
    by_contra hlong
    have hbarred : (Call.store record).Barred := hlong
    rw [answer, Call.operation_of_barred hbarred, Server.run, Call.without,
      recordKey_of_not_short hlong] at hanswer
    cases hanswer
  have hkey : config.recordKey record.address record.chainId =
      .ok (config.keyText record.address record.chainId) :=
    recordKey_of_short hshort _
  have hbarred : ¬ (Call.store record).Barred := fun hlong => hlong hshort
  rcases Call.run_operation_cases config schedule hbarred h client.server with
    ⟨⟨command, hopens, hfailed⟩, hstore, hoff, hvalue⟩ | ⟨ready, hstore, hvalue, hserver, hfailed⟩
  · rw [failed, hfailed]
    exact .unopened hopens hstore fun call =>
      ⟨hvalue call, fun later => (step_of_disabled hoff call).1⟩
  have hactive : (client.step config schedule (.call (.store record))).connection = .active :=
    congrArg Prod.snd hvalue
  have hused : (client.step config schedule (.call (.store record))).connection ≠ .disabled := by
    rw [hactive]
    decide
  cases hveto : isVetoed record with
  | true =>
    rw [failed, hfailed]
    refine .same (fun command hcommand => ?_) (givesSame_of_refused h hused
      (refused_of_vetoed hveto hkey schedule client.server client.connection).2 (hcounter hveto))
    rw [eq_incr_of_vetoed hveto hcommand]
    exact ⟨rfl, rfl⟩
  | false =>
    obtain ⟨kept, hkept, hwritten⟩ := written_program schedule hveto hkey ready
    have hanswered := (congrArg Prod.fst hvalue).symm.trans hanswer
    obtain rfl : kept = false := Except.ok.inj (hkept.symm.trans hanswered)
    refine unkept_of_written h hused ?_
    rw [failed, hfailed, step, perform, hserver, ← hstore]
    exact hwritten

end Unkept

/-- A schedule on which no key is given a place. -/
def unplaced : Schedule := fun _ command =>
  if command.places then some ⟨"redis down"⟩ else none

/-- A client that has kept a record. -/
def factoryClient : Client := Client.step dayConfig .calm {} (.call (.store factoryRecord))

/-- A later record of the same address and chain. -/
def renamedRecord : AnalysisRecord := { factoryRecord with contractName := "Renamed" }

theorem wellFormed_renamedRecord : renamedRecord.WellFormed :=
  ⟨wellFormed_factoryRecord.chainId, wellFormed_factoryRecord.parsed,
    wellFormed_factoryRecord.dependencyGraph, wellFormed_factoryRecord.features,
    wellFormed_factoryRecord.bytecodeAnalysis⟩

theorem text_factoryClient :
    factoryClient.server.store.texts.get? factoryKey = some factoryRecord.encode := by
  have hveto : isVetoed factoryRecord = false := rfl
  have hseconds : 0 < dayConfig.seconds := by decide
  have hidle : Connection.idle ≠ .disabled := by decide
  have htexts : factoryClient.server.store.texts =
      Table.insert [] factoryKey factoryRecord.encode :=
    (run_store_calm recordKey_factoryRecord encoded_factoryRecord hveto hseconds hidle {}).2
  rw [htexts, Table.get?_insert, beq_self_eq_true, if_pos rfl]

theorem ranked_factoryClient :
    factoryClient.server.store.ranked dayConfig.indexKey = [factoryKey] := by
  have hscores : factoryClient.server.store.scores dayConfig.indexKey =
      [(factoryKey, scoreOf factoryRecord)] := by decide +kernel
  rw [Store.ranked, hscores]
  exact congrArg _ (List.mergeSort_singleton _)

theorem unkept_of_answer_renamed :
    factoryClient.Unkept dayConfig unplaced renamedRecord
      (factoryClient.step dayConfig unplaced (.call (.store renamedRecord)))
      (factoryClient.failed dayConfig unplaced (.store renamedRecord)) := by
  have hanswer : factoryClient.answer dayConfig unplaced (.store renamedRecord) = .ok false := rfl
  exact Client.unkept_of_answer hanswer nofun

/-- **A record that was not kept replaces the one that was**: keeping it is answered with no, and
then the client gives it, also in its history. -/
theorem replaced_by_unkept :
    let after := factoryClient.step dayConfig unplaced (.call (.store renamedRecord))
    factoryClient.answer dayConfig unplaced (.store renamedRecord) = .ok false ∧
      factoryClient.answer dayConfig .calm
        (.get .epoch factoryRecord.address factoryRecord.chainId) = .ok (some factoryRecord) ∧
      after.answer dayConfig .calm
        (.get .epoch factoryRecord.address factoryRecord.chainId) = .ok (some renamedRecord) ∧
      factoryClient.answer dayConfig .calm (.history .epoch {}) = [factoryRecord] ∧
      after.answer dayConfig .calm (.history .epoch {}) = [renamedRecord] ∧
      renamedRecord ≠ factoryRecord := by
  intro after
  have hactive : factoryClient.connection ≠ .disabled := by decide
  have hused : after.connection ≠ .disabled := by decide
  have hset : after.server.store = { factoryClient.server.store with
      texts := factoryClient.server.store.texts.insert factoryKey renamedRecord.encode
      lifetimes :=
        factoryClient.server.store.lifetimes.insert factoryKey (some dayConfig.seconds) } := rfl
  have hreplaced : after.server.store.texts.get? factoryKey = some renamedRecord.encode := by
    rw [hset, Table.get?_insert, beq_self_eq_true, if_pos rfl]
  have hranked : after.server.store.ranked dayConfig.indexKey = [factoryKey] := by
    have hindexes : after.server.store.indexes = factoryClient.server.store.indexes := by rw [hset]
    exact (Store.ranked_congr hindexes dayConfig.indexKey).trans ranked_factoryClient
  exact ⟨rfl,
    Client.answer_get_of_text hactive wellFormed_factoryRecord text_factoryClient .epoch,
    Client.answer_get_of_text hused wellFormed_renamedRecord hreplaced .epoch,
    Client.answer_history_of_text hactive wellFormed_factoryRecord ranked_factoryClient
      text_factoryClient .epoch {},
    Client.answer_history_of_text hused wellFormed_renamedRecord hranked hreplaced .epoch {},
    by decide⟩

end ContractLens.Cache
