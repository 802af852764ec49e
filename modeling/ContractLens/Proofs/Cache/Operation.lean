import ContractLens.Proofs.Cache.Key
import ContractLens.Proofs.Cache.Run
/-!
# Operations of the cache

Each operation as one program: it makes sure of the connection and goes on with what it was asked
for (`whenReady_apply`, `store_apply`). Making sure of the connection changes nothing in the store.

While no command fails and the cache is in use, reading a record gives what its key's text decodes
to (`run_get_calm`), and writing one sets its key's text (`run_store_calm`).
-/

namespace ContractLens.Cache

variable {α : Type} {config : Config}

/-! ## Operations as programs -/

/-- With a key, a program goes on with it. -/
theorem Server.run_withKey (schedule : Schedule) (server : Server) (key : String)
    (program : String → Program α) :
    server.run schedule (withKey (.ok key) program) =
      (.ok (server.run schedule (program key)).1, (server.run schedule (program key)).2) := by
  rw [withKey, Server.run_bind]
  simp only [Server.run, List.append_nil]

/-- An operation that needs a connection asks for it first. -/
theorem whenReady_apply (config : Config) (without : α) (program : Program α)
    (connection : Connection) :
    whenReady config without program connection =
      (ready config connection).bind fun found =>
        if found.1 then program.bind fun a => .done (a, found.2)
        else .done (without, found.2) := by
  show Program.bind _ _ = _
  congr 1
  funext found
  obtain ⟨connected, connection⟩ := found
  cases connected <;> rfl

/-- What is kept under a key asks for the connection, whether or not it may be kept. -/
theorem keep_apply [Platform] (config : Config) (record : AnalysisRecord) (key : String)
    (connection : Connection) :
    keep config record key connection =
      (ready config connection).bind fun found =>
        if isVetoed record then
          .note (skippedEntry record key)
            (if found.1 then (countSkipped config).bind fun _ => .done (false, found.2)
              else .done (false, found.2))
        else if found.1 then (writeRecord config record key).bind fun a => .done (a, found.2)
        else .done (false, found.2) := by
  show Program.bind _ _ = _
  congr 1
  funext found
  obtain ⟨connected, connection⟩ := found
  cases h : isVetoed record with
  | false => cases connected <;> rfl
  | true =>
    cases connected with
    | false => rfl
    | true =>
      have hlift : ∀ g : Unit × Connection → Program (Bool × Connection),
          ((countSkipped config).bind fun a => .done (a, connection)).bind g =
            (countSkipped config).bind fun a => g (a, connection) :=
        fun g => Program.bind_assoc (countSkipped config) _ g
      exact congrArg (Program.note (skippedEntry record key)) (hlift _)

/-- With a key, keeping a record is keeping it under the key. -/
theorem store_eq_keep [Platform] {record : AnalysisRecord} {key : String}
    (h : config.recordKey record.address record.chainId = .ok key) (connection : Connection) :
    store config record connection =
      (keep config record key connection).bind fun kept => .done (.ok kept.1, kept.2) := by
  rw [store, h]
  rfl

theorem store_apply [Platform] {record : AnalysisRecord} {key : String}
    (h : config.recordKey record.address record.chainId = .ok key) (connection : Connection) :
    store config record connection =
      (ready config connection).bind fun found =>
        if isVetoed record then
          .note (skippedEntry record key)
            (if found.1 then (countSkipped config).bind fun _ => .done (.ok false, found.2)
              else .done (.ok false, found.2))
        else if found.1 then
          (writeRecord config record key).bind fun a => .done (.ok a, found.2)
        else .done (.ok false, found.2) := by
  rw [store_eq_keep h, keep_apply, Program.bind_assoc]
  congr 1
  funext found
  split
  · refine congrArg (Program.note (skippedEntry record key)) ?_
    split
    · exact Program.bind_assoc _ _ _
    · rfl
  · split
    · exact Program.bind_assoc _ _ _
    · rfl

/-- Without one, keeping it fails before anything is done. -/
theorem store_of_no_key [Platform] {record : AnalysisRecord} {failure : Failure}
    (h : config.recordKey record.address record.chainId = .error failure)
    (connection : Connection) :
    store config record connection = .done (.error failure, connection) := by
  rw [store, h]
  rfl

/-- The commands that open a connection leave the store as it is. -/
theorem keeps_ready (inv : Store → Prop) (config : Config) (connection : Connection) :
    (ready config connection).Keeps inv fun found => found.1 = true → found.2 = .active := by
  cases connection with
  | active => exact fun _ => rfl
  | disabled => exact nofun
  | idle =>
    let post : Bool × Connection → Prop := fun found => found.1 = true → found.2 = .active
    have hopened : (Program.done (true, Connection.active)).Keeps inv post := fun _ => rfl
    have hfailed : ∀ fault, (Program.note (unavailable fault)
        (.done (false, Connection.disabled))).Keeps inv post := fun _ => nofun
    -- the connection is opened first, and then it is asked for a sign of life
    exact ⟨hfailed, fun _ _ hs => ⟨hs, hfailed, fun _ _ hs => ⟨hs, hopened⟩⟩⟩

/-- Making sure of the connection leaves the store as it is, whatever fails. -/
theorem store_run_ready (config : Config) (schedule : Schedule) (server : Server)
    (connection : Connection) :
    (server.run schedule (ready config connection)).2.2.store = server.store :=
  (Server.run_of_keeps (keeps_ready (fun store => store = server.store) config connection)
    schedule rfl).1

/-- An operation keeps what its program keeps. -/
theorem keeps_whenReady {inv : Store → Prop} {post : α → Prop} {without : α} {program : Program α}
    (hwithout : post without) (h : program.Keeps inv post) (connection : Connection) :
    (whenReady config without program connection).Keeps inv fun found => post found.1 := by
  rw [whenReady_apply]
  refine (keeps_ready inv config connection).bind fun found _ => ?_
  cases found.1 with
  | true => exact h.bind fun a ha => ha
  | false => exact hwithout

/-- With a key, keeping a record is answered. -/
theorem exists_answer_store [Platform] {record : AnalysisRecord} {key : String}
    (h : config.recordKey record.address record.chainId = .ok key) (schedule : Schedule)
    (server : Server) (connection : Connection) :
    ∃ kept, (server.run schedule (store config record connection)).1.1 = .ok kept := by
  rw [store_eq_keep h, Server.run_bind]
  exact ⟨_, rfl⟩

/-- A call for a record is answered, or has no key. -/
theorem answer_get_cases [Platform] (config : Config) (now : Timestamp) (address : String)
    (chainId : Int) (schedule : Schedule) (server : Server) (connection : Connection) :
    (∃ found, (server.run schedule (get config now address chainId connection)).1.1 = .ok found) ∨
      ¬ Json.Short chainId ∧
        (server.run schedule (get config now address chainId connection)).1.1 =
          .error .overlong := by
  rw [get, whenReady_apply, Server.run_bind]
  cases (server.run schedule (ready config connection)).1.1 with
  | false => exact .inl ⟨none, rfl⟩
  | true =>
    simp only [if_true, Server.run_bind]
    by_cases hshort : Json.Short chainId
    · rw [recordKey_of_short hshort, Server.run_withKey]
      exact .inl ⟨_, rfl⟩
    · rw [recordKey_of_not_short hshort]
      exact .inr ⟨hshort, rfl⟩

/-! ## While no command fails -/

theorem run_ready_calm (config : Config) {connection : Connection} (h : connection ≠ .disabled)
    (server : Server) :
    (server.run .calm (ready config connection)).1 = (true, .active) ∧
      (server.run .calm (ready config connection)).2.2.store = server.store := by
  cases connection with
  | active => exact ⟨rfl, rfl⟩
  | disabled => exact absurd rfl h
  | idle => exact ⟨rfl, rfl⟩

/-- While no command fails, what is done with an open connection is done. -/
theorem run_bind_ready_calm (config : Config) {program : Program α}
    {next : Bool × Connection → Program (α × Connection)} {connection : Connection}
    (h : connection ≠ .disabled) (server : Server)
    (hnext : next (true, .active) = program.bind fun a => .done (a, .active)) :
    ∃ ready : Server, ready.store = server.store ∧
      (server.run .calm ((Cache.ready config connection).bind next)).1 =
        ((ready.run .calm program).1, .active) ∧
      (server.run .calm ((Cache.ready config connection).bind next)).2.2 =
        (ready.run .calm program).2.2 := by
  obtain ⟨hvalue, hstore⟩ := run_ready_calm config h server
  refine ⟨_, hstore, ?_⟩
  rw [Server.run_bind, hvalue, hnext]
  simp only [Server.run_bind]
  exact ⟨rfl, rfl⟩

/-- While no command fails an operation does what its program does, on an open connection. -/
theorem run_whenReady_calm (config : Config) (without : α) (program : Program α)
    {connection : Connection} (h : connection ≠ .disabled) (server : Server) :
    ∃ ready : Server, ready.store = server.store ∧
      (server.run .calm (whenReady config without program connection)).1 =
        ((ready.run .calm program).1, .active) ∧
      (server.run .calm (whenReady config without program connection)).2.2 =
        (ready.run .calm program).2.2 := by
  rw [whenReady_apply]
  exact run_bind_ready_calm config h server rfl

variable [Platform]

/-- The record that a key's text decodes to, if there is a text and it decodes. -/
def recordAt? (store : Store) (now : Timestamp) (key : String) : Option AnalysisRecord :=
  (store.texts.get? key).bind fun s => (AnalysisRecord.decode now s).toOption

theorem run_getRecord_calm (now : Timestamp) (key : String) (server : Server) :
    (server.run .calm (getRecord now key)).1 = recordAt? server.store now key ∧
      (server.run .calm (getRecord now key)).2.2.store = server.store := by
  rw [getRecord, Server.run_issue, (server.take_calm (.get key)).1]
  simp only [Store.run, recordAt?]
  cases server.store.texts.get? key with
  | none => exact ⟨rfl, (server.take_calm (.get key)).2⟩
  | some s =>
    simp only [Option.bind_some]
    cases AnalysisRecord.decode now s with
    | ok record => exact ⟨rfl, (server.take_calm (.get key)).2⟩
    | error failure => exact ⟨rfl, (server.take_calm (.get key)).2⟩

/-- **While no command fails, reading gives what the key's text decodes to**, and the store stays.
-/
theorem run_get_calm (config : Config) (now : Timestamp) {address key : String} {chainId : Int}
    (hkey : config.recordKey address chainId = .ok key) {connection : Connection}
    (h : connection ≠ .disabled) (server : Server) :
    (server.run .calm (get config now address chainId connection)).1 =
        (.ok (recordAt? server.store now key), .active) ∧
      (server.run .calm (get config now address chainId connection)).2.2.store = server.store := by
  obtain ⟨ready, hstore, hvalue, hserver⟩ := run_whenReady_calm config (.ok none)
    (withKey (config.recordKey address chainId) (getRecord now)) h server
  obtain ⟨hfound, hsame⟩ := run_getRecord_calm now key ready
  rw [get, hvalue, hserver, hkey, Server.run_withKey, hfound, hstore]
  exact ⟨rfl, hsame.trans hstore⟩

omit [Platform] in
/-- With a time to live that is one, a text is set. -/
theorem run_set (facts : Table Json) (store : Store) (key text : String) {seconds : Int}
    (h : 0 < seconds) :
    store.run facts (.set key text (some seconds)) =
      (.ok (), { store with
        texts := store.texts.insert key text
        lifetimes := store.lifetimes.insert key (some seconds) }) := by
  have hpositive : ¬ seconds ≤ 0 := by omega
  simp only [Store.run, Option.any_some, hpositive, decide_false, Bool.false_eq_true, if_false]

theorem run_writeRecord_calm {record : AnalysisRecord} {text : String}
    (htext : record.encoded = .ok text) (hseconds : 0 < config.seconds) (key : String)
    (server : Server) :
    (server.run .calm (writeRecord config record key)).1 = record.analyzedAt.seconds.isOk ∧
      (server.run .calm (writeRecord config record key)).2.2.store.texts =
        server.store.texts.insert key text := by
  obtain ⟨hanswer, hstore⟩ := server.take_calm (.set key text (some config.seconds))
  rw [run_set _ _ _ _ hseconds] at hanswer hstore
  rw [writeRecord, htext]
  simp only [Server.run_issue, hanswer]
  -- giving the key a place in the index leaves the texts as they are
  cases record.analyzedAt.seconds with
  | error fault => exact ⟨rfl, congrArg Store.texts hstore⟩
  | ok score => exact ⟨rfl, congrArg Store.texts hstore⟩

/-- **While no command fails, a record that may be kept is written** under its key, and nothing else
is. The answer says whether its time has a place. -/
theorem run_store_calm {record : AnalysisRecord} {key text : String}
    (hkey : config.recordKey record.address record.chainId = .ok key)
    (htext : record.encoded = .ok text) (hveto : isVetoed record = false)
    (hseconds : 0 < config.seconds) {connection : Connection} (h : connection ≠ .disabled)
    (server : Server) :
    (server.run .calm (store config record connection)).1 =
        (.ok record.analyzedAt.seconds.isOk, .active) ∧
      (server.run .calm (store config record connection)).2.2.store.texts =
        server.store.texts.insert key text := by
  obtain ⟨hvalue, hstore⟩ := run_ready_calm config h server
  rw [store_apply hkey, Server.run_bind, hvalue]
  simp only [hveto, Bool.false_eq_true, if_false, if_true, Server.run_bind]
  obtain ⟨hdone, htexts⟩ := run_writeRecord_calm htext hseconds key
    (server.run .calm (ready config connection)).2.2
  exact ⟨congrArg (fun kept => (Except.ok kept, Connection.active)) hdone,
    by rw [← hstore]; exact htexts⟩

/-- A record with a text that cannot be written is not kept, and nothing is. -/
theorem run_store_unwritable {record : AnalysisRecord} {key reason : String}
    (hkey : config.recordKey record.address record.chainId = .ok key)
    (htext : record.encoded = .error reason) (hveto : isVetoed record = false)
    {connection : Connection} (h : connection ≠ .disabled) (server : Server) :
    (server.run .calm (store config record connection)).1 = (.ok false, .active) ∧
      (server.run .calm (store config record connection)).2.2.store = server.store := by
  obtain ⟨hvalue, hstore⟩ := run_ready_calm config h server
  rw [store_apply hkey, Server.run_bind, hvalue]
  simp only [hveto, Bool.false_eq_true, if_false, if_true, Server.run_bind]
  rw [writeRecord, htext]
  exact ⟨rfl, hstore⟩

end ContractLens.Cache
