import ContractLens.Proofs.Cache.Call
import ContractLens.Proofs.Cache.History
import ContractLens.Proofs.Cache.RoundTrip
/-!
# Faults never come through

A call to the cache is answered whatever fails: the commands of its run may fail by any schedule,
and the texts of the store may be anything (`Call.Faces`). The one thing it remembers of a fault is
that a connection could not be made: from then on the cache is off, and a call issues no command
(`Client.step_of_disabled`). A call that needs a key fails itself when the key cannot be made
(`Client.raised_of_endless`).

Each call but that for the history gives up at the first fault with an answer of its own
(`Program.GivesUp`). The history answers with what it has found (`exists_traversal`).
-/

namespace ContractLens.Cache

section Faults

variable [Platform] {α : Type} {config : Config} {schedule : Schedule}

/-! ## Giving up -/

/-- A program that issues no command and ends with a value. -/
def Program.Silent (value : α) : Program α → Prop
  | .done a => a = value
  | .note _ next => next.Silent value
  | .issue _ _ => False

/-- A program that issues no more commands once one of them fails, and ends with a value then. -/
def Program.GivesUp (value : α) : Program α → Prop
  | .done _ => True
  | .note _ next => next.GivesUp value
  | .issue _ next =>
    (∀ fault, (next (.error fault)).Silent value) ∧ ∀ answer, (next (.ok answer)).GivesUp value

omit [Platform] in
theorem Server.run_of_silent {value : α} {p : Program α} (h : p.Silent value)
    (schedule : Schedule) (server : Server) :
    (server.run schedule p).1 = value ∧ (server.run schedule p).2.2 = server ∧
      server.failed schedule p = [] := by
  induction p with
  | done a => exact ⟨h, rfl, rfl⟩
  | note entry next ih => exact ih h
  | issue command next => exact h.elim

omit [Platform] in
/-- A program that gives up has one failed command at most, and then ends with the value. -/
theorem Server.run_of_givesUp {value : α} {p : Program α} (h : p.GivesUp value)
    (schedule : Schedule) (server : Server) :
    server.failed schedule p = [] ∨
      (∃ command, server.failed schedule p = [command]) ∧ (server.run schedule p).1 = value := by
  induction p generalizing server with
  | done a => exact .inl rfl
  | note entry next ih => exact ih h server
  | issue command next ih =>
    rw [Server.run_issue, Server.failed_issue]
    cases (server.take schedule command).1 with
    | error fault =>
      obtain ⟨hvalue, -, hfailed⟩ :=
        Server.run_of_silent (h.1 fault) schedule (server.take schedule command).2
      exact .inr ⟨⟨command, by rw [hfailed]; rfl⟩, hvalue⟩
    | ok answer => exact ih _ (h.2 answer) _

omit [Platform] in
theorem Program.GivesUp.bind_silent {β : Type} {p : Program α} {a : α} {b : β}
    {f : α → Program β} (hp : p.GivesUp a) (hf : ∀ x, (f x).Silent b) :
    (p.bind f).GivesUp b := by
  have hend : ∀ q : Program β, q.Silent b → q.GivesUp b := by
    intro q hq
    induction q with
    | done x => trivial
    | note entry next ih => exact ih hq
    | issue command next => exact hq.elim
  have hsilent : ∀ q : Program α, q.Silent a → (q.bind f).Silent b := by
    intro q hq
    induction q with
    | done x => exact hf x
    | note entry next ih => exact ih hq
    | issue command next => exact hq.elim
  induction p with
  | done x => exact hend _ (hf x)
  | note entry next ih => exact ih hp
  | issue command next ih =>
    exact ⟨fun fault => hsilent _ (hp.1 fault), fun answer => ih _ (hp.2 answer)⟩

omit [Platform] in
/-- A program that gives up, with what its value is made into. -/
theorem Program.GivesUp.map {β : Type} {p : Program α} {a : α} (hp : p.GivesUp a) (f : α → β) :
    (p.bind fun x => .done (f x)).GivesUp (f a) := by
  have hsilent : ∀ q : Program α, q.Silent a → (q.bind fun x => .done (f x)).Silent (f a) := by
    intro q hq
    induction q with
    | done x => exact congrArg f hq
    | note entry next ih => exact ih hq
    | issue command next => exact hq.elim
  induction p with
  | done x => trivial
  | note entry next ih => exact ih hp
  | issue command next ih =>
    exact ⟨fun fault => hsilent _ (hp.1 fault), fun answer => ih _ (hp.2 answer)⟩

omit [Platform] in
theorem givesUp_withKey {a : α} (key : Except Failure String) {program : String → Program α}
    (h : ∀ name, (program name).GivesUp a) : (withKey key program).GivesUp (.ok a) := by
  cases key with
  | error failure => trivial
  | ok name => exact (h name).map Except.ok

theorem givesUp_getRecord (now : Timestamp) (key : String) : (getRecord now key).GivesUp none := by
  refine ⟨fun fault => rfl, fun answer => ?_⟩
  rcases answer with _ | text
  · trivial
  · dsimp only
    cases AnalysisRecord.decode now text <;> trivial

omit [Platform] in
theorem givesUp_countSkipped (config : Config) : (countSkipped config).GivesUp () :=
  ⟨fun _ => rfl, fun _ => trivial⟩

theorem givesUp_writeRecord (config : Config) (record : AnalysisRecord) (key : String) :
    (writeRecord config record key).GivesUp false := by
  rw [writeRecord]
  cases record.encoded with
  | error reason => trivial
  | ok text =>
    refine ⟨fun _ => rfl, fun _ => ?_⟩
    dsimp only
    cases record.analyzedAt.seconds with
    | error fault => trivial
    | ok score => exact ⟨fun _ => rfl, fun _ => trivial⟩

theorem givesUp_keepRecord (config : Config) (record : AnalysisRecord) (key : String) :
    (Call.keepRecord config record key).GivesUp false := by
  cases hveto : isVetoed record with
  | true =>
    simp only [Call.keepRecord, hveto]
    exact (givesUp_countSkipped config).bind_silent fun _ => rfl
  | false =>
    simp only [Call.keepRecord, hveto]
    exact givesUp_writeRecord config record key

omit [Platform] in
theorem givesUp_deleteRecord (config : Config) (key : String) :
    (deleteRecord config key).GivesUp false :=
  ⟨fun _ => rfl, fun _ => ⟨fun _ => rfl, fun _ => trivial⟩⟩

omit [Platform] in
theorem givesUp_askStats (config : Config) : (askStats config).GivesUp .unknown := by
  refine ⟨fun _ => rfl, fun facts => ⟨fun _ => rfl, fun skipped => ⟨fun _ => rfl, ?_⟩⟩⟩
  intro cached
  dsimp only
  split <;> trivial

namespace Call

/-- The answer of a call that gives up at the first fault. -/
def onFault : (call : Call) → Option call.Answer
  | connect => some false
  | store _ | delete .. => some (.ok false)
  | get .. => some (.ok none)
  | history .. => none
  | stats => some Stats.unknown

/-- Every call but that for the history gives up. -/
theorem givesUp_program (config : Config) {call : Call} {answer : call.Answer}
    (h : call.onFault = some answer) : (call.program config).GivesUp answer := by
  cases call with
  | connect => trivial
  | get now address chainId =>
    cases h
    exact givesUp_withKey _ (givesUp_getRecord now)
  | store record =>
    cases h
    exact givesUp_withKey _ (givesUp_keepRecord config record)
  | delete address chainId =>
    cases h
    exact givesUp_withKey _ (givesUp_deleteRecord config)
  | history => cases h
  | stats =>
    cases h
    exact givesUp_askStats config

omit [Platform] in
theorem silent_unready (config : Config) (connection : Connection) (call : Call) :
    (call.unready config connection).Silent (call.without config, connection) := by
  cases call with
  | store record =>
    rw [unready]
    split <;> rfl
  | _ => rfl

end Call

/-! ## The connection -/

/-- Whether a command opens the connection. -/
def Command.opens : Command → Bool
  | .connect _ | .ping => true
  | _ => false

omit [Platform] in
/-- Without a connection one is opened, and the cache is off if that fails. -/
theorem run_ready_idle (config : Config) (schedule : Schedule) (server : Server) :
    ((∃ command : Command, command.opens = true ∧
        server.failed schedule (ready config .idle) = [command]) ∧
      (server.run schedule (ready config .idle)).1 = (false, .disabled)) ∨
    server.failed schedule (ready config .idle) = [] ∧
      (server.run schedule (ready config .idle)).1 = (true, .active) ∧
      (server.run schedule (ready config .idle)).2.2.store = server.store := by
  simp only [ready, openConnection, Program.bind, Server.run_issue, Server.failed_issue]
  rcases server.take_ok_cases schedule (.connect config.url) rfl with
    ⟨fault, hanswer, hstore⟩ | ⟨hanswer, hstore⟩
  · rw [hanswer]
    exact .inl ⟨⟨_, rfl, rfl⟩, rfl⟩
  generalize (server.take schedule (.connect config.url)).2 = connected at hstore ⊢
  rw [hanswer]
  simp only [Server.run_issue, Server.failed_issue, Program.bind]
  rcases connected.take_ok_cases schedule .ping rfl with
    ⟨fault, hanswer, hpinged⟩ | ⟨hanswer, hpinged⟩
  · rw [hanswer]
    exact .inl ⟨⟨_, rfl, rfl⟩, rfl⟩
  · rw [hanswer]
    exact .inr ⟨rfl, rfl, hpinged.trans hstore⟩

theorem Call.run_operation_of_disabled (config : Config) (schedule : Schedule) (call : Call)
    (server : Server) :
    (server.run schedule (call.operation config .disabled)).1 = (call.without config, .disabled) ∧
      (server.run schedule (call.operation config .disabled)).2.2 = server := by
  by_cases hbarred : call.Barred
  · rw [operation_of_barred hbarred]
    exact ⟨rfl, rfl⟩
  rw [operation_apply config hbarred, Server.run_bind]
  obtain ⟨hanswer, hserver, -⟩ :=
    Server.run_of_silent (call.silent_unready config .disabled) schedule server
  exact ⟨hanswer, hserver⟩

/-- Unless the cache is off, the connection cannot be made and the cache is off from then on, for
any call that is made at that moment, or the call goes on with its program. -/
theorem Call.run_operation_cases (config : Config) (schedule : Schedule) {call : Call}
    (hbarred : ¬ call.Barred) {connection : Connection} (h : connection ≠ .disabled)
    (server : Server) :
    ((∃ command : Command, command.opens = true ∧
          server.failed schedule (call.operation config connection) = [command]) ∧
        (server.run schedule (call.operation config connection)).2.2.store = server.store ∧
        (server.run schedule (call.operation config connection)).1.2 = .disabled ∧
        ∀ other : Call, (server.run schedule (other.operation config connection)).1.1 =
          other.without config) ∨
      ∃ ready : Server, ready.store = server.store ∧
        (server.run schedule (call.operation config connection)).1 =
          ((ready.run schedule (call.program config)).1, .active) ∧
        (server.run schedule (call.operation config connection)).2.2 =
          (ready.run schedule (call.program config)).2.2 ∧
        server.failed schedule (call.operation config connection) =
          ready.failed schedule (call.program config) := by
  have hkept := store_run_ready config schedule server connection
  rw [operation_apply config hbarred]
  simp only [Server.run_bind, Server.failed_bind]
  cases connection with
  | disabled => exact absurd rfl h
  | active =>
    refine .inr ⟨server, rfl, ?_⟩
    simp only [ready, Server.run, if_true, Server.run_bind, Server.failed_bind, Server.failed,
      List.append_nil, List.nil_append, and_self]
  | idle =>
    rcases run_ready_idle config schedule server with
      ⟨⟨command, hopens, hfailed⟩, hvalue⟩ | ⟨hfailed, hvalue, hstore⟩
    · have hsilent (other : Call) := Server.run_of_silent (other.silent_unready config .disabled)
        schedule (server.run schedule (ready config .idle)).2.2
      have hothers (other : Call) : (server.run schedule (other.operation config .idle)).1.1 =
          other.without config := by
        by_cases hother : other.Barred
        · rw [operation_of_barred hother]
          rfl
        · rw [operation_apply config hother, Server.run_bind, hvalue]
          exact congrArg Prod.fst (hsilent other).1
      rw [hvalue, hfailed]
      refine .inl ⟨⟨command, hopens, congrArg ([command] ++ ·) (hsilent call).2.2⟩, ?_,
        congrArg Prod.snd (hsilent call).1, hothers⟩
      exact (congrArg Server.store (hsilent call).2.1).trans hkept
    · rw [hvalue, hfailed]
      refine .inr ⟨_, hstore, ?_⟩
      simp only [if_true, Server.run_bind, Server.failed_bind, Server.run, Server.failed,
        List.append_nil, List.nil_append, and_self]

/-! ## What a call is answered with -/

/-- The text of the counter of records that were not kept is no number. -/
def CounterGarbled (config : Config) (store : Store) : Prop :=
  ∃ text, store.texts.get? config.skippedKey = some text ∧ text.isEmpty = false ∧
    wholeNumber? text = none

/-- How the answer to a call that needs a key faces the commands of it that failed, and a key that
cannot be made: that is missed only when no command has failed. -/
structure FacesWith (key : Except Failure String) (failed : List Command) (onFault : α)
    (answer : Except Failure α) : Prop where
  /-- It gives up when a command fails. -/
  fault : failed ≠ [] → answer = .ok onFault
  /-- With a key it is answered. -/
  answered : ∀ name, key = .ok name → ∃ value, answer = .ok value
  /-- Without a key it fails itself. -/
  failure : ∀ reason, key = .error reason → failed = [] → answer = .error reason

/-- How the answer to a call faces what went wrong: the commands of it that failed, and texts of the
store that it found. -/
def Call.Faces (config : Config) (store : Store) (failed : List Command) :
    (call : Call) → call.Answer → Prop
  | .connect, connected => failed ≠ [] → connected = false
  | .get now address chainId, found =>
    FacesWith (config.recordKey address chainId) failed none found ∧
      ∀ key, config.recordKey address chainId = .ok key → recordAt? store now key = none →
        found = .ok none
  | .store record, kept =>
    FacesWith (config.recordKey record.address record.chainId) failed false kept
  | .delete address chainId, dropped =>
    FacesWith (config.recordKey address chainId) failed false dropped
  -- nothing when the keys are not given, else the page among the records up to where it halted
  | .history now query, found =>
    ((∃ command ∈ failed, command.opens = true ∨ command = .zrevrange config.indexKey) ∧
        found = []) ∨
      ∃ read rest, store.ranked config.indexKey = read ++ rest ∧
        found = query.page (store.recordsOf now read) ∧
        Halted config now query store.texts found rest failed
  | .stats, told =>
    ((∃ command ∈ failed, command.opens = true) → told = .disabled) ∧
      ((∃ command ∈ failed, command.opens = false) ∨ failed = [] ∧ CounterGarbled config store →
        told = .unknown)

omit [Platform] in
/-- A call that gave up at a fault faces it. -/
theorem facesWith_of_fault (key : Except Failure String) {failed : List Command} (h : failed ≠ [])
    (onFault : α) : FacesWith key failed onFault (.ok onFault) :=
  ⟨fun _ => rfl, fun _ _ => ⟨onFault, rfl⟩, fun _ _ hnone => absurd hnone h⟩

/-- A record that has no key is not kept, with no command. -/
theorem Call.faces_of_barred {call : Call} (h : call.Barred) (store : Store) :
    call.Faces config store [] (call.without config) := by
  cases call with
  | store record =>
    have hkey : config.recordKey record.address record.chainId = .error .overlong :=
      recordKey_of_not_short h record.address
    have hanswer : (Call.store record).without config = .error .overlong := by
      rw [without, hkey]
      rfl
    have hkeyless : ∀ name, config.recordKey record.address record.chainId ≠ .ok name := by
      intro name hname
      rw [hkey] at hname
      cases hname
    rw [hanswer]
    exact ⟨fun hnone => absurd rfl hnone, fun name hname => absurd hname (hkeyless name),
      fun reason hreason _ => congrArg _ (Except.error.inj (hkey.symm.trans hreason))⟩
  | _ => exact h.elim

theorem Call.faces_of_unopened (store : Store) {command : Command} (h : command.opens = true)
    {call : Call} (hbarred : ¬ call.Barred) :
    call.Faces config store [command] (call.without config) := by
  have hfailed : [command] ≠ [] := List.cons_ne_nil command []
  cases call with
  | connect => exact fun _ => rfl
  | store record =>
    rw [without, recordKey_of_short (Decidable.not_not.mp hbarred)]
    exact facesWith_of_fault _ hfailed false
  | delete => exact facesWith_of_fault _ hfailed false
  | get => exact ⟨facesWith_of_fault _ hfailed none, fun _ _ _ => rfl⟩
  | history => exact .inl ⟨⟨command, List.mem_singleton.mpr rfl, .inl h⟩, rfl⟩
  | stats =>
    refine ⟨fun _ => rfl, ?_⟩
    rintro (⟨other, hother, hclosed⟩ | ⟨hnil, -⟩)
    · rw [List.mem_singleton.mp hother, h] at hclosed
      cases hclosed
    · cases hnil

/-- The program of a call opens no connection. -/
theorem Call.opens_of_allows {call : Call} {command : Command} (h : call.Allows config command) :
    command.opens = false := by
  cases call with
  | connect => exact h.elim
  | get => rw [show command = _ from h]; rfl
  | store => rcases h with rfl | rfl | ⟨score, -, rfl⟩ <;> rfl
  | delete => rcases h with rfl | rfl <;> rfl
  | history => rcases h with rfl | ⟨key, rfl | rfl⟩ <;> rfl
  | stats => rcases h with rfl | rfl | rfl <;> rfl

theorem run_getRecord_of_none {now : Timestamp} {key : String} {server : Server}
    (h : recordAt? server.store now key = none) :
    (server.run schedule (getRecord now key)).1 = none := by
  rw [getRecord, Server.run_issue]
  rcases server.take_ok_cases schedule (.get key) rfl with
    ⟨fault, hanswer, -⟩ | ⟨hanswer, -⟩
  · rw [hanswer]
    rfl
  rw [hanswer]
  rw [recordAt?] at h
  cases htext : server.store.texts.get? key with
  | none => rfl
  | some text =>
    rw [htext, Option.bind_some] at h
    cases hdecode : AnalysisRecord.decode now text with
    | error failure => simp only [hdecode]; rfl
    | ok record =>
      rw [hdecode] at h
      cases h

omit [Platform] in
theorem run_askStats_of_garbled {server : Server} (h : CounterGarbled config server.store) :
    (server.run schedule (askStats config)).1 = .unknown := by
  obtain ⟨text, htext, hempty, hnumber⟩ := h
  rw [askStats, Server.run_issue]
  rcases server.take_ok_cases schedule .info rfl with
    ⟨fault, hanswer, -⟩ | ⟨hanswer, hstore⟩
  · rw [hanswer]
    rfl
  generalize (server.take schedule .info).2 = informed at hstore ⊢
  replace hstore : informed.store = server.store := hstore
  rw [hanswer]
  simp only [Server.run_issue]
  rcases informed.take_ok_cases schedule (.get config.skippedKey) rfl with
    ⟨fault, hanswer, -⟩ | ⟨hanswer, -⟩
  · rw [hanswer]
    rfl
  rw [hanswer, hstore, htext]
  simp only [Server.run_issue]
  cases ((informed.take schedule (.get config.skippedKey)).2.take schedule
      (.zcard config.indexKey)).1 with
  | error fault => rfl
  | ok cached =>
    simp only [Option.getD_some, hempty, hnumber, Bool.false_eq_true, if_false]
    rfl

omit [Platform] in
/-- On a connection, a call that needs a key faces its faults when it gives up. -/
theorem facesWith_withKey {key : Except Failure String} {onFault : α}
    {program : String → Program α} (h : ∀ name, (program name).GivesUp onFault)
    (schedule : Schedule) (server : Server) :
    FacesWith key (server.failed schedule (withKey key program)) onFault
      (server.run schedule (withKey key program)).1 := by
  refine ⟨fun hfailed => ?_, fun name hname => ?_, fun reason hreason _ => ?_⟩
  · rcases Server.run_of_givesUp (givesUp_withKey key h) schedule server with hnone | ⟨-, hvalue⟩
    · exact absurd hnone hfailed
    · exact hvalue
  · rw [hname, Server.run_withKey]
    exact ⟨_, rfl⟩
  · rw [hreason]
    rfl

/-- On a connection, the program of a call faces its faults. -/
theorem Call.faces_program (config : Config) (schedule : Schedule) (call : Call) (server : Server) :
    call.Faces config server.store (server.failed schedule (call.program config))
      (server.run schedule (call.program config)).1 := by
  have hgives : ∀ answer, call.onFault = some answer →
      server.failed schedule (call.program config) ≠ [] →
        (server.run schedule (call.program config)).1 = answer := by
    intro answer hanswer hfailed
    rcases Server.run_of_givesUp (call.givesUp_program config hanswer) schedule server with
      hnone | ⟨-, hvalue⟩
    · exact absurd hnone hfailed
    · exact hvalue
  cases call with
  | connect => exact hgives false rfl
  | store record => exact facesWith_withKey (givesUp_keepRecord config record) schedule server
  | delete address chainId => exact facesWith_withKey (givesUp_deleteRecord config) schedule server
  | get now address chainId =>
    refine ⟨facesWith_withKey (givesUp_getRecord now) schedule server, fun key hkey hnone => ?_⟩
    have hread : (server.run schedule (withKey (.ok key) (getRecord now))).1 = .ok none := by
      rw [Server.run_withKey, run_getRecord_of_none hnone]
    rwa [← hkey] at hread
  | stats =>
    refine ⟨fun ⟨command, hcommand, hopens⟩ => ?_, ?_⟩
    · have hallowed := Server.allowed_of_failed (issues_askStats config) schedule hcommand
      rw [Call.opens_of_allows hallowed] at hopens
      cases hopens
    · rintro (⟨command, hcommand, -⟩ | ⟨-, hgarbled⟩)
      · exact hgives .unknown rfl (List.ne_nil_of_mem hcommand)
      · exact run_askStats_of_garbled hgarbled
  | history now query =>
    rcases run_historyRecords_cases config now query schedule server with
      ⟨hnone, hfailed⟩ | ⟨read, rest, hsplit, h⟩
    · exact .inl ⟨⟨_, hfailed ▸ List.mem_singleton.mpr rfl, .inr rfl⟩, hnone⟩
    · exact .inr ⟨read, rest, hsplit, h.found_eq, h.halted⟩

/-! ## Clients -/

namespace Client

/-- A client that is off answers as one, issues no command, opens no connection and stays off. -/
theorem step_of_disabled {client : Client} (h : client.connection = .disabled) (call : Call) :
    client.answer config schedule call = call.without config ∧
      client.step config schedule (.call call) = client ∧
      client.step config schedule .close = client := by
  obtain ⟨server, connection⟩ := client
  cases h
  obtain ⟨hvalue, hserver⟩ :=
    call.run_operation_of_disabled config schedule server
  refine ⟨congrArg Prod.fst hvalue, ?_, rfl⟩
  rw [step, perform, hvalue, hserver]

/-- Unless it is off, a client faces what goes wrong. -/
theorem faces {client : Client} (h : client.connection ≠ .disabled) (call : Call) :
    call.Faces config client.server.store (client.failed config schedule call)
      (client.answer config schedule call) := by
  by_cases hbarred : call.Barred
  · rw [failed, answer, Call.operation_of_barred hbarred]
    exact Call.faces_of_barred hbarred client.server.store
  rcases Call.run_operation_cases config schedule hbarred h client.server with
    ⟨⟨command, hopens, hfailed⟩, -, -, hvalue⟩ | ⟨ready, hstore, hvalue, -, hfailed⟩
  · rw [failed, answer, hfailed, hvalue call]
    exact Call.faces_of_unopened client.server.store hopens hbarred
  · rw [failed, answer, hfailed, hvalue, ← hstore]
    exact call.faces_program config schedule ready

/-- A client whose connection could not be made is off. -/
theorem disabled_of_unopened {client : Client} {call : Call} {command : Command}
    (hcommand : command ∈ client.failed config schedule call) (hopens : command.opens = true) :
    (client.step config schedule (.call call)).connection = .disabled := by
  rw [step, perform]
  by_cases h : client.connection = .disabled
  · rw [h, (call.run_operation_of_disabled config schedule client.server).1]
  have hbarred : ¬ call.Barred := fun hbarred => by
    rw [failed, Call.operation_of_barred hbarred] at hcommand
    cases hcommand
  rcases Call.run_operation_cases config schedule hbarred h client.server with
    ⟨-, -, hoff, -⟩ | ⟨ready, -, -, -, hfailed⟩
  · exact hoff
  · rw [failed, hfailed] at hcommand
    have hallowed := Server.allowed_of_failed (call.issues_program config) schedule hcommand
    rw [Call.opens_of_allows hallowed] at hopens
    cases hopens

theorem step_disabled {client : Client} (h : client.connection = .disabled) (event : Event) :
    (client.step config schedule event).connection = .disabled := by
  cases event with
  | call call => rw [(step_of_disabled h call).2.1, h]
  | close => rw [(step_of_disabled h .connect).2.2, h]
  | lapse | change => exact h

theorem after_disabled {client : Client} (h : client.connection = .disabled)
    (events : List Event) : (client.after config schedule events).connection = .disabled := by
  induction events generalizing client with
  | nil => exact h
  | cons event events ih => exact ih (step_disabled h event)

/-- **Faults never come through, and a connection that could not be made is not tried again.** After
any events, a client that is not off answers each call, unless it needs a key that cannot be made,
and faces what goes wrong; once the connection could not be made the client is off; and then each
call is answered as by a cache that is off, with no command issued and no connection opened or
closed. -/
theorem faces_or_disabled (config : Config) (schedule : Schedule) (start : Client)
    (events : List Event) :
    ((start.after config schedule events).connection ≠ .disabled → ∀ call : Call,
      call.Faces config (start.after config schedule events).server.store
        ((start.after config schedule events).failed config schedule call)
        ((start.after config schedule events).answer config schedule call)) ∧
    (∀ before call later, events = before ++ Event.call call :: later →
      (∃ command ∈ (start.after config schedule before).failed config schedule call,
        command.opens = true) →
      (start.after config schedule events).connection = .disabled) ∧
    ((start.after config schedule events).connection = .disabled → ∀ call : Call,
      (start.after config schedule events).answer config schedule call = call.without config ∧
        (start.after config schedule events).step config schedule (.call call) =
          start.after config schedule events ∧
        (start.after config schedule events).step config schedule .close =
          start.after config schedule events) := by
  refine ⟨faces, ?_, step_of_disabled⟩
  rintro before call later rfl ⟨command, hcommand, hopens⟩
  rw [after, List.foldl_append, List.foldl_cons]
  exact after_disabled (disabled_of_unopened hcommand hopens) later

end Client

end Faults

namespace Client

/-- A schedule on which the store gives no sign of life. -/
def unreachable : Schedule := fun _ command =>
  match command with
  | .ping => some ⟨"Connection refused"⟩
  | _ => none

/-- What is done with a client whose store gives no sign of life: asking for the history turns it
off, and neither closing it nor a text in the store turns it on. -/
def unreachableEvents : List Event :=
  [.call (.history .epoch {}), .close, .change { texts := [("k", "garbage")] }]

/-- The history of such a client is empty, and the one connection was the one that was not made. -/
theorem faces_or_disabled_unreachable :
    let client := Client.after dayConfig unreachable {} unreachableEvents
    client.answer dayConfig unreachable (.history .epoch {}) = [] ∧
      (client.step dayConfig unreachable (.call (.history .epoch {}))).server.opened =
        [dayConfig.url] := by
  obtain ⟨-, hoff, hquiet⟩ := faces_or_disabled dayConfig unreachable {} unreachableEvents
  have hfailed : Command.ping ∈ Client.failed dayConfig unreachable {} (.history .epoch {}) :=
    List.mem_singleton.mpr rfl
  obtain ⟨hanswer, hstep, -⟩ :=
    hquiet (hoff [] (.history .epoch {}) _ rfl ⟨.ping, hfailed, rfl⟩) (.history .epoch {})
  refine ⟨hanswer, ?_⟩
  rw [hstep]
  rfl

/-- **A call can fail itself**: it asks for a record on a chain whose number is too long to be
written. -/
theorem raised_of_endless :
    Client.answer dayConfig .calm {} (.get .epoch "0xab" endless) = .error .overlong := by
  have hkey : dayConfig.recordKey "0xab" endless = .error .overlong :=
    recordKey_of_not_short not_short_endless "0xab"
  have hidle : Connection.idle ≠ .disabled := by decide
  have hbarred : ¬ (Call.get .epoch "0xab" endless).Barred := id
  obtain ⟨ready, -, hvalue, -⟩ := Call.run_operation_calm dayConfig hbarred hidle {}
  rw [answer, hvalue, Call.program, hkey]
  rfl

end Client

end ContractLens.Cache
