import ContractLens.Proofs.Analysis.Encoded
import ContractLens.Proofs.Cache.Fault
import ContractLens.Proofs.Cache.Key
import ContractLens.Proofs.Cache.Operation
/-!
# Calls to the cache

The operations of the cache as one type of calls, each with its own kind of answer. A call asks for
the connection and then runs its program (`Call.operation_apply`), and the commands of that program
are those of a short list (`Call.issues_program`): what a call may do to the store is read off the
list. Only the call to keep a record that has no key does not come as far as the connection
(`Call.operation_of_barred`).

A client holds the connection from one call to the next. Between its calls it may be closed, the
time of keys may run out, and others may change the store (`Client.step`).
-/

namespace ContractLens.Cache

variable [Platform] {α : Type} {config : Config}

/-- A call to the cache. -/
inductive Call where
  /-- To open the connection. -/
  | connect
  /-- For a record. -/
  | get (now : Timestamp) (address : String) (chainId : Int)
  /-- To keep a record. -/
  | store (record : AnalysisRecord)
  /-- To drop a record. -/
  | delete (address : String) (chainId : Int)
  /-- For the history. -/
  | history (now : Timestamp) (query : Query)
  /-- For the use. -/
  | stats

namespace Call

/-- What a call is answered with. -/
def Answer : Call → Type
  | connect => Bool
  | store _ | delete .. => Except Failure Bool
  | get .. => Except Failure (Option AnalysisRecord)
  | history .. => List AnalysisRecord
  | stats => Stats

/-- What a call does. -/
def operation (config : Config) : (call : Call) → Operation call.Answer
  | connect => ready config
  | get now address chainId => Cache.get config now address chainId
  | store record => Cache.store config record
  | delete address chainId => Cache.delete config address chainId
  | history now query => Cache.history config now query
  | stats => Cache.stats config

/-- A call to keep a record that has no key. -/
def Barred : Call → Prop
  | store record => ¬ Json.Short record.chainId
  | _ => False

instance : (call : Call) → Decidable call.Barred
  | store record => inferInstanceAs (Decidable (¬ Json.Short record.chainId))
  | connect | get .. | delete .. | history .. | stats => .isFalse id

/-- The answer of a cache that is off. A key that cannot be made is missed when a record is to be
kept. -/
def without (config : Config) : (call : Call) → call.Answer
  | connect => false
  | store record => (config.recordKey record.address record.chainId).map fun _ => false
  | delete .. => .ok false
  | get .. => .ok none
  | history .. => []
  | stats => Stats.disabled

/-- What keeping a record under a key does once there is a connection. -/
def keepRecord (config : Config) (record : AnalysisRecord) (key : String) : Program Bool :=
  if isVetoed record then
    .note (skippedEntry record key) ((countSkipped config).bind fun _ => .done false)
  else writeRecord config record key

/-- What a call does once there is a connection. -/
def program (config : Config) : (call : Call) → Program call.Answer
  | connect => .done true
  | get now address chainId => withKey (config.recordKey address chainId) (getRecord now)
  | store record =>
    withKey (config.recordKey record.address record.chainId) (keepRecord config record)
  | delete address chainId =>
    withKey (config.recordKey address chainId) (deleteRecord config)
  | history now query => historyRecords config now query
  | stats => askStats config

/-- What a call does when there is no connection: a record that must not be kept is reported still.
-/
def unready (config : Config) (connection : Connection) :
    (call : Call) → Program (call.Answer × Connection)
  | store record =>
    if isVetoed record then
      .note (skippedEntry record (config.keyText record.address record.chainId))
        (.done ((store record).without config, connection))
    else .done ((store record).without config, connection)
  | call => .done (call.without config, connection)

/-- A record that has no key is not kept, and nothing is done. -/
theorem operation_of_barred {call : Call} (h : call.Barred) (connection : Connection) :
    call.operation config connection = .done (call.without config, connection) := by
  cases call with
  | store record =>
    have hkey : config.recordKey record.address record.chainId = .error .overlong :=
      recordKey_of_not_short h _
    rw [operation, store_of_no_key hkey, without, hkey]
    rfl
  | _ => exact h.elim

/-- Every other call asks for the connection first. -/
theorem operation_apply (config : Config) {call : Call} (h : ¬ call.Barred)
    (connection : Connection) :
    call.operation config connection =
      (ready config connection).bind fun found =>
        if found.1 then (call.program config).bind fun answer => .done (answer, found.2)
        else call.unready config found.2 := by
  cases call with
  | connect =>
    cases connection with
    | idle =>
      refine Eq.trans ?_ (Program.bind_assoc (openConnection config) _ _).symm
      refine congrArg (openConnection config).bind (funext fun opened => ?_)
      cases opened <;> rfl
    | _ => rfl
  | store record =>
    have hkey : config.recordKey record.address record.chainId =
        .ok (config.keyText record.address record.chainId) :=
      recordKey_of_short (Decidable.not_not.mp h) _
    refine (store_apply hkey connection).trans ?_
    refine congrArg (ready config connection).bind (funext fun found => ?_)
    obtain ⟨connected, connection⟩ := found
    let kept : Bool → Except Failure Bool := .ok
    have hanswer (p : Program Bool) :
        (p.bind fun value => .done (kept value, connection)) =
          (p.bind fun value => .done (kept value)).bind fun answer => .done (answer, connection) :=
      (Program.bind_assoc p (fun value => .done (kept value)) fun answer =>
        .done (answer, connection)).symm
    simp only [program, unready, without, keepRecord, hkey, withKey]
    cases hveto : isVetoed record with
    | false =>
      cases connected with
      | false => rfl
      | true => exact hanswer (writeRecord config record _)
    | true =>
      cases connected with
      | false => rfl
      | true =>
        refine congrArg (Program.note _) ((if_pos rfl).trans (Eq.trans ?_ (hanswer _)))
        exact (Program.bind_assoc (countSkipped config) (fun _ => .done false) fun value =>
          .done (kept value, connection)).symm
  | _ => exact whenReady_apply _ _ _ _

/-! ## Commands -/

/-- The commands that the program of a call may issue. -/
def Allows (config : Config) : Call → Command → Prop
  | connect, _ => False
  | get _ address chainId, command => command = .get (config.keyText address chainId)
  | store record, command =>
    command = .incr config.skippedKey ∨
      command = .set (config.keyText record.address record.chainId) record.encode
        (some config.seconds) ∨
      ∃ score, record.analyzedAt.seconds = .ok score ∧
        command = .zadd config.indexKey (config.keyText record.address record.chainId) score
  | delete address chainId, command =>
    command = .zrem config.indexKey (config.keyText address chainId) ∨
      command = .delete (config.keyText address chainId)
  | history .., command =>
    command = .zrevrange config.indexKey ∨
      ∃ key, command = .get key ∨ command = .zrem config.indexKey key
  | stats, command =>
    command = .info ∨ command = .get config.skippedKey ∨ command = .zcard config.indexKey

theorem issues_historyFrom (config : Config) (now : Timestamp) (query : Query)
    (keys : List String) (skipped : Int) (found : List AnalysisRecord) :
    (historyFrom config now query skipped found keys).Issues
      ((history now query).Allows config) := by
  induction keys generalizing skipped found with
  | nil => trivial
  | cons key keys ih =>
    refine ⟨.inr ⟨key, .inl rfl⟩, fun text => ?_⟩
    rcases text with _ | _ | text
    · trivial
    · refine ⟨.inr ⟨key, .inr rfl⟩, fun dropped => ?_⟩
      cases dropped with
      | error fault => trivial
      | ok _ => exact ih _ _
    · dsimp only
      split
      · trivial
      · split
        · exact ih _ _
        · split
          · exact ih _ _
          · split
            · trivial
            · exact ih _ _

theorem issues_getRecord {allowed : Command → Prop} (now : Timestamp) {key : String}
    (h : allowed (.get key)) : (getRecord now key).Issues allowed := by
  refine ⟨h, fun text => ?_⟩
  rcases text with _ | _ | text
  · trivial
  · trivial
  · dsimp only
    split <;> trivial

theorem issues_askStats (config : Config) : (askStats config).Issues (stats.Allows config) := by
  refine ⟨.inl rfl, fun facts => ?_⟩
  rcases facts with _ | facts
  · trivial
  refine ⟨.inr (.inl rfl), fun skipped => ?_⟩
  rcases skipped with _ | skipped
  · trivial
  refine ⟨.inr (.inr rfl), fun cached => ?_⟩
  rcases cached with _ | cached
  · trivial
  · dsimp only
    split <;> trivial

theorem issues_writeRecord {allowed : Command → Prop} (record : AnalysisRecord) {key : String}
    (hset : allowed (.set key record.encode (some config.seconds)))
    (hzadd : ∀ score, record.analyzedAt.seconds = .ok score →
      allowed (.zadd config.indexKey key score)) :
    (writeRecord config record key).Issues allowed := by
  rw [writeRecord]
  cases htext : record.encoded with
  | error reason => trivial
  | ok text =>
    rw [AnalysisRecord.encode_eq_of_encoded htext] at hset
    refine ⟨hset, fun written => ?_⟩
    cases written with
    | error fault => trivial
    | ok _ =>
      dsimp only
      cases hscore : record.analyzedAt.seconds with
      | error fault => trivial
      | ok score => exact ⟨hzadd score hscore, fun placed => by cases placed <;> trivial⟩

omit [Platform] in
/-- A program that needs a key issues what it issues with the key. -/
theorem issues_withKey {allowed : Command → Prop} {address : String} {chainId : Int}
    {program : String → Program α} (h : (program (config.keyText address chainId)).Issues allowed) :
    (withKey (config.recordKey address chainId) program).Issues allowed := by
  cases hkey : config.recordKey address chainId with
  | error failure => trivial
  | ok key =>
    rw [← (recordKey_eq_ok_iff.mp hkey).2]
    exact h.bind fun _ => trivial

/-- **The commands of a call** are those of its list, whatever they are answered. -/
theorem issues_program (config : Config) (call : Call) :
    (call.program config).Issues (call.Allows config) := by
  cases call with
  | connect => trivial
  | get now address chainId => exact issues_withKey (issues_getRecord now rfl)
  | store record =>
    refine issues_withKey ?_
    cases hveto : isVetoed record with
    | true =>
      simp only [keepRecord, hveto]
      exact ⟨.inl rfl, fun counted => by cases counted <;> trivial⟩
    | false =>
      simp only [keepRecord, hveto]
      exact issues_writeRecord record (.inr (.inl rfl)) fun score hscore =>
        .inr (.inr ⟨score, hscore, rfl⟩)
  | delete address chainId =>
    refine issues_withKey ⟨.inl rfl, fun dropped => ?_⟩
    cases dropped with
    | error fault => trivial
    | ok _ => exact ⟨.inr rfl, fun dropped => by cases dropped <;> trivial⟩
  | history now query =>
    refine ⟨.inl rfl, fun keys => ?_⟩
    cases keys with
    | error fault => trivial
    | ok keys => exact issues_historyFrom config now query keys _ _
  | stats => exact issues_askStats config

omit [Platform] in
theorem issues_unready (allowed : Command → Prop) (config : Config) (connection : Connection)
    (call : Call) : (call.unready config connection).Issues allowed := by
  cases call with
  | store record =>
    rw [unready]
    split <;> trivial
  | _ => trivial

/-- Besides the commands of its program, a call issues those that open the connection. -/
theorem issues_operation {allowed : Command → Prop} {call : Call}
    (hconnect : allowed (.connect config.url)) (hping : allowed .ping)
    (h : (call.program config).Issues allowed) (connection : Connection) :
    (call.operation config connection).Issues allowed := by
  by_cases hbarred : call.Barred
  · rw [operation_of_barred hbarred]
    trivial
  rw [operation_apply config hbarred]
  refine Program.Issues.bind ?_ fun found => ?_
  · cases connection with
    | disabled | active => trivial
    | idle =>
      refine ⟨hconnect, fun opened => ?_⟩
      cases opened with
      | error fault => trivial
      | ok _ => exact ⟨hping, fun alive => by cases alive <;> trivial⟩
  · split
    · exact h.bind fun _ => trivial
    · exact issues_unready allowed config found.2 call

/-- While no command fails and the cache is in use, a call does what its program does, on an open
connection. -/
theorem run_operation_calm (config : Config) {call : Call} (hbarred : ¬ call.Barred)
    {connection : Connection} (h : connection ≠ .disabled) (server : Server) :
    ∃ ready : Server, ready.store = server.store ∧
      (server.run .calm (call.operation config connection)).1 =
        ((ready.run .calm (call.program config)).1, .active) ∧
      (server.run .calm (call.operation config connection)).2.2 =
        (ready.run .calm (call.program config)).2.2 := by
  rw [operation_apply config hbarred]
  exact run_bind_ready_calm config h server rfl

end Call

/-! ## Clients -/

/-- A client of a store: the server it talks to, and its connection. -/
structure Client where
  /-- The server. -/
  server : Server := {}
  /-- The connection. -/
  connection : Connection := .idle

/-- What happens to a client. -/
inductive Event where
  /-- It is called. -/
  | call (call : Call)
  /-- It is closed. -/
  | close
  /-- The time of a key is over. -/
  | lapse (key : String)
  /-- What the store holds is changed by others, to anything. -/
  | change (store : Store)

namespace Client

/-- The answer of a client to a call. -/
def answer (config : Config) (schedule : Schedule) (client : Client) (call : Call) : call.Answer :=
  (client.server.run schedule (call.operation config client.connection)).1.1

/-- The commands of a call that fail. -/
def failed (config : Config) (schedule : Schedule) (client : Client) (call : Call) :
    List Command :=
  client.server.failed schedule (call.operation config client.connection)

/-- The client after an operation. -/
def perform (schedule : Schedule) (client : Client) (operation : Operation α) : Client :=
  let result := client.server.run schedule (operation client.connection)
  ⟨result.2.2, result.1.2⟩

/-- The client after one event. -/
def step (config : Config) (schedule : Schedule) (client : Client) : Event → Client
  | .call call => client.perform schedule (call.operation config)
  | .close => client.perform schedule tryClose
  | .lapse key =>
    { client with server := { client.server with store := client.server.store.erase key } }
  | .change store => { client with server := { client.server with store := store } }

/-- The client after some events. -/
def after (config : Config) (schedule : Schedule) (client : Client) (events : List Event) :
    Client :=
  events.foldl (step config schedule) client

end Client

end ContractLens.Cache
