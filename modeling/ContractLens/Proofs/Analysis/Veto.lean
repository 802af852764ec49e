import ContractLens.Proofs.Analysis.Desk
import ContractLens.Proofs.Cache.RoundTrip
import ContractLens.Proofs.Cache.Skipped
import ContractLens.Proofs.Cache.Vetted
/-!
# The veto over whole runs

Nothing that is done with the cache, in whatever order and with whatever commands failing, puts a
record of an upgradeable contract into it. `House.act_keeps` is the step: one operation, or one call
for the contract at an address, keeps the store vetted and gives out nothing upgradeable. A run is
its steps one after the other (`House.actAll_keeps`).

What holds at the end of every run holds at every moment of a run. A schedule that is cut off at
some command leaves the store as it was at that moment (`Server.exists_until_of_visits`), and a cut
schedule is one more schedule.

A text that is no record may lie under a record's key, and then it stays there; and a record of a
chain whose number is too long to be written is not refused, since keeping it fails
(`unrefused_of_endless`).
-/

namespace ContractLens

open Cache

/-! ## What a service keeps -/

namespace Service

variable [Platform] {α β : Type} {inv : Store → Prop}

/-- A service that preserves an invariant of the store. -/
def Keeps (inv : Store → Prop) (m : Service α) : Prop :=
  ∀ desk : Desk, inv desk.server.store → inv (m.run desk).2.server.store

omit [Platform] in
theorem Offline.keeps {m : Service α} (h : m.Offline) : m.Keeps inv := by
  intro desk hs
  rwa [(h desk).1]

omit [Platform] in
theorem Keeps.bind {m : Service α} {f : α → Service β} (hm : m.Keeps inv)
    (hf : ∀ a, (f a).Keeps inv) : (m >>= f).Keeps inv := by
  intro desk hs
  have hafter := hm desk hs
  rw [run_bind]
  cases h : m.run desk with
  | mk result after =>
    rw [h] at hafter
    cases result with
    | error failure => exact hafter
    | ok a => exact hf a after hafter

omit [Platform] in
theorem keeps_cached {office : Office} {operation : Operation α} {post : α × Connection → Prop}
    (h : ∀ connection, (operation connection).Keeps inv post) :
    (cached office operation).Keeps inv := by
  intro desk hs
  exact (Server.run_of_keeps (h desk.connection) office.schedule hs).1

omit [Platform] in
theorem keeps_asked {office : Office} {operation : Operation (Except Failure α)}
    {post : Except Failure α × Connection → Prop}
    (h : ∀ connection, (operation connection).Keeps inv post) :
    (asked office operation).Keeps inv :=
  (keeps_cached h).bind fun result => (offline_ofExcept result).keeps

end Service

namespace Office

open Service

variable [Platform] {config : Config}

theorem keeps_lookUp (office : Office) (name : String) (chainId : Int) (address : String) :
    (office.lookUp config name chainId address).Keeps (Vetted config) := by
  refine (keeps_asked fun connection => keeps_get _ _ _ connection).bind fun found => ?_
  cases found with
  | some record => exact ((offline_traced _).bind fun _ => offline_pure record).keeps
  | none =>
    refine (office.offline_fetchAndAnalyze name chainId address).keeps.bind fun record => ?_
    exact (keeps_asked fun connection => keeps_store record connection).bind fun _ =>
      (offline_pure record).keeps

/-- A call for the contract at an address keeps the store vetted. -/
theorem keeps_analyzeAddress {office : Office} (hcache : office.cache = some config)
    (around : Option String) (chainId : Int) (address : String) (useCache : Bool) :
    (office.analyzeAddress around chainId address useCache).Keeps (Vetted config) := by
  cases useCache with
  | false => exact (office.offline_analyzeAddress around chainId address).keeps
  | true =>
    refine (offline_ofExcept _).keeps.bind fun _ => ?_
    refine (offline_nameFor office around).keeps.bind fun name => ?_
    rw [hcache]
    exact office.keeps_lookUp name chainId address

theorem notUpgradeable_hit? (office : Office) (hcache : office.cache = some config)
    (chainId : Int) (address : String) (useCache : Bool) {desk : Desk}
    (h : Vetted config desk.server.store) :
    NotUpgradeable (office.hit? chainId address useCache desk) := by
  intro record hrecord
  obtain ⟨-, -, found, hfound, hget⟩ := exists_of_hit? hrecord
  cases hcache.symm.trans hfound
  exact (Server.run_of_keeps (keeps_get office.bench.now address chainId desk.connection)
    office.schedule h).2 (some record) hget record rfl

end Office

/-! ## Runs -/

/-- One thing that is done with a cache. -/
inductive Action where
  /-- A record is handed to it. -/
  | store (record : AnalysisRecord)
  /-- A record is asked for. -/
  | get (now : Timestamp) (address : String) (chainId : Int)
  /-- A record is dropped. -/
  | delete (address : String) (chainId : Int)
  /-- The history is asked for. -/
  | history (now : Timestamp) (query : Query)
  /-- The use is asked for. -/
  | stats
  /-- The connection is closed. -/
  | close
  /-- The time of a key is over. -/
  | lapse (key : String)
  /-- The contract at an address is asked for, at a bench, perhaps past the cache. -/
  | analyze (bench : Workbench) (around : Option String) (chainId : Int) (address : String)
    (useCache : Bool)

/-- What does not change from one action to the next. -/
structure House where
  /-- The cache that is used. -/
  config : Config
  /-- Which commands to it fail. -/
  schedule : Schedule
  /-- The fresh name made from the count of those given before. -/
  fresh : Nat → String

namespace House

section Runs

variable [Platform] (house : House)

/-- The house whose connection is lost for good once so many commands were issued. -/
def cutAt (moment : Nat) : House := { house with schedule := house.schedule.until moment }

/-- The office that works at a bench. -/
def office (bench : Workbench) : Office := ⟨bench, some house.config, house.schedule, house.fresh⟩

/-- Runs an operation of the cache at the desk. -/
def operate {α : Type} (operation : Operation α) (desk : Desk) : α × Desk :=
  let ((value, connection), entries, server) := desk.server.run house.schedule
    (operation desk.connection)
  (value, { desk with
    server := server
    connection := connection
    trace := { desk.trace with entries := desk.trace.entries ++ entries } })

/-- Does one thing, and gives the records that came out of the cache. -/
def act (desk : Desk) : Action → List AnalysisRecord × Desk
  | .store record => ([], (house.operate (Cache.store house.config record) desk).2)
  | .get now address chainId =>
    let (found, desk) := house.operate (Cache.get house.config now address chainId) desk
    (found.toOption.join.toList, desk)
  | .delete address chainId =>
    ([], (house.operate (Cache.delete house.config address chainId) desk).2)
  | .history now query => house.operate (Cache.history house.config now query) desk
  | .stats => ([], (house.operate (Cache.stats house.config) desk).2)
  | .close => ([], (house.operate Cache.close desk).2)
  | .lapse key =>
    ([], { desk with server := { desk.server with store := desk.server.store.erase key } })
  | .analyze bench around chainId address useCache =>
    (((house.office bench).hit? chainId address useCache desk).toList,
      (((house.office bench).analyzeAddress around chainId address useCache).run desk).2)

/-- Does one thing after the other. -/
def actAll (desk : Desk) : List Action → List AnalysisRecord × Desk
  | [] => ([], desk)
  | action :: actions =>
    let (found, desk) := house.act desk action
    let (others, desk) := actAll desk actions
    (found ++ others, desk)

variable {desk : Desk}

omit [Platform] in
theorem keeps_operate {α : Type} {operation : Operation α} {post : α × Connection → Prop}
    {inv : Store → Prop} (h : (operation desk.connection).Keeps inv post)
    (hs : inv desk.server.store) :
    inv (house.operate operation desk).2.server.store ∧
      ∃ connection, post ((house.operate operation desk).1, connection) := by
  obtain ⟨hinv, hpost⟩ := Server.run_of_keeps h house.schedule hs
  exact ⟨hinv, _, hpost⟩

omit [Platform] in
theorem exists_of_mem_join {found : Except Failure (Option AnalysisRecord)}
    {record : AnalysisRecord} (h : record ∈ found.toOption.join.toList) :
    ∃ kept, found = .ok kept ∧ record ∈ kept := by
  cases found with
  | error failure => cases h
  | ok kept => exact ⟨kept, rfl, Option.mem_toList.mp h⟩

/-- **One action keeps the store vetted and gives out nothing upgradeable.** -/
theorem act_keeps (h : Vetted house.config desk.server.store) (action : Action) :
    Vetted house.config (house.act desk action).2.server.store ∧
      NoneUpgradeable (house.act desk action).1 := by
  cases action with
  | store record =>
    exact ⟨(keeps_operate house (keeps_store record desk.connection) h).1, noneUpgradeable_nil⟩
  | get now address chainId =>
    obtain ⟨hvetted, _, hfound⟩ :=
      keeps_operate house (keeps_get now address chainId desk.connection) h
    refine ⟨hvetted, fun record hrecord => ?_⟩
    obtain ⟨kept, hkept, hrecord⟩ := exists_of_mem_join hrecord
    exact hfound kept hkept record hrecord
  | delete address chainId =>
    exact ⟨(keeps_operate house (keeps_delete address chainId desk.connection) h).1,
      noneUpgradeable_nil⟩
  | history now query =>
    obtain ⟨hvetted, _, hfound⟩ :=
      keeps_operate house (keeps_history now query desk.connection) h
    exact ⟨hvetted, hfound⟩
  | stats => exact ⟨(keeps_operate house (keeps_stats desk.connection) h).1, noneUpgradeable_nil⟩
  | close => exact ⟨(keeps_operate house (keeps_close desk.connection) h).1, noneUpgradeable_nil⟩
  | lapse key => exact ⟨h.erase key, noneUpgradeable_nil⟩
  -- a call only gives out what it was given by the cache
  | analyze bench around chainId address useCache =>
    have hhit := Office.notUpgradeable_hit? (house.office bench) rfl chainId address
      useCache h
    exact ⟨(house.office bench).keeps_analyzeAddress rfl around chainId address useCache desk h,
      fun record hrecord => hhit record (Option.mem_toList.mp hrecord)⟩

/-- A run keeps the store vetted and gives out nothing upgradeable. -/
theorem actAll_keeps (h : Vetted house.config desk.server.store) (actions : List Action) :
    Vetted house.config (house.actAll desk actions).2.server.store ∧
      NoneUpgradeable (house.actAll desk actions).1 := by
  induction actions generalizing desk with
  | nil => exact ⟨h, noneUpgradeable_nil⟩
  | cons action actions ih =>
    obtain ⟨hstep, hfound⟩ := act_keeps house h action
    obtain ⟨hlast, hothers⟩ := ih hstep
    refine ⟨hlast, fun record hrecord => ?_⟩
    rcases List.mem_append.mp hrecord with hrecord | hrecord
    · exact hfound record hrecord
    · exact hothers record hrecord

/-- What becomes of a record that must not be kept when it is handed to the cache. -/
structure Refuses (record : AnalysisRecord) (desk : Desk) : Prop where
  /-- The answer is that it was not written. -/
  answer : Json.Short record.chainId →
    (house.operate (Cache.store house.config record) desk).1 = .ok false
  /-- At every moment nothing was written but, perhaps, one more refusal. -/
  store : Json.Short record.chainId → ∀ server,
    desk.server.Visits house.schedule (Cache.store house.config record desk.connection) server →
    Refused house.config desk.server.store server.store
  /-- For a chain whose number is too long nothing is done at all, and keeping the record fails. -/
  overlong : ¬ Json.Short record.chainId →
    house.operate (Cache.store house.config record) desk = (.error .overlong, desk)

theorem refuses_of_vetoed {record : AnalysisRecord} (h : isVetoed record = true) (desk : Desk) :
    house.Refuses record desk where
  answer hshort := (refused_of_vetoed h (recordKey_of_short hshort record.address) house.schedule
    desk.server desk.connection).1
  -- a record is refused on every schedule, the ones that are cut off among them
  store hshort server hvisits := by
    obtain ⟨moment, -, hstore⟩ := Server.exists_until_of_visits hvisits
    rw [← hstore]
    exact (refused_of_vetoed h (recordKey_of_short hshort record.address)
      (house.schedule.until moment) desk.server desk.connection).2
  overlong hlong := by
    rw [operate, run_store_of_no_key (recordKey_of_not_short hlong record.address)]
    simp

theorem holdsNoRecord_empty (config : Config) : HoldsNoRecord config {} :=
  ⟨fun _ _ _ _ => rfl, fun _ _ htext => absurd htext nofun⟩

end Runs

/-- A house where no command fails, with records kept for a day. -/
def calmHouse : House := ⟨dayConfig, .calm, fun _ => "scope"⟩

/-- A store that holds no record, and a text under a record's key. -/
def litteredStore : Store := { texts := [(dayConfig.keyText "0xab" 1, "not json")] }

/-- A record of an upgradeable contract on a chain with too long a number. -/
def endlessRecord : AnalysisRecord :=
  { factoryRecord with isUpgradeable := true, chainId := endless }

/-- The text of a record begins with a brace. -/
theorem exists_encode_toList (record : AnalysisRecord) :
    ∃ rest, record.encode.toList = '\x7b' :: rest := by
  rw [AnalysisRecord.encode, Json.write, String.toList_ofList, AnalysisRecord.toJson, Json.writeAt,
    Json.writeMembers, Json.bracketed]
  exact ⟨_, rfl⟩

end House

end ContractLens
