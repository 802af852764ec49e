import ContractLens.Proofs.Analysis.Desk
/-!
# Scopes inside each other

Work in scopes opens them, leaves them and analyses contracts in them, in whatever order and with
failures anywhere. What can be seen of it is nested (`Nested`): a scope has its own name, or else
the one around it, or else a fresh one; the name is the same all through the scope and an analysis
in it, and when the scope is left, by a failure or not, the name from before is back.

`Scoped.unwinds_within` is the step, `Routine.unwinds_run` the whole run. A call made in scopes is
the call of a service that is handed the current name (`Scoped.follows_analyzeAddress`).
-/

namespace ContractLens

variable {α β : Type}

/-! ## Work in scopes -/

/-- What can be seen of work in scopes. -/
inductive Sight where
  /-- A scope was opened, with a name of its own or without one; the current name in it. -/
  | opened (own current : Option String)
  /-- The current name was asked for. -/
  | asked (current : Option String)
  /-- An analysis ended with a record under the current name. -/
  | analysed (current : Option String) (record : AnalysisRecord)
  /-- A scope was left, by a failure or not; the current name after it. -/
  | left (failed : Bool) (current : Option String)

/-- The name that was current then. -/
def Sight.current : Sight → Option String
  | opened _ current => current
  | asked current => current
  | analysed current _ => current
  | left _ current => current

/-- A desk with the scopes that are open at it. -/
structure Station where
  /-- The names of the open scopes, the innermost first. -/
  names : List String := []
  /-- The desk. -/
  desk : Desk := {}
  /-- What was seen so far. -/
  sights : List Sight := []

namespace Station

/-- The scopes that are open. -/
def scopes (station : Station) : Log.Scopes := ⟨station.names, station.desk.given⟩

/-- The current name. -/
def current (station : Station) : Option String := station.scopes.current

/-- Opens or leaves scopes. -/
def withScopes (station : Station) (scopes : Log.Scopes) : Station :=
  { station with names := scopes.names, desk := { station.desk with given := scopes.given } }

/-- Sees something under the current name. -/
def see (station : Station) (sight : Option String → Sight) : Station :=
  { station with sights := station.sights ++ [sight station.current] }

end Station

/-- Work in scopes, which may fail; what was done before a failure stays done. -/
abbrev Scoped := ExceptT Failure (StateM Station)

namespace Scoped

/-- Does what a service does, in the scopes that are open. -/
def atDesk (service : Service α) : Scoped α := ExceptT.mk fun station =>
  let (result, desk) := service.run station.desk
  (result, { station with desk := desk })

/-- Sees something under the current name. -/
def see (sight : Option String → Sight) : Scoped Unit :=
  ExceptT.lift fun station => ((), station.see sight)

/-- Work in a scope, which is handed the name of the scope. The scope is left at the end, by a
failure or not. -/
def within (office : Office) (own : Option String) (body : String → Scoped α) : Scoped α :=
  ExceptT.mk fun station =>
    let name := Log.Scopes.choose own station.current (office.fresh station.desk.given)
    let inside := station.withScopes (station.scopes.enter office.fresh own)
    let (result, after) := (body name).run (inside.see (.opened own))
    (result, (after.withScopes after.scopes.leave).see (.left !result.isOk))

/-- Analyses an input in a scope without a name of its own. -/
def analyze (office : Office) (input : AnalysisInput) : Scoped AnalysisRecord :=
  within office none fun name => do
    let record ← atDesk (Service.traced (office.bench.analyze name input))
    see (.analysed · record)
    return record

/-- Analyses the input that a value stands for. -/
def analyzeValue (office : Office) (value : Json) : Scoped AnalysisRecord :=
  match AnalysisInput.read value with
  | .accepted input => analyze office input
  | .refused problems => throw (.refused Office.inputModel problems)

/-- Fetches and analyses the contract at an address, past the cache. -/
def fetchAndAnalyze [Platform] (office : Office) (chainId : Int) (address : String) :
    Scoped AnalysisRecord := do
  analyze office (← atDesk (office.fetch chainId address))

/-- The record of the contract at an address: the one in the cache, or a new one that is handed to
the cache. -/
def lookUp [Platform] (office : Office) (config : Cache.Config) (chainId : Int) (address : String) :
    Scoped AnalysisRecord := do
  match ← atDesk (Service.asked office (Cache.get config office.bench.now address chainId)) with
  | some record =>
    atDesk (Service.traced (Traced.note (Office.hitEntry chainId address)))
    return record
  | none =>
    let record ← fetchAndAnalyze office chainId address
    let _ ← atDesk (Service.asked office (Cache.store config record))
    return record

/-- Analyses the contract at an address in a scope without a name of its own; the analysis opens
one more inside it. -/
def analyzeAddress [Platform] (office : Office) (chainId : Int) (address : String)
    (useCache : Bool) : Scoped AnalysisRecord := do
  let _ ← atDesk (Service.ofExcept (Address.validate address))
  within office none fun _ =>
    match if useCache then office.cache else none with
    | some config => lookUp office config chainId address
    | none => fetchAndAnalyze office chainId address

end Scoped

/-! ## Routines -/

/-- A call that analyses a contract. -/
inductive Call where
  /-- Of an input. -/
  | ofInput (input : AnalysisInput)
  /-- Of a value that may stand for an input. -/
  | ofValue (value : Json)
  /-- Of the contract at an address. -/
  | atAddress (chainId : Int) (address : String) (useCache : Bool)

namespace Call

/-- The call in the scopes that are open. -/
def run [Platform] (office : Office) : Call → Scoped AnalysisRecord
  | ofInput input => Scoped.analyze office input
  | ofValue value => Scoped.analyzeValue office value
  | atAddress chainId address useCache => Scoped.analyzeAddress office chainId address useCache

/-- The call as a service that is handed the name around it. -/
def service [Platform] (office : Office) (around : Option String) : Call → Service AnalysisRecord
  | ofInput input => office.analyze around input
  | ofValue value => office.analyzeValue around value
  | atAddress chainId address useCache => office.analyzeAddress around chainId address useCache

end Call

/-- Scopes inside each other, with calls in them. What is done next may depend on the record that
was returned last, if there is one, and on the failure that is caught. -/
inductive Routine where
  /-- Asks for the current name. -/
  | ask
  /-- Fails. -/
  | fail (failure : Failure)
  /-- Makes a call. -/
  | make (call : Call)
  /-- Does something in a scope with a name of its own or without one. -/
  | within (own : Option String) (body : Routine)
  /-- Does one thing and then another. -/
  | andThen (first : Routine) (next : Option AnalysisRecord → Routine)
  /-- Does one thing, and another if it fails. -/
  | orElse (body : Routine) (handle : Failure → Routine)

/-- Runs a routine. -/
def Routine.run [Platform] (office : Office) : Routine → Scoped (Option AnalysisRecord)
  | ask => do
    Scoped.see .asked
    return none
  | fail failure => throw failure
  | make call => some <$> call.run office
  | within own body => Scoped.within office own fun _ => body.run office
  | andThen first next => first.run office >>= fun found => (next found).run office
  | orElse body handle => tryCatch (body.run office) fun failure => (handle failure).run office

/-! ## Nested sights -/

/-- How a scope gets its name, by the name around it, its own and how many fresh ones were given
before, and how many were given then. -/
inductive Named (fresh : Nat → String) : Option String → Option String → Nat → String → Nat → Prop
  /-- A scope that is opened with a name has that one. -/
  | own {around : Option String} {given : Nat} {name : String} (h : name ≠ "") :
    Named fresh around (some name) given name given
  /-- One that is opened without goes on under the name around it. -/
  | enclosing {own : Option String} {given : Nat} {name : String} (h : own.getD "" = "") :
    Named fresh (some name) own given name given
  /-- Outermost it gets the next fresh name. -/
  | fresh {own : Option String} {given : Nat} (h : own.getD "" = "") :
    Named fresh none own given (fresh given) (given + 1)

/-- Sights under a name that are nested, with how many fresh names were given before and after. -/
inductive Nested (fresh : Nat → String) : Option String → Nat → List Sight → Nat → Prop
  /-- Nothing is seen. -/
  | nil {around : Option String} {given : Nat} : Nested fresh around given [] given
  /-- The name that is asked for is the one around. -/
  | asked {around : Option String} {given last : Nat} {rest : List Sight}
    (hrest : Nested fresh around given rest last) :
    Nested fresh around given (.asked around :: rest) last
  /-- An analysis is made in a scope without a name of its own, and its record carries the name. -/
  | analysis {around : Option String} {name : String} {given opened last : Nat}
    {record : AnalysisRecord} {rest : List Sight}
    (hname : Named fresh around none given name opened) (hrecord : record.analysisId = name)
    (hrest : Nested fresh around opened rest last) :
    Nested fresh around given (.opened none (some name) :: .analysed (some name) record ::
      .left false around :: rest) last
  /-- What is seen in a scope is nested under its name, and the name around comes back. -/
  | scope {around own : Option String} {name : String} {given opened closed last : Nat}
    {body rest : List Sight} {failed : Bool} (hname : Named fresh around own given name opened)
    (hbody : Nested fresh (some name) opened body closed)
    (hrest : Nested fresh around closed rest last) : Nested fresh around given
      (.opened own (some name) :: (body ++ .left failed around :: rest)) last

section Nested

variable {fresh : Nat → String} {around own : Option String} {given middle last : Nat}
  {first next : List Sight}

theorem choose_of_unnamed (h : own.getD "" = "") (around : Option String) (name : String) :
    Log.Scopes.choose own around name = around.getD name := by
  cases own with
  | none => rfl
  | some own =>
    obtain rfl : own = "" := h
    rfl

theorem named_choose (fresh : Nat → String) (own around : Option String) (given : Nat) :
    Named fresh around own given (Log.Scopes.choose own around (fresh given))
      (if Log.Scopes.needsFresh own around then given + 1 else given) := by
  by_cases hown : own.getD "" = ""
  · rw [choose_of_unnamed hown, Log.Scopes.needsFresh, hown]
    cases around with
    | none => exact .fresh hown
    | some name => exact .enclosing hown
  · cases own with
    | none => exact absurd rfl hown
    | some name =>
      have hempty : name.isEmpty = false := Bool.eq_false_iff.mpr (mt String.isEmpty_iff.mp hown)
      rw [Log.Scopes.choose, Log.Scopes.needsFresh, Option.getD_some, hempty, Bool.and_false]
      exact .own hown

/-- Sights one after the other are nested if both are. -/
theorem Nested.append (hfirst : Nested fresh around given first middle)
    (hnext : Nested fresh around middle next last) :
    Nested fresh around given (first ++ next) last := by
  induction hfirst with
  | nil => exact hnext
  | asked _ ih => exact .asked (ih hnext)
  | analysis hname hrecord _ ih => exact .analysis hname hrecord (ih hnext)
  | scope hname hbody _ _ ih =>
    rw [List.cons_append, List.append_assoc, List.cons_append]
    exact .scope hname hbody (ih hnext)

theorem Named.ne_empty {name : String} (h : Named fresh around own given name middle)
    (hfresh : ∀ given, fresh given ≠ "") (haround : around ≠ some "") : some name ≠ some "" := by
  cases h with
  | own hname => exact mt Option.some.inj hname
  | enclosing => exact haround
  | fresh => exact mt Option.some.inj (hfresh given)

/-- **Nested sights show no empty name** where none is around and no fresh one is empty. -/
theorem Nested.current_ne {sights : List Sight} (h : Nested fresh around given sights last)
    (hfresh : ∀ given, fresh given ≠ "") (haround : around ≠ some "") :
    ∀ sight ∈ sights, sight.current ≠ some "" := by
  induction h with
  | nil => exact fun _ hsight => absurd hsight List.not_mem_nil
  | asked _ ih => exact List.forall_mem_cons.mpr ⟨haround, ih haround⟩
  | analysis hname _ _ ih =>
    have hinside := hname.ne_empty hfresh haround
    exact List.forall_mem_cons.mpr ⟨hinside, List.forall_mem_cons.mpr ⟨hinside,
      List.forall_mem_cons.mpr ⟨haround, ih haround⟩⟩⟩
  | scope hname _ _ hbody hrest =>
    have hinside := hname.ne_empty hfresh haround
    exact List.forall_mem_cons.mpr ⟨hinside, List.forall_mem_append.mpr ⟨hbody hinside,
      List.forall_mem_cons.mpr ⟨haround, hrest haround⟩⟩⟩

end Nested

/-! ## Work that unwinds -/

namespace Service

/-- A service that gives no fresh name. -/
def Nameless (m : Service α) : Prop := ∀ desk : Desk, (m.run desk).2.given = desk.given

theorem nameless_traced (run : Traced α) : (traced run).Nameless := fun _ => rfl

theorem nameless_asked (office : Office) (operation : Cache.Operation (Except Failure α)) :
    (asked office operation).Nameless := by
  intro desk
  rw [run_asked]
  rfl

theorem nameless_ofExcept (result : Except Failure α) : (ofExcept result).Nameless := by
  cases result with
  | ok a => exact fun _ => rfl
  | error failure => exact fun _ => rfl

theorem nameless_attempt (run : Attempt α) : (attempt run).Nameless := by
  intro desk
  rw [attempt, run_bind_of_ok (m := traced run.run) (s := desk) rfl]
  exact nameless_ofExcept _ _

end Service

theorem Workbench.analysisId_analyze (bench : Workbench) (id : String) (input : AnalysisInput)
    (trace : Trace) : ((bench.analyze id input).run trace).1.analysisId = id := by
  cases input with
  | verified input => rfl
  | bytecode input => rfl

/-- The scopes are as they were before, and what was seen since is nested. -/
structure Unwound (fresh : Nat → String) (before after : Station) : Prop where
  /-- The open scopes are those from before. -/
  names : after.names = before.names
  /-- What was seen is nested under the name from before. -/
  sights : ∃ sights, after.sights = before.sights ++ sights ∧
    Nested fresh before.current before.desk.given sights after.desk.given

theorem Unwound.current {fresh : Nat → String} {before after : Station}
    (h : Unwound fresh before after) : after.current = before.current :=
  congrArg List.head? h.names

theorem unwound_refl (fresh : Nat → String) (station : Station) : Unwound fresh station station :=
  ⟨rfl, [], (List.append_nil _).symm, .nil⟩

theorem Unwound.trans {fresh : Nat → String} {before between after : Station}
    (h : Unwound fresh before between) (hnext : Unwound fresh between after) :
    Unwound fresh before after := by
  obtain ⟨first, hfirst, hnested⟩ := h.sights
  obtain ⟨next, hsights, hthen⟩ := hnext.sights
  rw [h.current] at hthen
  refine ⟨hnext.names.trans h.names, first ++ next, ?_, hnested.append hthen⟩
  rw [hsights, hfirst, List.append_assoc]

namespace Scoped

/-- Work that leaves the scopes as they were, however it ends, and is nested. -/
def Unwinds (office : Office) (m : Scoped α) : Prop :=
  ∀ station, Unwound office.fresh station (m.run station).2

variable {office : Office}

theorem unwinds_pure (a : α) : Unwinds office (pure a : Scoped α) :=
  unwound_refl office.fresh

theorem unwinds_throw (failure : Failure) : Unwinds office (throw failure : Scoped α) :=
  unwound_refl office.fresh

theorem unwinds_ask : Unwinds office (see .asked) :=
  fun _ => ⟨rfl, _, rfl, .asked .nil⟩

theorem unwinds_atDesk {service : Service α} (h : service.Nameless) :
    Unwinds office (atDesk service) := by
  intro station
  refine ⟨rfl, [], (List.append_nil _).symm, ?_⟩
  show Nested _ _ _ _ (service.run station.desk).2.given
  rw [h]
  exact .nil

theorem Unwinds.bind {m : Scoped α} {f : α → Scoped β} (hm : Unwinds office m)
    (hf : ∀ a, Unwinds office (f a)) : Unwinds office (m >>= f) := by
  intro station
  have hafter := hm station
  rw [run_bind]
  cases h : m.run station with
  | mk result after =>
    rw [h] at hafter
    cases result with
    | error failure => exact hafter
    | ok a => exact hafter.trans (hf a after)

theorem Unwinds.map {m : Scoped α} (hm : Unwinds office m) (f : α → β) :
    Unwinds office (f <$> m) := by
  rw [← bind_pure_comp]
  exact hm.bind fun a => unwinds_pure (f a)

theorem unwinds_tryCatch {m : Scoped α} {handle : Failure → Scoped α} (hm : Unwinds office m)
    (hhandle : ∀ failure, Unwinds office (handle failure)) :
    Unwinds office (tryCatch m handle) := by
  intro station
  have hafter := hm station
  rw [run_tryCatch]
  cases h : m.run station with
  | mk result after =>
    rw [h] at hafter
    cases result with
    | ok a => exact hafter
    | error failure => exact hafter.trans (hhandle failure after)

/-- **A scope is left as it was opened**, whatever name it has and however what is done in it
ends. -/
theorem unwinds_within (own : Option String) {body : String → Scoped α}
    (h : ∀ name, Unwinds office (body name)) : Unwinds office (within office own body) := by
  intro station
  let name := Log.Scopes.choose own station.current (office.fresh station.desk.given)
  let inside := (station.withScopes (station.scopes.enter office.fresh own)).see (.opened own)
  let result := ((body name).run inside).1
  let after := ((body name).run inside).2
  have hbody : Unwound office.fresh inside after := h name inside
  -- the body gives the names back, so that leaving drops the one that was put on top of them
  have hnames : after.names.tail = station.names := congrArg List.tail hbody.names
  obtain ⟨sights, hsights, hnested⟩ := hbody.sights
  refine ⟨hnames, .opened own (some name) :: (sights ++ [.left (!result.isOk) station.current]),
    ?_, .scope (named_choose office.fresh own station.current station.desk.given) hnested .nil⟩
  show after.sights ++ [.left (!result.isOk) after.names.tail.head?] = _
  rw [hsights, hnames]
  show station.sights ++ [_] ++ sights ++ _ = _
  rw [List.append_assoc, List.append_assoc]
  rfl

/-- **An analysis is nested, and its record has the name of its scope.** -/
theorem unwinds_analyze (input : AnalysisInput) : Unwinds office (analyze office input) := by
  intro station
  let name := Log.Scopes.choose none station.current (office.fresh station.desk.given)
  let record := ((office.bench.analyze name input).run station.desk.trace).1
  refine ⟨rfl, [.opened none (some name), .analysed (some name) record,
    .left false station.current], ?_, .analysis (named_choose office.fresh none station.current
      station.desk.given) (office.bench.analysisId_analyze name input station.desk.trace) .nil⟩
  show station.sights ++ [_] ++ [_] ++ [_] = _
  rw [List.append_assoc, List.append_assoc]
  rfl

theorem unwinds_analyzeValue (value : Json) : Unwinds office (analyzeValue office value) := by
  rw [analyzeValue]
  split
  · exact unwinds_analyze _
  · exact unwinds_throw _

theorem unwinds_fetchAndAnalyze [Platform] (chainId : Int) (address : String) :
    Unwinds office (fetchAndAnalyze office chainId address) :=
  (unwinds_atDesk (Service.nameless_attempt _)).bind unwinds_analyze

theorem unwinds_lookUp [Platform] (config : Cache.Config) (chainId : Int) (address : String) :
    Unwinds office (lookUp office config chainId address) := by
  refine (unwinds_atDesk (Service.nameless_asked office _)).bind fun found => ?_
  cases found with
  | some record =>
    exact (unwinds_atDesk (Service.nameless_traced _)).bind fun _ => unwinds_pure record
  | none =>
    exact (unwinds_fetchAndAnalyze chainId address).bind fun record =>
      (unwinds_atDesk (Service.nameless_asked office _)).bind fun _ => unwinds_pure record

theorem unwinds_analyzeAddress [Platform] (chainId : Int) (address : String) (useCache : Bool) :
    Unwinds office (analyzeAddress office chainId address useCache) := by
  refine (unwinds_atDesk (Service.nameless_ofExcept _)).bind fun _ =>
    unwinds_within none fun _ => ?_
  split
  · exact unwinds_lookUp _ chainId address
  · exact unwinds_fetchAndAnalyze chainId address

end Scoped

theorem Call.unwinds_run [Platform] (office : Office) (call : Call) :
    Scoped.Unwinds office (call.run office) := by
  cases call with
  | ofInput input => exact Scoped.unwinds_analyze input
  | ofValue value => exact Scoped.unwinds_analyzeValue value
  | atAddress chainId address useCache =>
    exact Scoped.unwinds_analyzeAddress chainId address useCache

/-- **Every routine unwinds.** -/
theorem Routine.unwinds_run [Platform] (office : Office) (routine : Routine) :
    Scoped.Unwinds office (routine.run office) := by
  induction routine with
  | ask => exact Scoped.unwinds_ask.bind fun _ => Scoped.unwinds_pure none
  | fail failure => exact Scoped.unwinds_throw failure
  | make call => exact (call.unwinds_run office).map some
  | within own body ih => exact Scoped.unwinds_within own fun _ => ih
  | andThen first next hfirst hnext => exact hfirst.bind hnext
  | orElse body handle hbody hhandle => exact Scoped.unwinds_tryCatch hbody hhandle

/-! ## Calls in scopes -/

/-- A run in scopes ends like a run at the desk, and leaves the scopes as they were. -/
structure Mirrors (station : Station) (run : Except Failure α × Station)
    (plain : Except Failure α × Desk) : Prop where
  /-- It has the same result. -/
  result : run.1 = plain.1
  /-- It leaves the same desk. -/
  desk : run.2.desk = plain.2
  /-- The open scopes are those from before. -/
  names : run.2.names = station.names

namespace Scoped

/-- Work in scopes does what a service does, wherever the current name is the given one. -/
def Follows (around : Option String) (m : Scoped α) (service : Service α) : Prop :=
  ∀ station : Station, station.current = around →
    Mirrors station (m.run station) (service.run station.desk)

variable {office : Office} {around : Option String}

theorem follows_atDesk (service : Service α) : Follows around (atDesk service) service :=
  fun _ _ => ⟨rfl, rfl, rfl⟩

theorem follows_see (sight : Option String → Sight) : Follows around (see sight) (pure ()) :=
  fun _ _ => ⟨rfl, rfl, rfl⟩

theorem follows_pure (a : α) : Follows around (pure a) (pure a) :=
  fun _ _ => ⟨rfl, rfl, rfl⟩

theorem follows_throw (failure : Failure) :
    Follows around (throw failure : Scoped α) (throw failure) :=
  fun _ _ => ⟨rfl, rfl, rfl⟩

theorem Follows.bind {m : Scoped α} {service : Service α} {f : α → Scoped β}
    {next : α → Service β} (hm : Follows around m service)
    (hf : ∀ a, Follows around (f a) (next a)) : Follows around (m >>= f) (service >>= next) := by
  intro station hcurrent
  have hrun := hm station hcurrent
  rw [run_bind, run_bind]
  cases h : m.run station with
  | mk result after =>
    cases hplain : service.run station.desk with
    | mk ending desk =>
      rw [h, hplain] at hrun
      obtain ⟨rfl, rfl, hnames⟩ := hrun
      cases result with
      | error failure => exact ⟨rfl, rfl, hnames⟩
      | ok a =>
        have hafter := hf a after ((congrArg List.head? hnames).trans hcurrent)
        exact ⟨hafter.result, hafter.desk, hafter.names.trans hnames⟩

/-- Work in a scope without a name of its own is a service that gets its name from around. -/
theorem follows_within {body : String → Scoped α} {service : String → Service α}
    (h : ∀ name, Follows (some name) (body name) (service name)) :
    Follows around (within office none body) (Service.nameFor office around >>= service) := by
  rintro ⟨names, desk, sights⟩ rfl
  cases names with
  | nil =>
    have hbody := h (office.fresh desk.given) ⟨[office.fresh desk.given],
      { desk with given := desk.given + 1 },
      sights ++ [.opened none (some (office.fresh desk.given))]⟩ rfl
    exact ⟨hbody.result, hbody.desk, congrArg List.tail hbody.names⟩
  | cons name names =>
    have hbody := h name ⟨name :: name :: names, desk, sights ++ [.opened none (some name)]⟩ rfl
    exact ⟨hbody.result, hbody.desk, congrArg List.tail hbody.names⟩

theorem follows_analyze (input : AnalysisInput) :
    Follows around (analyze office input) (office.analyze around input) := by
  have h (name : String) : Follows (some name) _ _ :=
    (follows_atDesk (Service.traced (office.bench.analyze name input))).bind fun record =>
      (follows_see (.analysed · record)).bind fun _ => follows_pure record
  simp only [pure_bind, bind_pure] at h
  exact follows_within h

theorem follows_analyzeValue (value : Json) :
    Follows around (analyzeValue office value) (office.analyzeValue around value) := by
  rw [analyzeValue, Office.analyzeValue]
  cases AnalysisInput.read value with
  | accepted input => exact follows_analyze input
  | refused problems => exact follows_throw _

theorem follows_fetchAndAnalyze [Platform] (name : String) (chainId : Int) (address : String) :
    Follows (some name) (fetchAndAnalyze office chainId address)
      (office.fetchAndAnalyze name chainId address) :=
  (follows_atDesk _).bind follows_analyze

theorem follows_lookUp [Platform] (config : Cache.Config) (name : String) (chainId : Int)
    (address : String) : Follows (some name) (lookUp office config chainId address)
      (office.lookUp config name chainId address) := by
  refine (follows_atDesk _).bind fun found => ?_
  cases found with
  | some record => exact (follows_atDesk _).bind fun _ => follows_pure record
  | none =>
    exact (follows_fetchAndAnalyze name chainId address).bind fun record =>
      (follows_atDesk _).bind fun _ => follows_pure record

theorem follows_analyzeAddress [Platform] (chainId : Int) (address : String) (useCache : Bool) :
    Follows around (analyzeAddress office chainId address useCache)
      (office.analyzeAddress around chainId address useCache) := by
  refine (follows_atDesk _).bind fun _ => follows_within fun name => ?_
  cases (if useCache then office.cache else none) with
  | some config => exact follows_lookUp config name chainId address
  | none => exact follows_fetchAndAnalyze name chainId address

end Scoped

/-- **A call in scopes is the call of a service that is handed the current name.** -/
theorem Call.follows_run [Platform] (office : Office) (around : Option String) (call : Call) :
    Scoped.Follows around (call.run office) (call.service office around) := by
  cases call with
  | ofInput input => exact Scoped.follows_analyze input
  | ofValue value => exact Scoped.follows_analyzeValue value
  | atAddress chainId address useCache =>
    exact Scoped.follows_analyzeAddress chainId address useCache

/-! ## The name of a record -/

namespace Office

open Service

theorem run_nameFor (office : Office) (around : Option String) (desk : Desk) :
    ∃ given, (nameFor office around).run desk =
      (.ok (around.getD (office.fresh desk.given)), { desk with given := given }) := by
  cases around with
  | some name => exact ⟨desk.given, rfl⟩
  | none => exact ⟨desk.given + 1, rfl⟩

/-- **The analysis of an input returns a record that has the name around**, or else a fresh one. -/
theorem exists_analyze (office : Office) (around : Option String) (input : AnalysisInput)
    (desk : Desk) : ∃ record after, (office.analyze around input).run desk = (.ok record, after) ∧
      record.analysisId = around.getD (office.fresh desk.given) := by
  obtain ⟨given, hname⟩ := office.run_nameFor around desk
  exact ⟨_, _, run_bind_of_ok hname, office.bench.analysisId_analyze _ input desk.trace⟩

theorem analysisId_of_analyze {office : Office} {around : Option String} {input : AnalysisInput}
    {desk after : Desk} {record : AnalysisRecord}
    (h : (office.analyze around input).run desk = (.ok record, after)) :
    record.analysisId = around.getD (office.fresh desk.given) := by
  obtain ⟨found, last, hrun, hname⟩ := office.exists_analyze around input desk
  cases hrun.symm.trans h
  exact hname

/-- **The record of a contract that the cache does not know has the name around**, or else a fresh
one. -/
theorem analysisId_of_miss [Platform] {office : Office} {around : Option String} {chainId : Int}
    {address : String} {useCache : Bool} {desk after : Desk} {record : AnalysisRecord}
    (h : (office.analyzeAddress around chainId address useCache).run desk = (.ok record, after))
    (hmiss : office.hit? chainId address useCache desk = none) :
    record.analysisId = around.getD (office.fresh desk.given) := by
  have hvalidate : Address.validate address = .ok address := if_pos (isValid_of_run h)
  have hfetch (name : String) : Returns (office.fetchAndAnalyze name chainId address)
      (·.analysisId = name) :=
    (returns_true (office.fetch chainId address)).bind fun _ _ _ _ _ => analysisId_of_analyze
  obtain ⟨given, hname⟩ := office.run_nameFor around desk
  have hrun : (nameFor office around >>= fun name =>
      match if useCache then office.cache else none with
      | some config => office.lookUp config name chainId address
      | none => office.fetchAndAnalyze name chainId address).run desk = (.ok record, after) := by
    rw [analyzeAddress, hvalidate] at h
    exact h
  rw [run_bind_of_ok hname] at hrun
  rw [hit?, hvalidate] at hmiss
  cases hcache : (if useCache then office.cache else none) with
  | none =>
    rw [hcache] at hrun
    exact hfetch _ _ _ _ hrun
  | some config =>
    rw [hcache] at hrun hmiss
    replace hrun : (office.lookUp config (around.getD (office.fresh desk.given)) chainId
      address).run { desk with given := given } = (.ok record, after) := hrun
    cases hanswer : answered office (Cache.get config office.bench.now address chainId)
        { desk with given := given } with
    | error failure =>
      rw [lookUp, run_bind, run_asked, hanswer] at hrun
      cases hrun
    | ok found =>
      have hsame : answered office (Cache.get config office.bench.now address chainId) desk =
        .ok found := hanswer
      simp only [hsame] at hmiss
      obtain rfl : found = none := hmiss
      rw [run_lookUp_of_miss hanswer] at hrun
      split at hrun
      · rename_i found fetched hfound
        cases hrun
        exact hfetch _ _ _ _ hfound
      · cases hrun

/-- What names the scopes at an office have. -/
structure NestsScopes [Platform] (office : Office) : Prop where
  /-- However scopes are opened inside each other and left, and wherever something fails, the scopes
  that were open before are open after, and what is seen is nested. -/
  routines : ∀ (routine : Routine) (before : Station),
    Unwound office.fresh before ((routine.run office).run before).2
  /-- A call in scopes is the call of the service under the current name. -/
  calls : ∀ (call : Call) (station : Station), Mirrors station ((call.run office).run station)
    ((call.service office station.current).run station.desk)
  /-- The analysis of an input returns a record, which has the name around or else a fresh one. -/
  analyses : ∀ (around : Option String) (input : AnalysisInput) (desk : Desk), ∃ record after,
    (office.analyze around input).run desk = (.ok record, after) ∧
      record.analysisId = around.getD (office.fresh desk.given)
  /-- So has the record of an input that a value stands for. -/
  values : ∀ (around : Option String) (value : Json) (desk after : Desk) (record : AnalysisRecord),
    (office.analyzeValue around value).run desk = (.ok record, after) →
      record.analysisId = around.getD (office.fresh desk.given)
  /-- So has the record for an address, if it is not the one in the cache. -/
  lookups : ∀ (around : Option String) (chainId : Int) (address : String) (useCache : Bool)
    (desk after : Desk) (record : AnalysisRecord),
    (office.analyzeAddress around chainId address useCache).run desk = (.ok record, after) →
      office.hit? chainId address useCache desk = none →
      record.analysisId = around.getD (office.fresh desk.given)
  /-- There is no empty name, if no fresh one is empty. -/
  names : (∀ given, office.fresh given ≠ "") → ∀ (routine : Routine) (desk : Desk),
    ∀ sight ∈ ((routine.run office).run { desk := desk }).2.sights, sight.current ≠ some ""

/-- **Scopes nest and unwind**, and a record has the name of the scope that it is made in. -/
theorem nestsScopes [Platform] (office : Office) : office.NestsScopes where
  routines routine := routine.unwinds_run office
  calls call station := call.follows_run office station.current station rfl
  analyses := office.exists_analyze
  values around value desk after record h := by
    rw [analyzeValue] at h
    split at h
    · exact analysisId_of_analyze h
    · cases h
  lookups around chainId address useCache desk after record := analysisId_of_miss
  names hfresh routine desk := by
    obtain ⟨sights, hsights, hnested⟩ := (routine.unwinds_run office { desk := desk }).sights
    rw [hsights]
    exact hnested.current_ne hfresh (Option.some_ne_none "").symm

/-- Scopes in a scope: one without a name, and one with a name that fails. -/
def nestedRoutine : Routine :=
  .within (some "outer") (.andThen (.within (some "") .ask) fun _ =>
    .andThen (.orElse (.within (some "inner") (.fail .wrongType)) fun _ => .ask) fun _ =>
      .fail .noMembers)

example [Platform] (office : Office) : ((nestedRoutine.run office).run {}).2.sights =
    [.opened (some "outer") (some "outer"), .opened (some "") (some "outer"),
      .asked (some "outer"), .left false (some "outer"), .opened (some "inner") (some "inner"),
      .left true (some "outer"), .asked (some "outer"), .left true none] := rfl

end Office

end ContractLens
