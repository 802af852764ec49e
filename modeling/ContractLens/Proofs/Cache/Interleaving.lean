import ContractLens.Proofs.Cache.Listing
import ContractLens.Proofs.Cache.RoundTrip
import ContractLens.Proofs.Text.Keyword
/-!
# Operations that run at once

Several operations may be under way against one store, which does their commands one at a time in
any order (`Scene.play`). Keeping a record sets its text first and then its place in the index;
dropping one takes the place first and then the text. In between the key may have a text and no
place, but the operation still owes the command that settles this (`Program.Careful`), whatever the
others do meanwhile (`Scene.Settled.move`). So when all operations are done, no text is without a
place.

Two operations are not careful. Keeping a record whose time has no place sets the text and ends
there. And a history drops a key from the index because of what it read earlier: when the key got a
text since, that text stays without a place. There is no other way (`Scene.settled_play`).
-/

namespace ContractLens.Cache

section Interleaving

variable [Platform] {α β : Type} {config : Config} {facts : Table Json}

/-! ## Keys without a place -/

/-- A key that has a text and no place in the index. -/
structure Store.Lost (config : Config) (store : Store) (key : String) : Prop where
  /-- It is not the key of the counter. -/
  key_ne : key ≠ config.skippedKey
  /-- It has a text. -/
  text : store.texts.get? key ≠ none
  /-- It has no score. -/
  score : (store.scores config.indexKey).get? key = none

/-- A command that may leave a key with a text and no place. -/
def Command.Exposes (config : Config) (key : String) : Command → Prop
  | .set other _ _ | .incr other => other = key
  | .zrem index other => index = config.indexKey ∧ other = key
  | _ => False

/-- A command after which a key has a place or no text. -/
def Command.Settles (config : Config) (key : String) : Command → Prop
  | .zadd index other _ => index = config.indexKey ∧ other = key
  | .delete other => other = key
  | _ => False

omit [Platform] in
/-- A key is not lost by a text under another key. -/
theorem Store.Lost.of_insert {store : Store} {other text key : String}
    {lifetimes : Table (Option Int)}
    (h : { store with texts := store.texts.insert other text, lifetimes := lifetimes : Store }.Lost
      config key) (hkey : other ≠ key) : store.Lost config key := by
  refine ⟨h.key_ne, ?_, h.score⟩
  have htext := h.text
  rwa [Table.get?_insert, if_neg (by simpa using hkey)] at htext

omit [Platform] in
/-- **A key is lost by a command that exposes it**, unless it was lost before and the command does
not settle it. -/
theorem Store.lost_of_run {store : Store} {command : Command} {key : String}
    (h : (store.run facts command).2.Lost config key) :
    (store.Lost config key ∧ ¬ command.Settles config key) ∨
      command.Exposes config key ∧ ∃ answer, (store.run facts command).1 = .ok answer := by
  cases command with
  | set other text seconds =>
    rw [Store.run] at h ⊢
    split at h
    · exact .inl ⟨h, id⟩
    · rename_i hseconds
      by_cases hkey : other = key
      · exact .inr ⟨hkey, (), by rw [if_neg hseconds]⟩
      · exact .inl ⟨h.of_insert hkey, id⟩
  | incr other =>
    rw [Store.run] at h ⊢
    split at h
    · exact .inl ⟨h, id⟩
    · by_cases hkey : other = key
      · exact .inr ⟨hkey, (), rfl⟩
      · exact .inl ⟨h.of_insert hkey, id⟩
  | zrem index other =>
    by_cases hexposed : index = config.indexKey ∧ other = key
    · exact .inr ⟨hexposed, (), rfl⟩
    · refine .inl ⟨⟨h.key_ne, h.text, ?_⟩, id⟩
      have hscore := h.score
      rw [Store.run, Store.scores_eraseScore] at hscore
      split at hscore
      · rename_i hindex
        rwa [Table.get?_erase, if_neg fun hkey => hexposed ⟨hindex, hkey⟩] at hscore
      · exact hscore
  | zadd index other score =>
    have hscore := h.score
    rw [Store.run, Store.scores_setScore] at hscore
    split at hscore
    · rename_i hindex
      rw [Table.get?_insert] at hscore
      split at hscore
      · cases hscore
      · rename_i hkey
        exact .inl ⟨⟨h.key_ne, h.text, hindex ▸ hscore⟩,
          fun hsettles => hkey (by simp [hsettles.2])⟩
    · rename_i hindex
      exact .inl ⟨⟨h.key_ne, h.text, hscore⟩, fun hsettles => hindex hsettles.1⟩
  | delete other =>
    have htext := h.text
    rw [Store.run, Store.erase, Table.get?_erase] at htext
    split at htext
    · exact absurd rfl htext
    · rename_i hkey
      exact .inl ⟨⟨h.key_ne, htext, h.score⟩, hkey⟩
  | _ => exact .inl ⟨h, id⟩

omit [Platform] in
theorem Store.lost_of_erase {store : Store} {other key : String}
    (h : (store.erase other).Lost config key) : store.Lost config key := by
  refine ⟨h.key_ne, fun hnone => h.text ?_, h.score⟩
  rw [Store.erase, Table.get?_erase, hnone, ite_self]

/-! ## Careful programs -/

/-- A program whose next command settles a key. -/
def Program.Settles (config : Config) (key : String) : Program α → Prop
  | .issue command _ => command.Settles config key
  | _ => False

/-- A program that settles each key that it exposes with its next command, but for commands that are
`exempt`. -/
def Program.Careful (config : Config) (exempt : Command → Prop) : Program α → Prop
  | .done _ => True
  | .note _ next => next.Careful config exempt
  | .issue command next =>
    (∀ answer, (next answer).Careful config exempt) ∧
      ∀ key, key ≠ config.skippedKey → command.Exposes config key → ¬ exempt command →
        ∀ answer, (next (.ok answer)).Settles config key

variable {exempt : Command → Prop}

omit [Platform] in
theorem Program.Settles.bind {p : Program α} {key : String} (h : p.Settles config key)
    (f : α → Program β) : (p.bind f).Settles config key := by
  cases p with
  | issue command next => exact h
  | _ => exact h.elim

omit [Platform] in
theorem Program.Careful.bind {p : Program α} {f : α → Program β} (hp : p.Careful config exempt)
    (hf : ∀ a, (f a).Careful config exempt) : (p.bind f).Careful config exempt := by
  induction p with
  | done a => exact hf a
  | note entry next ih => exact ih hp
  | issue command next ih =>
    exact ⟨fun answer => ih answer (hp.1 answer), fun key hkey hexposes hexempt answer =>
      (hp.2 key hkey hexposes hexempt answer).bind f⟩

omit [Platform] in
/-- A program is careful when it exposes no key but by exempt commands. -/
theorem Program.careful_of_issues {p : Program α}
    (h : p.Issues fun command => ∀ key, key ≠ config.skippedKey → command.Exposes config key →
      exempt command) : p.Careful config exempt := by
  induction p with
  | done a => trivial
  | note entry next ih => exact ih h
  | issue command next ih =>
    exact ⟨fun answer => ih answer (h.2 answer), fun key hkey hexposes hexempt =>
      absurd (h.1 key hkey hexposes) hexempt⟩

/-! ## Calls -/

/-- A command by which a history drops a key without a text from an index. -/
def Call.Prunes : Call → Command → Prop
  | .history .., .zrem .. => True
  | _, _ => False

omit [Platform] in
theorem Call.exists_of_prunes {call : Call} {command : Command} (h : call.Prunes command) :
    ∃ now query, call = .history now query ∧ ∃ index key, command = .zrem index key := by
  cases call with
  | history now query =>
    cases command with
    | zrem index key => exact ⟨now, query, rfl, index, key, rfl⟩
    | _ => exact h.elim
  | _ => exact h.elim

omit [Platform] in
theorem careful_ready (config : Config) (connection : Connection) :
    (ready config connection).Careful config exempt := by
  cases connection with
  | disabled | active => trivial
  | idle =>
    refine ⟨fun opened => ?_, fun key _ hexposes => hexposes.elim⟩
    cases opened with
    | error fault => trivial
    | ok _ => exact ⟨fun alive => by cases alive <;> trivial, fun key _ hexposes => hexposes.elim⟩

theorem careful_writeRecord (config : Config) {record : AnalysisRecord} {score : Binary64}
    (hscore : record.analyzedAt.seconds = .ok score) (key : String) :
    (writeRecord config record key).Careful config exempt := by
  rw [writeRecord]
  cases record.encoded with
  | error reason => trivial
  | ok text =>
    simp only [hscore]
    refine ⟨fun written => ?_, fun other _ hexposes _ answer => ⟨rfl, hexposes⟩⟩
    cases written with
    | error fault => trivial
    | ok _ =>
      exact ⟨fun placed => by cases placed <;> trivial, fun other _ hexposes => hexposes.elim⟩

omit [Platform] in
theorem careful_deleteRecord (config : Config) (key : String) :
    (deleteRecord config key).Careful config exempt := by
  refine ⟨fun unplaced => ?_, fun key _ hexposes _ answer => hexposes.2⟩
  cases unplaced with
  | error fault => trivial
  | ok _ =>
    exact ⟨fun dropped => by cases dropped <;> trivial, fun key _ hexposes => hexposes.elim⟩

omit [Platform] in
theorem careful_countSkipped (config : Config) :
    (countSkipped config).Careful config exempt :=
  ⟨fun counted => by cases counted <;> trivial, fun _ hkey hexposes => absurd hexposes.symm hkey⟩

omit [Platform] in
theorem careful_unready (call : Call) (connection : Connection) :
    (call.unready config connection).Careful config exempt := by
  cases call with
  | store record =>
    rw [Call.unready]
    split <;> trivial
  | _ => trivial

omit [Platform] in
theorem careful_withKey {key : Except Failure String} {program : String → Program α}
    (h : ∀ name, (program name).Careful config exempt) :
    (withKey key program).Careful config exempt := by
  cases key with
  | error failure => trivial
  | ok name => exact (h name).bind fun _ => trivial

/-- A call that hands in a record, if at all, which can be listed. -/
def Call.Listable (call : Call) : Prop :=
  ∀ record, call = .store record → Cache.Listable record

/-- **Every call is careful** that hands in no record without a place, but for the keys that a
history drops. -/
theorem careful_program (config : Config) {call : Call} (h : call.Listable) :
    (call.program config).Careful config call.Prunes := by
  cases call with
  | connect => trivial
  | store record =>
    obtain ⟨score, hscore⟩ := (h record rfl).dated
    refine careful_withKey fun key => ?_
    cases hveto : isVetoed record with
    | true =>
      simp only [Call.keepRecord, hveto]
      exact (careful_countSkipped config).bind fun _ => trivial
    | false =>
      simp only [Call.keepRecord, hveto]
      exact careful_writeRecord config hscore key
  | delete address chainId => exact careful_withKey (careful_deleteRecord config)
  | get now address chainId =>
    exact Program.careful_of_issues (Call.issues_withKey
      (Call.issues_getRecord now fun _ _ hexposes => hexposes.elim))
  | stats =>
    refine Program.careful_of_issues ((Call.issues_program config .stats).imp ?_)
    rintro command (rfl | rfl | rfl) key _ hexposes <;> exact hexposes.elim
  | history now query =>
    refine Program.careful_of_issues ((Call.issues_program config (.history now query)).imp ?_)
    rintro command (rfl | ⟨key, rfl | rfl⟩) other _ hexposes
    · exact hexposes.elim
    · exact hexposes.elim
    · trivial

theorem careful_operation (config : Config) {call : Call} (h : call.Listable)
    (connection : Connection) :
    (call.operation config connection).Careful config call.Prunes := by
  by_cases hbarred : call.Barred
  · rw [Call.operation_of_barred hbarred]
    trivial
  rw [Call.operation_apply config hbarred]
  refine (careful_ready config connection).bind fun found => ?_
  split
  · exact (careful_program config h).bind fun _ => trivial
  · exact careful_unready call found.2

/-- A command that puts only records into the store as texts, and gives the counter no place. -/
def Command.KeepsReadable (config : Config) : Command → Prop
  | .set _ text _ => IsRecord text
  | .incr key => key = config.skippedKey
  | .zadd _ key _ => key ≠ config.skippedKey
  | _ => True

theorem Store.Readable.run {store : Store} (h : store.Readable config) {command : Command}
    (hcommand : command.KeepsReadable config) :
    (store.run facts command).2.Readable config := by
  cases command with
  | set other text seconds =>
    rw [Store.run]
    split
    · exact h
    · refine ⟨fun key found hkey hfound => ?_, h.counter⟩
      rw [Table.get?_insert] at hfound
      split at hfound
      · cases hfound
        exact hcommand
      · exact h.texts key found hkey hfound
  | incr other =>
    rw [Store.run]
    split
    · exact h
    · refine ⟨fun key found hkey hfound => ?_, h.counter⟩
      have hother : (other == key) = false := beq_false_of_ne fun he => hkey (he ▸ hcommand)
      rw [Table.get?_insert, hother] at hfound
      exact h.texts key found hkey hfound
  | zadd index other score =>
    refine ⟨h.texts, ?_⟩
    rw [Store.run, Store.scores_setScore]
    split
    · rename_i hindex
      rw [Table.get?_insert, beq_false_of_ne hcommand, hindex]
      exact h.counter
    · exact h.counter
  | zrem index other =>
    refine ⟨h.texts, ?_⟩
    rw [Store.run, Store.scores_eraseScore]
    split
    · rw [Table.get?_erase, h.counter, ite_self]
    · exact h.counter
  | delete other =>
    exact h.erase other
  | _ => exact h

theorem Call.keepsReadable_of_allows {call : Call} (hcall : call.Listable) {command : Command}
    (h : call.Allows config command) : command.KeepsReadable config := by
  cases call with
  | connect => exact h.elim
  | get => rw [show command = _ from h]; trivial
  | store record =>
    rcases h with rfl | rfl | ⟨score, -, rfl⟩
    · rfl
    · exact fun now => ⟨record, AnalysisRecord.decode_encode now (hcall record rfl).wellFormed⟩
    · exact keyText_ne_skippedKey _ _
  | delete => rcases h with rfl | rfl <;> trivial
  | history => rcases h with rfl | ⟨key, rfl | rfl⟩ <;> trivial
  | stats => rcases h with rfl | rfl | rfl <;> trivial

theorem keepsReadable_operation (config : Config) {call : Call} (hcall : call.Listable)
    (connection : Connection) :
    (call.operation config connection).Issues (Command.KeepsReadable config) :=
  Call.issues_operation trivial trivial ((Call.issues_program config call).imp fun _ h =>
    Call.keepsReadable_of_allows hcall h) connection

/-! ## Scenes -/

/-- An operation under way. -/
structure Worker where
  /-- What was called for. -/
  call : Call
  /-- What is left to do. -/
  rest : Program (call.Answer × Connection)

/-- An operation that has not started. -/
def Worker.start (config : Config) (call : Call) (connection : Connection) : Worker :=
  ⟨call, call.operation config connection⟩

/-- Whether an operation is done. -/
def Worker.isDone (worker : Worker) : Bool :=
  match worker.rest with
  | .done _ => true
  | _ => false

/-- A store and the operations under way against it. -/
structure Scene where
  /-- The store. -/
  store : Store
  /-- The operations. -/
  workers : List Worker

/-- What happens next. -/
inductive Move where
  /-- An operation goes on with its next command or entry. -/
  | advance (i : Nat)
  /-- The time of a key is over. -/
  | expire (key : String)

namespace Scene

/-- One move: the store does a command for one operation, or drops a text. -/
def move (facts : Table Json) (scene : Scene) : Move → Scene
  | .advance i =>
    match scene.workers[i]? with
    | some ⟨call, .issue command next⟩ =>
      { store := (scene.store.run facts command).2
        workers := scene.workers.set i ⟨call, next (scene.store.run facts command).1⟩ }
    | some ⟨call, .note _ next⟩ => { scene with workers := scene.workers.set i ⟨call, next⟩ }
    | _ => scene
  | .expire key => { scene with store := scene.store.erase key }

/-- Any moves, one after the other. -/
def play (facts : Table Json) (scene : Scene) (moves : List Move) : Scene :=
  moves.foldl (move facts) scene

/-- All operations are done. -/
def Finished (scene : Scene) : Prop := ∀ worker ∈ scene.workers, worker.isDone = true

/-- Whether a history drops a key from the index that has a text. -/
def prunesLive (config : Config) (scene : Scene) : Move → Bool
  | .advance i =>
    match scene.workers[i]? with
    | some ⟨.history .., .issue (.zrem index key) _⟩ =>
      index == config.indexKey && (scene.store.texts.get? key).isSome
    | _ => false
  | .expire _ => false

/-- Whether no history drops a key that has a text, in all of some moves. -/
def spares (config : Config) (facts : Table Json) : Scene → List Move → Bool
  | _, [] => true
  | scene, move :: moves =>
    !scene.prunesLive config move && spares config facts (scene.move facts move) moves

omit [Platform] in
/-- What a move does: nothing, a command of one operation, an entry of one, or it drops a text. -/
theorem move_cases (facts : Table Json) (scene : Scene) (move : Move) :
    scene.move facts move = scene ∨
      (∃ i call command next, move = .advance i ∧
        scene.workers[i]? = some ⟨call, .issue command next⟩ ∧
        scene.move facts move =
          { store := (scene.store.run facts command).2
            workers := scene.workers.set i ⟨call, next (scene.store.run facts command).1⟩ }) ∨
      (∃ i call entry next, scene.workers[i]? = some ⟨call, .note entry next⟩ ∧
        scene.move facts move = { scene with workers := scene.workers.set i ⟨call, next⟩ }) ∨
      ∃ key, scene.move facts move = { scene with store := scene.store.erase key } := by
  cases move with
  | expire key => exact .inr (.inr (.inr ⟨key, rfl⟩))
  | advance i =>
    rw [Scene.move]
    cases hworker : scene.workers[i]? with
    | none => exact .inl rfl
    | some worker =>
      obtain ⟨call, rest⟩ := worker
      cases rest with
      | done result => exact .inl rfl
      | note entry next => exact .inr (.inr (.inl ⟨i, call, entry, next, hworker, rfl⟩))
      | issue command next => exact .inr (.inl ⟨i, call, command, next, rfl, hworker, rfl⟩)

/-- Each operation is careful, and each key that is lost is settled by the next command of one of
them. -/
structure Settled (config : Config) (scene : Scene) : Prop where
  /-- The operations are careful. -/
  careful : ∀ (i : Nat) (worker : Worker), scene.workers[i]? = some worker →
    worker.rest.Careful config worker.call.Prunes
  /-- The keys are settled. -/
  settles : ∀ key, scene.store.Lost config key →
    ∃ (i : Nat) (worker : Worker), scene.workers[i]? = some worker ∧ worker.rest.Settles config key

omit [Platform] in
/-- One operation goes on: it has to settle the keys that are lost and that it settled before, or
that were not lost before. -/
theorem Settled.advance {scene : Scene} (h : scene.Settled config) {i : Nat} {before after : Worker}
    (hbefore : scene.workers[i]? = some before) {store : Store}
    (hcareful : after.rest.Careful config after.call.Prunes)
    (hsettles : ∀ key, store.Lost config key →
      (scene.store.Lost config key ∧ ¬ before.rest.Settles config key) ∨
        after.rest.Settles config key) :
    Settled config ⟨store, scene.workers.set i after⟩ := by
  have hlength : i < scene.workers.length := (List.getElem?_eq_some_iff.mp hbefore).1
  have hset : (scene.workers.set i after)[i]? = some after := List.getElem?_set_self hlength
  constructor
  · intro j worker hworker
    by_cases hj : i = j
    · subst hj
      cases hset.symm.trans hworker
      exact hcareful
    · exact h.careful j worker (by rwa [List.getElem?_set_ne hj] at hworker)
  · intro key hlost
    rcases hsettles key hlost with ⟨hlost, hbusy⟩ | hafter
    · obtain ⟨j, worker, hworker, hkey⟩ := h.settles key hlost
      have hj : i ≠ j := by
        rintro rfl
        cases hbefore.symm.trans hworker
        exact hbusy hkey
      exact ⟨j, worker, by rwa [List.getElem?_set_ne hj], hkey⟩
    · exact ⟨i, after, hset, hafter⟩

omit [Platform] in
/-- **A move that drops no key with a text leaves each lost key to one that settles it.** -/
theorem Settled.move {scene : Scene} (h : scene.Settled config) {move : Move}
    (hprune : scene.prunesLive config move = false) : (scene.move facts move).Settled config := by
  rcases scene.move_cases facts move with
    hsame | ⟨i, call, command, next, rfl, hworker, hmoved⟩ |
      ⟨i, call, entry, next, hworker, hmoved⟩ | ⟨key, hmoved⟩
  · rwa [hsame]
  · rw [hmoved]
    obtain ⟨hnext, hexposed⟩ := h.careful i _ hworker
    refine h.advance hworker (hnext _) fun key hlost => ?_
    rcases Store.lost_of_run hlost with hlost | ⟨hexposes, answer, hanswer⟩
    · exact .inl hlost
    -- the operation has exposed the key just now, so it settles it next unless it pruned it
    · refine .inr ?_
      dsimp only
      rw [hanswer]
      refine hexposed key hlost.key_ne hexposes (fun hexempt => ?_) answer
      obtain ⟨now, query, rfl, index, other, rfl⟩ := Call.exists_of_prunes hexempt
      obtain ⟨rfl, rfl⟩ := hexposes
      have htext : (scene.store.texts.get? other).isSome = true :=
        Option.isSome_iff_ne_none.mpr hlost.text
      simp only [prunesLive, hworker, htext, beq_self_eq_true, Bool.and_self] at hprune
      cases hprune
  · rw [hmoved]
    have hnext : next.Careful config call.Prunes := h.careful i _ hworker
    exact h.advance hworker hnext fun key hlost => .inl ⟨hlost, id⟩
  · rw [hmoved]
    exact ⟨h.careful, fun other hlost => h.settles other (Store.lost_of_erase hlost)⟩

/-- A store that is readable, with operations that keep it so. -/
structure Recorded (config : Config) (scene : Scene) : Prop where
  /-- The store is readable. -/
  readable : scene.store.Readable config
  /-- The operations keep it readable. -/
  keeps : ∀ worker ∈ scene.workers, worker.rest.Issues (Command.KeepsReadable config)

theorem Recorded.move {scene : Scene} (h : scene.Recorded config) (move : Move) :
    (scene.move facts move).Recorded config := by
  have hset : ∀ i (worker : Worker), worker.rest.Issues (Command.KeepsReadable config) →
      ∀ other ∈ scene.workers.set i worker, other.rest.Issues (Command.KeepsReadable config) := by
    intro i worker hworker other hother
    rcases List.mem_or_eq_of_mem_set hother with hother | rfl
    · exact h.keeps other hother
    · exact hworker
  rcases scene.move_cases facts move with
    hsame | ⟨i, call, command, next, rfl, hworker, hmoved⟩ |
      ⟨i, call, entry, next, hworker, hmoved⟩ | ⟨key, hmoved⟩
  · rwa [hsame]
  · rw [hmoved]
    obtain ⟨hcommand, hnext⟩ := h.keeps _ (List.mem_of_getElem? hworker)
    exact ⟨h.readable.run hcommand, hset i _ (hnext _)⟩
  · rw [hmoved]
    have hnext := h.keeps _ (List.mem_of_getElem? hworker)
    exact ⟨h.readable, hset i ⟨call, next⟩ hnext⟩
  · rw [hmoved]
    exact ⟨h.readable.erase key, h.keeps⟩

/-! ## Plays -/

omit [Platform] in
theorem settled_play (facts : Table Json) {scene : Scene} (h : scene.Settled config)
    {moves : List Move} (hspares : scene.spares config facts moves = true) :
    (scene.play facts moves).Settled config := by
  induction moves generalizing scene with
  | nil => exact h
  | cons move moves ih =>
    rw [spares, Bool.and_eq_true, Bool.not_eq_true'] at hspares
    exact ih (h.move hspares.1) hspares.2

theorem recorded_play (facts : Table Json) {scene : Scene} (h : scene.Recorded config)
    (moves : List Move) : (scene.play facts moves).Recorded config := by
  induction moves generalizing scene with
  | nil => exact h
  | cons move moves ih => exact ih (h.move move)

omit [Platform] in
theorem Settled.not_lost {scene : Scene} (h : scene.Settled config) (hfinished : scene.Finished)
    (key : String) : ¬ scene.store.Lost config key := by
  intro hlost
  obtain ⟨i, worker, hworker, hsettles⟩ := h.settles key hlost
  have hdone := hfinished worker (List.mem_of_getElem? hworker)
  obtain ⟨call, rest⟩ := worker
  cases rest with
  | done result => exact hsettles
  | _ => cases hdone

/-- Calls that have not started, against a store. -/
def start (config : Config) (store : Store) (calls : List (Call × Connection)) : Scene :=
  ⟨store, calls.map fun called => Worker.start config called.1 called.2⟩

theorem settled_start {store : Store} (h : ∀ key, ¬ store.Lost config key)
    {calls : List (Call × Connection)} (hcalls : ∀ called ∈ calls, called.1.Listable) :
    (start config store calls).Settled config := by
  refine ⟨fun i worker hworker => ?_, fun key hlost => absurd hlost (h key)⟩
  obtain ⟨called, hcalled, rfl⟩ := List.mem_map.mp (List.mem_of_getElem? hworker)
  exact careful_operation config (hcalls called hcalled) called.2

theorem recorded_start {store : Store} (h : store.Readable config)
    {calls : List (Call × Connection)} (hcalls : ∀ called ∈ calls, called.1.Listable) :
    (start config store calls).Recorded config := by
  refine ⟨h, fun worker hworker => ?_⟩
  obtain ⟨called, hcalled, rfl⟩ := List.mem_map.mp hworker
  exact keepsReadable_operation config (hcalls called hcalled) called.2

/-! ## Listing -/

/-- A query for everything that a store has. -/
structure Unlimited (config : Config) (store : Store) (query : Query) : Prop where
  /-- It leaves room for every key. -/
  limit : (store.ranked config.indexKey).length ≤ query.size
  /-- It passes over nothing. -/
  offset : query.offset ≤ 0
  /-- It looks for nothing. -/
  search : query.search = ""

theorem Unlimited.page_eq {store : Store} {query : Query} (h : Unlimited config store query)
    (now : Timestamp) :
    query.page (store.recordsOf now (store.ranked config.indexKey)) =
      store.recordsOf now (store.ranked config.indexKey) := by
  have hall : ∀ record ∈ store.recordsOf now (store.ranked config.indexKey),
      query.accepts record = true := by
    intro record _
    have hempty : Text.lower query.search.toList <:+: Text.lower record.address.toList := by
      rw [h.search]
      exact List.nil_infix
    rw [Query.accepts, Text.contains_iff.mpr hempty, Bool.true_or]
  have hoffset : query.offset.toNat = 0 := Int.toNat_eq_zero.mpr h.offset
  rw [Query.page, Query.beyond, List.filter_eq_self.mpr hall, hoffset, List.drop_zero]
  exact List.take_of_length_le (Nat.le_trans (List.length_filterMap_le _ _) h.limit)

/-- **No record is lost when no history drops a key that has a text**, and no record without a place
is handed in. From a readable store where every text has a place, in any order of the commands of
any calls, once all of them are done every text under a key but the counter's has a place in the
index, and a history of everything has its record. -/
theorem indexed_of_finished {store : Store} (hplaced : ∀ key, ¬ store.Lost config key)
    (hreadable : store.Readable config) {calls : List (Call × Connection)}
    (hcalls : ∀ called ∈ calls, called.1.Listable) {moves : List Move}
    (hspares : (start config store calls).spares config facts moves = true)
    (hfinished : ((start config store calls).play facts moves).Finished)
    {server : Server} (hserver : server.store = ((start config store calls).play facts moves).store)
    {key : String} (hkey : key ≠ config.skippedKey) (htext : server.store.texts.get? key ≠ none) :
    key ∈ server.store.ranked config.indexKey ∧
      ∀ now query connection, Unlimited config server.store query → connection ≠ .disabled →
        ∃ record, recordAt? server.store now key = some record ∧
          record ∈ (server.run .calm (history config now query connection)).1.1 := by
  have hlost := (settled_play facts (settled_start hplaced hcalls) hspares).not_lost hfinished key
  have hfinal := (recorded_play facts (recorded_start hreadable hcalls) moves).readable
  rw [← hserver] at hlost hfinal
  have hranked : key ∈ server.store.ranked config.indexKey :=
    Store.mem_ranked_iff.mpr fun hscore => hlost ⟨hkey, htext, hscore⟩
  refine ⟨hranked, fun now query connection hunlimited hused => ?_⟩
  obtain ⟨text, htext⟩ := Option.ne_none_iff_exists'.mp htext
  obtain ⟨record, hdecode⟩ := hfinal.texts key text hkey htext now
  have hrecord : recordAt? server.store now key = some record := by
    rw [recordAt?, htext, Option.bind_some, hdecode]
    rfl
  obtain ⟨ready, hready, hvalue, -⟩ :=
    run_whenReady_calm config [] (historyRecords config now query) hused server
  rw [← hready] at hfinal hunlimited hranked hrecord ⊢
  rw [history, hvalue, (run_historyRecords_calm now query hfinal).1, hunlimited.page_eq now]
  exact ⟨record, hrecord, List.mem_filterMap.mpr ⟨key, hranked, hrecord⟩⟩

/-- A store where nothing is kept yet. -/
theorem readable_empty (config : Config) : Store.Readable config {} :=
  ⟨fun _ _ _ htext => absurd htext nofun, rfl⟩

omit [Platform] in
theorem not_lost_empty (config : Config) (key : String) : ¬ Store.Lost config {} key :=
  fun hlost => hlost.text rfl

end Scene

end Interleaving

namespace Scene

/-- A record is kept twice while the history is asked for. -/
def renewal : List (Call × Connection) :=
  [(.store factoryRecord, .active), (.history .epoch {}, .active), (.store factoryRecord, .active)]

/-- The record is kept and expires; the history finds no text under its key and drops the key; the
record is kept again. -/
def promptMoves : List Move :=
  [.advance 0, .advance 0, .advance 0, .advance 1, .expire factoryKey, .advance 1, .advance 1,
    .advance 2, .advance 2, .advance 2]

/-- The same moves, but the history drops the key only after the record is kept again. -/
def lateMoves : List Move :=
  [.advance 0, .advance 0, .advance 0, .advance 1, .expire factoryKey, .advance 1,
    .advance 2, .advance 2, .advance 2, .advance 1]

theorem listable_renewal : ∀ called ∈ renewal, called.1.Listable := by
  have hlistable : Listable factoryRecord := ⟨wellFormed_factoryRecord, _, rfl⟩
  intro called hcalled record hrecord
  rcases List.mem_cons.mp hcalled with rfl | hcalled
  · cases hrecord
    exact hlistable
  rcases List.mem_cons.mp hcalled with rfl | hcalled
  · cases hrecord
  · cases List.mem_singleton.mp hcalled
    cases hrecord
    exact hlistable

/-- A record that is kept again after the history dropped its key has a place. -/
theorem indexed_of_finished_renewal :
    factoryKey ∈
      ((start dayConfig {} renewal).play [] promptMoves).store.ranked dayConfig.indexKey := by
  have hspares : (start dayConfig {} renewal).spares dayConfig [] promptMoves = true := by
    decide +kernel
  have hfinished : ((start dayConfig {} renewal).play [] promptMoves).Finished := by
    unfold Finished
    decide +kernel
  have htext : ((start dayConfig {} renewal).play [] promptMoves).store.texts.get? factoryKey ≠
      none := by decide +kernel
  have hserver :
      Server.store { store := ((start dayConfig {} renewal).play [] promptMoves).store } =
        ((start dayConfig {} renewal).play [] promptMoves).store := rfl
  exact (indexed_of_finished (not_lost_empty dayConfig) (readable_empty dayConfig)
    listable_renewal hspares hfinished hserver (keyText_ne_skippedKey _ _) htext).1

/-- **A history that drops a key late loses its record**: the operations are done, the key has a
record, and it has no place, so no history has the record. -/
theorem lost_by_late_prune :
    let scene := (start dayConfig {} renewal).play [] lateMoves
    scene.Finished ∧ scene.store.Lost dayConfig factoryKey ∧
      (∃ record, recordAt? scene.store .epoch factoryKey = some record) ∧
      ∀ query, (Server.run .calm { store := scene.store }
        (history dayConfig .epoch query .active)).1.1 = [] := by
  intro scene
  have htext : scene.store.texts.get? factoryKey ≠ none := by decide +kernel
  have hranked : scene.store.ranked dayConfig.indexKey = [] := by decide +kernel
  have hstart := recorded_start (readable_empty dayConfig) listable_renewal
  have hreadable : scene.store.Readable dayConfig := (recorded_play [] hstart lateMoves).readable
  refine ⟨by unfold Finished; decide +kernel, ⟨keyText_ne_skippedKey _ _, htext, ?_⟩, ?_, ?_⟩
  · decide +kernel
  · obtain ⟨text, htext⟩ := Option.ne_none_iff_exists'.mp htext
    obtain ⟨record, hrecord⟩ :=
      hreadable.texts factoryKey text (keyText_ne_skippedKey _ _) htext .epoch
    exact ⟨record, by rw [recordAt?, htext, Option.bind_some, hrecord]; rfl⟩
  · intro query
    have hused : Connection.active ≠ .disabled := by decide
    obtain ⟨ready, hready, hvalue, -⟩ := run_whenReady_calm dayConfig []
      (historyRecords dayConfig .epoch query) hused { store := scene.store }
    rw [history, hvalue, (run_historyRecords_calm .epoch query (hready ▸ hreadable)).1, hready,
      hranked]
    exact query.page_nil

end Scene

end ContractLens.Cache
