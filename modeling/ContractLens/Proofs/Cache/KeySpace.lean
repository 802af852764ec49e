import ContractLens.Proofs.Cache.Call
import ContractLens.Proofs.Cache.Index
import ContractLens.Proofs.Cache.RoundTrip
/-!
# The keys of one cache

All that a cache keeps is under keys with one start: the records, the index of their keys and the
counter of records that were not kept. Two records have the same key just when they are of the same
chain and of the same address up to case, and the index and the counter have keys of their own. So
no call sets or drops the index or the counter as if it were a record (`Command.InPlace`), and
keeping a record changes neither the counter nor any other record, nor the place of another key in
the index (`keys_apart`). A chain whose number is too long to be written has no keys
(`no_key_of_endless`).
-/

namespace ContractLens.Cache

section Keys

variable [Platform] {config : Config}

omit [Platform] in
theorem keyText_eq_iff {a b : String} {m n : Int} :
    config.keyText a m = config.keyText b n ↔ Text.lowerString a = Text.lowerString b ∧ m = n :=
  ⟨keyText_inj, fun ⟨haddress, hchain⟩ => hchain ▸ keyText_congr haddress m⟩

/-! ## Commands -/

/-- A command that changes each kind of value in its own place: texts as a whole under keys of
records, whole numbers under that of the counter, and scores under that of the index. -/
def Command.InPlace (config : Config) : Command → Prop
  | .set key .. | .delete key => ∃ address chainId, key = config.keyText address chainId
  | .incr key => key = config.skippedKey
  | .zadd index .. | .zrem index _ => index = config.indexKey
  | _ => True

theorem Call.inPlace_of_allows {call : Call} {command : Command} (h : call.Allows config command) :
    command.InPlace config := by
  cases call with
  | connect => exact h.elim
  | get => rw [show command = _ from h]; trivial
  | store record =>
    rcases h with rfl | rfl | ⟨score, -, rfl⟩
    · rfl
    · exact ⟨record.address, record.chainId, rfl⟩
    · rfl
  | delete address chainId =>
    rcases h with rfl | rfl
    · rfl
    · exact ⟨address, chainId, rfl⟩
  | history =>
    rcases h with rfl | ⟨key, rfl | rfl⟩
    · trivial
    · trivial
    · rfl
  | stats => rcases h with rfl | rfl | rfl <;> trivial

/-- Whatever fails, a call changes each kind of value in its own place. -/
theorem Call.inPlace_operation (config : Config) (call : Call) (connection : Connection) :
    (call.operation config connection).Issues (Command.InPlace config) :=
  issues_operation trivial trivial
    ((call.issues_program config).imp fun _ => inPlace_of_allows) connection

/-! ## Keeping a record -/

/-- Two stores that agree on a key: on its text, and on its place in the index. -/
structure Store.AgreeAt (config : Config) (key : String) (before after : Store) : Prop where
  /-- The text is the same. -/
  text : after.texts.get? key = before.texts.get? key
  /-- The place is the same. -/
  score : (after.scores config.indexKey).get? key = (before.scores config.indexKey).get? key

/-- A command that leaves a key alone. -/
def Command.Spares (config : Config) (key : String) (command : Command) : Prop :=
  ∀ facts (store : Store), store.AgreeAt config key (store.run facts command).2

omit [Platform] in
theorem spares_set {other key : String} (h : other ≠ key) (text : String) (seconds : Option Int) :
    (Command.set other text seconds).Spares config key := by
  intro facts store
  rw [Store.run]
  split
  · exact ⟨rfl, rfl⟩
  · refine ⟨?_, rfl⟩
    rw [Table.get?_insert, beq_false_of_ne h]
    rfl

omit [Platform] in
theorem spares_zadd {other key : String} (h : other ≠ key) (score : Binary64) :
    (Command.zadd config.indexKey other score).Spares config key := by
  intro facts store
  refine ⟨rfl, ?_⟩
  rw [Store.run, Store.score_setScore, if_neg h]

omit [Platform] in
/-- A run of commands that leave a key alone leaves it alone. -/
theorem Server.agreeAt_run {α : Type} {p : Program α} {key : String}
    (h : p.Issues (Command.Spares config key)) (schedule : Schedule) (server : Server) :
    server.store.AgreeAt config key (server.run schedule p).2.2.store := by
  have hkeeps : p.Keeps (server.store.AgreeAt config key) fun _ => True :=
    h.keeps fun command hspares facts store hs =>
      ⟨(hspares facts store).text.trans hs.text, (hspares facts store).score.trans hs.score⟩
  exact (Server.run_of_keeps hkeeps schedule ⟨rfl, rfl⟩).1

theorem spares_writeRecord (record : AnalysisRecord) {other key : String} (h : other ≠ key) :
    (writeRecord config record other).Issues (Command.Spares config key) :=
  Call.issues_writeRecord record (spares_set h _ _) fun _ _ => spares_zadd h _

/-- **The keys of one cache are apart.** Keys of records are equal just when the addresses are, up
to case, and the chains are; none is the key of the index or of the counter. So whatever a call is
answered, it changes each kind of value in its own place, and keeping a record leaves every key but
the record's own alone. -/
theorem keys_apart (config : Config) :
    (∀ a n, Json.Short n → ∃ key, config.recordKey a n = .ok key ∧
      key ≠ config.indexKey ∧ key ≠ config.skippedKey) ∧
    (∀ a b m n, Json.Short m → Json.Short n →
      (config.recordKey a m = config.recordKey b n ↔
        Text.lowerString a = Text.lowerString b ∧ m = n)) ∧
    (∀ (call : Call) connection,
      (call.operation config connection).Issues (Command.InPlace config)) ∧
    ∀ schedule (client : Client) record, isVetoed record = false →
      ∀ key, config.recordKey record.address record.chainId ≠ .ok key →
        client.server.store.AgreeAt config key
          (client.step config schedule (.call (.store record))).server.store := by
  refine ⟨fun a n hn => ⟨_, recordKey_of_short hn a, keyText_ne_indexKey a n,
    keyText_ne_skippedKey a n⟩, fun a b m n hm hn => ?_, Call.inPlace_operation config,
    fun schedule client record hveto key hkey => ?_⟩
  · rw [recordKey_of_short hm, recordKey_of_short hn, Except.ok.injEq, keyText_eq_iff]
  · have hprogram : ((Call.store record).program config).Issues (Command.Spares config key) := by
      rw [Call.program]
      cases hown : config.recordKey record.address record.chainId with
      | error failure => trivial
      | ok own =>
        have hother : own ≠ key := fun h => hkey (h ▸ hown)
        have hkeep : (Call.keepRecord config record own).Issues (Command.Spares config key) := by
          simp only [Call.keepRecord, hveto]
          exact spares_writeRecord record hother
        exact hkeep.bind fun _ => trivial
    exact Server.agreeAt_run (Call.issues_operation (fun _ _ => ⟨rfl, rfl⟩)
      (fun _ _ => ⟨rfl, rfl⟩) hprogram client.connection) schedule client.server

end Keys

/-- Colons in an address do not matter, and a kept record leaves the counter alone. -/
theorem keys_apart_day :
    dayConfig.recordKey "0xAB:1" (-1) = dayConfig.recordKey "0xab:1" (-1) ∧
      dayConfig.recordKey "0xAB:1" (-1) ≠ dayConfig.recordKey "0xab" (-1) ∧
      Store.AgreeAt dayConfig dayConfig.skippedKey {}
        (Client.step dayConfig .calm {} (.call (.store factoryRecord))).server.store := by
  obtain ⟨hown, hkey, -, hstep⟩ := keys_apart dayConfig
  have hshort : Json.Short (-1) := by decide
  have hveto : isVetoed factoryRecord = false := rfl
  refine ⟨(hkey _ _ _ _ hshort hshort).mpr (by decide), fun h => ?_, ?_⟩
  · exact absurd ((hkey _ _ _ _ hshort hshort).mp h) (by decide)
  · refine hstep .calm {} factoryRecord hveto dayConfig.skippedKey fun h => ?_
    obtain ⟨key, hmade, -, hne⟩ := hown factoryRecord.address factoryRecord.chainId (by decide)
    exact hne (Except.ok.inj (hmade.symm.trans h))

/-- **A chain with too long a number has no key**, so all of its records have the same none. -/
theorem no_key_of_endless :
    dayConfig.recordKey "0xab" endless = .error .overlong ∧
      dayConfig.recordKey "0xcd" endless = dayConfig.recordKey "0xab" endless ∧
      Text.lowerString "0xcd" ≠ Text.lowerString "0xab" := by
  rw [recordKey_of_not_short not_short_endless, recordKey_of_not_short not_short_endless]
  exact ⟨rfl, rfl, by decide⟩

end ContractLens.Cache
