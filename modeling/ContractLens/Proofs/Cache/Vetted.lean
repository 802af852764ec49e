import ContractLens.Proofs.Analysis.Encoded
import ContractLens.Proofs.Analysis.ReadBack
import ContractLens.Proofs.Cache.Key
import ContractLens.Proofs.Cache.Operation
/-!
# Only vetted records are held

A store is vetted when each text under a record's key is the text of a record that may be kept, and
no text at all decodes to a record of an upgradeable contract. Every operation of the cache keeps a
store vetted, whichever of its commands fail, and what reading gives out of a vetted store is no
record of an upgradeable contract (`keeps_get`, `keeps_history`).

The two commands that write a text are the only ones to look at: `SET` writes the text of a record
that passed the veto, and `INCR` a whole number, which is no record, under a key that is no
record's.
-/

namespace ContractLens.Cache

variable [Platform] {config : Config}

/-- No text of a store is a record, and no record's key has a text. -/
structure HoldsNoRecord (config : Config) (store : Store) : Prop where
  /-- The keys of records are free. -/
  keys : ∀ address chainId key, config.recordKey address chainId = .ok key →
    store.texts.get? key = none
  /-- No text under another key decodes to a record. -/
  texts : ∀ key text, store.texts.get? key = some text →
    ∀ now found, AnalysisRecord.decode now text ≠ .ok found

/-- Each record that a store holds may be kept. -/
structure Vetted (config : Config) (store : Store) : Prop where
  /-- Each text under a record's key is written from a record that may be kept. -/
  keys : ∀ address chainId key, config.recordKey address chainId = .ok key →
    ∀ text, store.texts.get? key = some text → ∃ record : AnalysisRecord,
      text = record.encode ∧ record.isUpgradeable = false ∧ record.cacheEligible = true
  /-- No text, under whatever key, decodes to a record of an upgradeable contract. -/
  texts : ∀ key text, store.texts.get? key = some text →
    ∀ now found, AnalysisRecord.decode now text = .ok found → found.isUpgradeable = false

theorem HoldsNoRecord.vetted {store : Store} (h : HoldsNoRecord config store) :
    Vetted config store where
  keys address chainId key hkey text htext := by
    rw [h.keys address chainId key hkey] at htext
    cases htext
  texts key text htext now found hdecode := absurd hdecode (h.texts key text htext now found)

/-- A store with no other texts is vetted as well. -/
theorem Vetted.of_texts {store after : Store} (h : Vetted config store)
    (hsub : ∀ key text, after.texts.get? key = some text → store.texts.get? key = some text) :
    Vetted config after where
  keys address chainId key hkey text htext :=
    h.keys address chainId key hkey text (hsub key text htext)
  texts key text htext := h.texts key text (hsub key text htext)

/-! ## Commands that write -/

/-- Writing the text of a record that may be kept keeps a store vetted, under whatever key. -/
theorem Vetted.insert_record {store : Store} (h : Vetted config store) {record : AnalysisRecord}
    (hupgradeable : record.isUpgradeable = false) (heligible : record.cacheEligible = true)
    {after : Store} {key : String} (htexts : after.texts = store.texts.insert key record.encode) :
    Vetted config after where
  keys address chainId other hkey text htext := by
    rw [htexts, Table.get?_insert] at htext
    split at htext
    · cases htext
      exact ⟨record, rfl, hupgradeable, heligible⟩
    · exact h.keys address chainId other hkey text htext
  texts other text htext now found hdecode := by
    rw [htexts, Table.get?_insert] at htext
    split at htext
    · cases htext
      rw [(AnalysisRecord.flags_of_decode_encode hdecode).1, hupgradeable]
    · exact h.texts other text htext now found hdecode

/-- The text of a whole number is no record. -/
theorem decode_intText_ne_ok (now : Timestamp) (n : Int) (found : AnalysisRecord) :
    AnalysisRecord.decode now (intText n) ≠ .ok found := by
  have hwrite : intText n = (Json.int n).write .compact := by
    rw [Json.write, Json.writeAt, intText]
  intro h
  cases hread : Json.read (intText n) with
  | error reason =>
    rw [AnalysisRecord.decode, hread] at h
    cases h
  | ok value =>
    rw [hwrite] at hread
    -- the text is read as a number, if at all, and a number is no record
    have hback := (Json.read_write_eq_ok_iff Json.Layout.gapped_compact (.int n)).mp hread
    rw [Json.readBack] at hback
    split at hback
    · cases hback
    · cases hback
      rw [AnalysisRecord.decode, hwrite, hread] at h
      cases h

/-- Counting a skipped record keeps a store vetted. -/
theorem Vetted.insert_counter {store : Store} (h : Vetted config store) (n : Int) {after : Store}
    (htexts : after.texts = store.texts.insert config.skippedKey (intText n)) :
    Vetted config after where
  keys address chainId key hkey text htext := by
    have hne : (config.skippedKey == key) = false :=
      beq_false_of_ne ((recordKey_eq_ok_iff.mp hkey).2 ▸
        (keyText_ne_skippedKey address chainId).symm)
    rw [htexts, Table.get?_insert, hne] at htext
    exact h.keys address chainId key hkey text htext
  texts other text htext now found hdecode := by
    rw [htexts, Table.get?_insert] at htext
    split at htext
    · cases htext
      exact absurd hdecode (decode_intText_ne_ok now n found)
    · exact h.texts other text htext now found hdecode

omit [Platform] in
theorem run_incr_texts (facts : Table Json) (store : Store) (key : String) :
    (store.run facts (.incr key)).2.texts = store.texts ∨
      ∃ n, (store.run facts (.incr key)).2.texts = store.texts.insert key (intText n) := by
  rw [Store.run]
  split
  · exact .inl rfl
  · exact .inr ⟨_, rfl⟩

/-- Whether a command may set a text. -/
def Command.writes : Command → Bool
  | .set .. | .incr _ => true
  | _ => false

theorem Vetted.erase {store : Store} (h : Vetted config store) (key : String) :
    Vetted config (store.erase key) :=
  h.of_texts fun other text htext => by
    rw [Store.erase, Table.get?_erase] at htext
    split at htext
    · cases htext
    · exact htext

/-- A command that sets no text keeps a store vetted. -/
theorem Vetted.run {store : Store} (h : Vetted config store) (facts : Table Json)
    {command : Command} (hc : command.writes = false) :
    Vetted config (store.run facts command).2 := by
  cases command with
  | set => cases hc
  | incr => cases hc
  | delete key => exact h.erase key
  | zadd | zrem => exact h.of_texts fun _ _ htext => htext
  | _ => exact h

/-- A program that starts with a command that sets no text. -/
theorem keeps_issue {α : Type} {post : α → Prop} {command : Command}
    {next : Except Fault command.Answer → Program α} (hc : command.writes = false)
    (hfault : ∀ fault, (next (.error fault)).Keeps (Vetted config) post)
    (hanswer : ∀ facts store, Vetted config store →
      (next (store.run facts command).1).Keeps (Vetted config) post) :
    (Program.issue command next).Keeps (Vetted config) post :=
  ⟨hfault, fun facts store hs => ⟨hs.run facts hc, hanswer facts store hs⟩⟩

/-! ## Operations -/

/-- An answer that is of a kind unless it is a failure. -/
def Gives {α : Type} (post : α → Prop) (answer : Except Failure α) : Prop :=
  ∀ value, answer = .ok value → post value

omit [Platform] in
theorem gives_ok {α : Type} {post : α → Prop} {value : α} (h : post value) :
    Gives post (.ok value) := fun _ hvalue => Except.ok.inj hvalue ▸ h

omit [Platform] in
/-- With a key, a program keeps what it keeps with each; without one, everything. -/
theorem keeps_withKey {α : Type} {inv : Store → Prop} {post : α → Prop}
    {program : String → Program α} (h : ∀ key, (program key).Keeps inv post)
    (key : Except Failure String) : (withKey key program).Keeps inv (Gives post) := by
  cases key with
  | error failure => exact fun _ => nofun
  | ok key => exact (h key).bind fun answer hanswer => gives_ok hanswer

/-- A record that an operation gives out, if it gives one. -/
def NotUpgradeable (found : Option AnalysisRecord) : Prop :=
  ∀ record ∈ found, record.isUpgradeable = false

omit [Platform] in
theorem notUpgradeable_none : NotUpgradeable none := fun _ h => absurd h (Option.not_mem_none _)

theorem keeps_getRecord (now : Timestamp) (key : String) :
    (getRecord now key).Keeps (Vetted config) NotUpgradeable := by
  refine keeps_issue rfl (fun _ => notUpgradeable_none) fun facts store hs => ?_
  cases htext : store.texts.get? key with
  | none =>
    simp only [Store.run, htext]
    exact notUpgradeable_none
  | some s =>
    simp only [Store.run, htext]
    cases hdecode : AnalysisRecord.decode now s with
    | error failure => exact notUpgradeable_none
    | ok record =>
      intro found hfound
      cases Option.mem_some.mp hfound
      exact hs.texts key s htext now record hdecode

/-- **No operation finds a record of an upgradeable contract** in a vetted store. -/
theorem keeps_get (now : Timestamp) (address : String) (chainId : Int) (connection : Connection) :
    (get config now address chainId connection).Keeps (Vetted config) fun found =>
      Gives NotUpgradeable found.1 :=
  keeps_whenReady (gives_ok notUpgradeable_none) (keeps_withKey (keeps_getRecord now) _) connection

theorem keeps_countSkipped (config : Config) :
    (countSkipped config).Keeps (Vetted config) fun _ => True := by
  refine ⟨fun fault => trivial, fun facts store hs => ⟨?_, ?_⟩⟩
  · rcases run_incr_texts facts store config.skippedKey with htexts | ⟨n, htexts⟩
    · exact hs.of_texts fun key text htext => by rwa [htexts] at htext
    · exact hs.insert_counter n htexts
  · cases (store.run facts (.incr config.skippedKey)).1 <;> exact trivial

theorem keeps_writeRecord {record : AnalysisRecord} (h : isVetoed record = false) (key : String) :
    (writeRecord config record key).Keeps (Vetted config) fun _ => True := by
  obtain ⟨hupgradeable, heligible⟩ :
      record.isUpgradeable = false ∧ record.cacheEligible = true := by
    simpa [isVetoed] using h
  rw [writeRecord]
  cases htext : record.encoded with
  | error reason => trivial
  | ok text => ?_
  obtain rfl := AnalysisRecord.encode_eq_of_encoded htext
  refine ⟨fun fault => trivial, fun facts store hs => ⟨?_, ?_⟩⟩
  · rw [Store.run]
    split
    · exact hs
    · exact hs.insert_record hupgradeable heligible rfl
  · cases (store.run facts (.set key record.encode (some config.seconds))).1 with
    | error fault => trivial
    | ok _ =>
      dsimp only
      split
      · trivial
      · exact keeps_issue rfl (fun _ => trivial) fun _ _ _ => trivial

theorem keeps_store (record : AnalysisRecord) (connection : Connection) :
    (store config record connection).Keeps (Vetted config) fun _ => True := by
  cases hkey : config.recordKey record.address record.chainId with
  | error failure =>
    rw [store_of_no_key hkey]
    trivial
  | ok key => ?_
  rw [store_apply hkey]
  refine (keeps_ready (Vetted config) config connection).bind fun found _ => ?_
  cases hveto : isVetoed record with
  | true =>
    cases found.1 with
    | true => exact (keeps_countSkipped config).bind fun _ _ => trivial
    | false => trivial
  | false =>
    cases found.1 with
    | true => exact (keeps_writeRecord hveto key).bind fun _ _ => trivial
    | false => trivial

theorem keeps_deleteRecord (key : String) :
    (deleteRecord config key).Keeps (Vetted config) fun _ => True :=
  keeps_issue rfl (fun _ => trivial) fun _ _ _ =>
    keeps_issue rfl (fun _ => trivial) fun _ _ _ => trivial

theorem keeps_delete (address : String) (chainId : Int) (connection : Connection) :
    (delete config address chainId connection).Keeps (Vetted config) fun found =>
      Gives (fun _ => True) found.1 :=
  keeps_whenReady (gives_ok trivial) (keeps_withKey keeps_deleteRecord _) connection

/-- None of the records that an operation gives out is upgradeable. -/
def NoneUpgradeable (found : List AnalysisRecord) : Prop :=
  ∀ record ∈ found, record.isUpgradeable = false

omit [Platform] in
theorem noneUpgradeable_nil : NoneUpgradeable [] := fun _ h => absurd h List.not_mem_nil

theorem keeps_historyFrom (now : Timestamp) (query : Query) (keys : List String) (skipped : Int)
    {found : List AnalysisRecord} (h : NoneUpgradeable found) :
    (historyFrom config now query skipped found keys).Keeps (Vetted config) NoneUpgradeable := by
  induction keys generalizing skipped found with
  | nil => exact h
  | cons key keys ih =>
    refine keeps_issue rfl (fun _ => h) fun facts store hs => ?_
    cases htext : store.texts.get? key with
    | none =>
      -- a key without a text is dropped from the index on the way
      simp only [Store.run, htext]
      exact keeps_issue rfl (fun _ => h) fun _ _ _ => ih skipped h
    | some s =>
      simp only [Store.run, htext]
      cases hdecode : AnalysisRecord.decode now s with
      | error failure => exact h
      | ok record =>
        have hadded : NoneUpgradeable (found ++ [record]) := by
          intro r hr
          rcases List.mem_append.mp hr with hr | hr
          · exact h r hr
          · rw [List.mem_singleton.mp hr]
            exact hs.texts key s htext now record hdecode
        -- the record is not wanted, skipped, the last one asked for, or one of several
        simp only
        split_ifs
        · exact ih skipped h
        · exact ih (skipped + 1) h
        · exact hadded
        · exact ih skipped hadded

theorem keeps_historyRecords (now : Timestamp) (query : Query) :
    (historyRecords config now query).Keeps (Vetted config) NoneUpgradeable :=
  keeps_issue rfl (fun _ => noneUpgradeable_nil) fun _ store _ =>
    keeps_historyFrom now query (store.ranked config.indexKey) 0 noneUpgradeable_nil

/-- **No history shows a record of an upgradeable contract** in a vetted store. -/
theorem keeps_history (now : Timestamp) (query : Query) (connection : Connection) :
    (history config now query connection).Keeps (Vetted config) fun found =>
      NoneUpgradeable found.1 :=
  keeps_whenReady noneUpgradeable_nil (keeps_historyRecords now query) connection

theorem keeps_askStats (config : Config) :
    (askStats config).Keeps (Vetted config) fun _ => True := by
  refine keeps_issue rfl (fun _ => trivial) fun facts _ _ => ?_
  refine keeps_issue rfl (fun _ => trivial) fun _ store _ => ?_
  refine keeps_issue rfl (fun _ => trivial) fun _ _ _ => ?_
  simp only [Store.run]
  split <;> trivial

theorem keeps_stats (connection : Connection) :
    (stats config connection).Keeps (Vetted config) fun _ => True :=
  keeps_whenReady trivial (keeps_askStats config) connection

theorem keeps_close (connection : Connection) :
    (close connection).Keeps (Vetted config) fun _ => True := by
  cases connection with
  | active => exact keeps_issue rfl (fun _ => trivial) fun _ _ _ => trivial
  | idle => trivial
  | disabled => trivial

end ContractLens.Cache
