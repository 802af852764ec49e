import ContractLens.Proofs.Cache.Listing
import ContractLens.Proofs.Cache.RoundTrip
/-!
# Entries that are no records

The text of a key may be anything, and one that is no record is an entry like none when the key is
asked for. A history treats it otherwise: it ends there, with the records that it has found, so
that the entries behind the first one that is no record are hidden (`curtailed_history`). What is
missing is told against the history of the same store without those entries (`Store.cleared`). It
begins with the records found, and goes on unless the page was full or nothing was garbled.
-/

namespace ContractLens.Cache

section Garbled

variable [Platform] {config : Config} {now : Timestamp} {query : Query}

/-! ## Keys -/

/-- The keys before the first whose text is no record. -/
def Store.legible (store : Store) (now : Timestamp) (keys : List String) : List String :=
  keys.takeWhile fun key => !store.garbled now key

theorem Store.legible_append {store : Store} {read : List String}
    (h : ∀ key ∈ read, store.garbled now key = false) (rest : List String) :
    store.legible now (read ++ rest) = read ++ store.legible now rest :=
  List.takeWhile_append_of_pos fun key hkey => by rw [h key hkey]; rfl

theorem Store.legible_cons_of_garbled {store : Store} {key : String}
    (h : store.garbled now key = true) (rest : List String) :
    store.legible now (key :: rest) = [] :=
  List.takeWhile_cons_of_neg (by rw [h]; decide)

theorem Store.legible_eq_self {store : Store} {keys : List String}
    (h : ∀ key ∈ keys, store.garbled now key = false) : store.legible now keys = keys := by
  rw [← List.append_nil keys, Store.legible_append h]
  rfl

theorem Store.exists_eq_legible_append (store : Store) (now : Timestamp) (keys : List String) :
    ∃ rest, keys = store.legible now keys ++ rest :=
  ⟨_, List.takeWhile_append_dropWhile.symm⟩

theorem recordAt?_of_garbled {store : Store} {key : String} (h : store.garbled now key = true) :
    recordAt? store now key = none := by
  rw [Store.garbled] at h
  rw [recordAt?]
  cases htext : store.texts.get? key with
  | none => rfl
  | some text =>
    rw [htext, Option.any_some] at h
    rw [Option.bind_some]
    cases hdecode : AnalysisRecord.decode now text with
    | error failure => rfl
    | ok record =>
      rw [hdecode] at h
      cases h

/-! ## Histories -/

/-- **While no command fails, a history answers the page among the records before the first entry
that is no record.** -/
theorem run_historyRecords_legible (config : Config) (now : Timestamp) (query : Query)
    (server : Server) :
    (server.run .calm (historyRecords config now query)).1 =
      query.page (server.store.recordsOf now
        (server.store.legible now (server.store.ranked config.indexKey))) := by
  obtain ⟨read, rest, hsplit, hfound, hlegible, -, halted⟩ :=
    exists_traversal_calm config now query server
  rw [List.nil_append] at hfound
  rw [hsplit, Store.legible_append hlegible]
  generalize (server.run .calm (historyRecords config now query)).1 = found at hfound halted ⊢
  cases halted with
  | exhausted =>
    rw [hfound]
    exact congrArg (query.page <| server.store.recordsOf now ·) (List.append_nil read).symm
  | full hfull => rw [Query.page_recordsOf_append (hfound ▸ hfull), hfound]
  | @garbled key _ _ htext hdecode =>
    have hgarbled : server.store.garbled now key = true := by
      rw [Store.garbled, htext, Option.any_some, hdecode]
      rfl
    rw [Store.legible_cons_of_garbled hgarbled, List.append_nil, hfound]

/-- The history of a client that is in use, while no command fails. -/
theorem Client.answer_history (config : Config) {client : Client}
    (h : client.connection ≠ .disabled)
    (now : Timestamp) (query : Query) :
    client.answer config .calm (.history now query) =
      query.page (client.server.store.recordsOf now
        (client.server.store.legible now (client.server.store.ranked config.indexKey))) := by
  obtain ⟨ready, hstore, hvalue, -⟩ :=
    (Call.history now query).run_operation_calm config id h client.server
  rw [answer, hvalue, ← hstore]
  exact run_historyRecords_legible config now query ready

/-- A client that holds the text of a record gives the record. -/
theorem Client.answer_get_of_text {client : Client} (h : client.connection ≠ .disabled)
    {record : AnalysisRecord} (hrecord : record.WellFormed)
    (htext : client.server.store.texts.get? (config.keyText record.address record.chainId) =
      some record.encode) (now : Timestamp) :
    client.answer config .calm (.get now record.address record.chainId) = .ok (some record) := by
  have hkey : config.recordKey record.address record.chainId =
      .ok (config.keyText record.address record.chainId) :=
    recordKey_of_short hrecord.chainId _
  refine (congrArg Prod.fst (run_get_calm config now hkey h client.server).1).trans ?_
  rw [recordAt?, htext, Option.bind_some, AnalysisRecord.decode_encode now hrecord]
  rfl

omit [Platform] in
/-- What is asked for of some records is the beginning of what is asked for of more. -/
theorem Query.page_append (query : Query) (records more : List AnalysisRecord) :
    query.page records <+: query.page (records ++ more) := by
  rw [page, page, beyond, beyond, List.filter_append, List.drop_append, List.take_append]
  exact List.prefix_append _ _

/-- The page among the records before the first garbled entry begins the page among all. -/
theorem Query.page_legible (query : Query) (store : Store) (now : Timestamp)
    (keys : List String) :
    query.page (store.recordsOf now (store.legible now keys)) <+:
      query.page (store.recordsOf now keys) := by
  obtain ⟨rest, hkeys⟩ := store.exists_eq_legible_append now keys
  have hrecords := store.recordsOf_append now (store.legible now keys) rest
  rw [← hkeys] at hrecords
  rw [hrecords]
  exact query.page_append _ _

theorem Query.page_legible_of_full {store : Store} {keys : List String}
    (h : (query.page (store.recordsOf now (store.legible now keys))).length = query.size) :
    query.page (store.recordsOf now (store.legible now keys)) =
      query.page (store.recordsOf now keys) := by
  obtain ⟨rest, hkeys⟩ := store.exists_eq_legible_append now keys
  have hpage := Query.page_recordsOf_append h rest
  rw [← hkeys] at hpage
  exact hpage.symm

/-! ## Without the garbled entries -/

/-- The store without the texts of some keys. -/
def Store.eraseAll (store : Store) (keys : List String) : Store := keys.foldl erase store

omit [Platform] in
theorem Store.get?_eraseAll (store : Store) (keys : List String) (key : String) :
    (store.eraseAll keys).texts.get? key =
      if key ∈ keys then none else store.texts.get? key := by
  induction keys generalizing store with
  | nil => rfl
  | cons other keys ih =>
    rw [eraseAll, List.foldl_cons, ← eraseAll, ih, erase, Table.get?_erase]
    by_cases hkeys : key ∈ keys
    · rw [if_pos hkeys, if_pos (List.mem_cons_of_mem other hkeys)]
    · rw [if_neg hkeys]
      simp only [List.mem_cons, hkeys, or_false, eq_comm]

omit [Platform] in
theorem Store.indexes_eraseAll (store : Store) (keys : List String) :
    (store.eraseAll keys).indexes = store.indexes := by
  induction keys generalizing store with
  | nil => rfl
  | cons other keys ih => exact ih (store.erase other)

/-- The store without the entries of the index that are no records. -/
def Store.cleared (config : Config) (now : Timestamp) (store : Store) : Store :=
  store.eraseAll ((store.ranked config.indexKey).filter (store.garbled now))

theorem Store.ranked_cleared (store : Store) :
    (store.cleared config now).ranked config.indexKey = store.ranked config.indexKey :=
  ranked_congr (store.indexes_eraseAll _) config.indexKey

/-- No key of the index is garbled any more, and each has the record that it had. -/
theorem Store.cleared_of_mem {store : Store} {key : String}
    (hkey : key ∈ store.ranked config.indexKey) :
    (store.cleared config now).garbled now key = false ∧
      recordAt? (store.cleared config now) now key = recordAt? store now key := by
  have htext := store.get?_eraseAll ((store.ranked config.indexKey).filter (store.garbled now)) key
  rw [← cleared] at htext
  cases hgarbled : store.garbled now key with
  | true =>
    rw [if_pos (List.mem_filter.mpr ⟨hkey, hgarbled⟩)] at htext
    rw [garbled, recordAt?, htext, recordAt?_of_garbled hgarbled]
    exact ⟨rfl, rfl⟩
  | false =>
    rw [if_neg fun hmem => by simp [hgarbled] at hmem] at htext
    rw [garbled, recordAt?, htext]
    exact ⟨hgarbled, rfl⟩

/-- Without the garbled entries, a client finds the page among all records of the index. -/
theorem Client.answer_history_cleared (config : Config) {client : Client}
    (h : client.connection ≠ .disabled) (now : Timestamp) (query : Query) :
    (client.step config .calm (.change (client.server.store.cleared config now))).answer config
        .calm (.history now query) =
      query.page (client.server.store.recordsOf now
        (client.server.store.ranked config.indexKey)) := by
  let cleared : Client :=
    ⟨{ client.server with store := client.server.store.cleared config now }, client.connection⟩
  have hused : cleared.connection ≠ .disabled := h
  have hwhole := answer_history config hused now query
  rw [Store.ranked_cleared, Store.legible_eq_self fun key hkey => (Store.cleared_of_mem hkey).1,
    Store.recordsOf, List.filterMap_congr fun key hkey => (Store.cleared_of_mem hkey).2,
    ← Store.recordsOf] at hwhole
  exact hwhole

/-- How a history `found` falls short of the history `whole` of the same store without the entries
that are no records. -/
structure Curtailed (config : Config) (now : Timestamp) (query : Query) (store : Store)
    (found whole : List AnalysisRecord) : Prop where
  /-- It is the page among the records before the first such entry. -/
  found_eq : found = query.page (store.recordsOf now
    (store.legible now (store.ranked config.indexKey)))
  /-- Without those entries it is the page among all the records. -/
  whole_eq : whole = query.page (store.recordsOf now (store.ranked config.indexKey))
  /-- What was found is the beginning of the whole. -/
  start : found <+: whole
  /-- It is the whole when the page is full, or when there is no such entry. -/
  eq_of_full : found.length = query.size ∨
    (∀ key ∈ store.ranked config.indexKey, store.garbled now key = false) → found = whole

/-- **An entry that is no record hides the entries behind it from a history**, and no others. A call
for the entry itself finds none. -/
theorem curtailed_history (config : Config) {client : Client} (h : client.connection ≠ .disabled)
    (now : Timestamp) (query : Query) :
    Curtailed config now query client.server.store
        (client.answer config .calm (.history now query))
        ((client.step config .calm
          (.change (client.server.store.cleared config now))).answer config .calm
            (.history now query)) ∧
      ∀ address chainId key, config.recordKey address chainId = .ok key →
        client.server.store.garbled now key = true →
          client.answer config .calm (.get now address chainId) = .ok none := by
  have hfound := client.answer_history config h now query
  have hwhole := client.answer_history_cleared config h now query
  refine ⟨⟨hfound, hwhole, ?_, ?_⟩, fun address chainId key hkey hgarbled => ?_⟩
  · rw [hfound, hwhole]
    exact query.page_legible _ now _
  · rw [hfound, hwhole]
    rintro (hfull | hlegible)
    · exact Query.page_legible_of_full hfull
    · rw [Store.legible_eq_self hlegible]
  · have hvalue := (run_get_calm config now hkey h client.server).1
    rw [recordAt?_of_garbled hgarbled] at hvalue
    exact congrArg Prod.fst hvalue

end Garbled

/-- The key of a record on another chain. -/
def otherKey : String := dayConfig.keyText "0x00" 1

/-- A key whose text is no record, with a later place than that of a record. -/
def garbledStore : Store where
  texts := [(otherKey, "not json"), (factoryKey, factoryRecord.encode)]
  indexes := [(dayConfig.indexKey, [(otherKey, .ofInt 2), (factoryKey, .ofInt 1)])]

/-- A client of that store. -/
def garbledClient : Client := { server := { store := garbledStore } }

theorem curtailed_history_garbledStore :
    Curtailed dayConfig .epoch {} garbledStore
        (garbledClient.answer dayConfig .calm (.history .epoch {}))
        ((garbledClient.step dayConfig .calm
          (.change (garbledStore.cleared dayConfig .epoch))).answer dayConfig .calm
            (.history .epoch {})) ∧
      garbledClient.answer dayConfig .calm (.get .epoch "0x00" 1) = .ok none := by
  have hidle : garbledClient.connection ≠ .disabled := by decide
  have hgarbled : garbledStore.garbled .epoch otherKey = true := by decide +kernel
  obtain ⟨hcurtailed, hmiss⟩ := curtailed_history dayConfig hidle .epoch {}
  exact ⟨hcurtailed, hmiss "0x00" 1 otherKey (recordKey_of_short (by decide) _) hgarbled⟩

/-- **A garbled entry hides a record**: the history is empty, and without that entry it has the
record. -/
theorem hidden_by_garbled :
    garbledClient.answer dayConfig .calm (.history .epoch {}) = [] ∧
      (garbledClient.step dayConfig .calm
        (.change (garbledStore.cleared dayConfig .epoch))).answer dayConfig .calm
          (.history .epoch {}) = [factoryRecord] := by
  have hidle : garbledClient.connection ≠ .disabled := by decide
  have hranked : garbledStore.ranked dayConfig.indexKey = [otherKey, factoryKey] := by
    have hscores : garbledStore.scores dayConfig.indexKey =
        [(otherKey, .ofInt 2), (factoryKey, .ofInt 1)] := by
      decide +kernel
    rw [Store.ranked, hscores, List.mergeSort_of_pairwise (by decide +kernel)]
    rfl
  have hgarbled : garbledStore.garbled .epoch otherKey = true := by decide +kernel
  have hother : otherKey ≠ factoryKey := fun h => absurd (keyText_inj h).2 (by decide)
  have hkept : recordAt? garbledStore .epoch factoryKey = some factoryRecord := by
    rw [recordAt?, garbledStore, Table.get?_cons, if_neg hother, Table.get?_cons, if_pos rfl,
      Option.bind_some, AnalysisRecord.decode_encode .epoch wellFormed_factoryRecord]
    rfl
  have hrecords : garbledStore.recordsOf .epoch (garbledStore.ranked dayConfig.indexKey) =
      [factoryRecord] := by
    rw [hranked, Store.recordsOf, List.filterMap_cons_none (recordAt?_of_garbled hgarbled),
      List.filterMap_cons_some hkept, List.filterMap_nil]
  constructor
  · refine (Client.answer_history dayConfig hidle .epoch {}).trans ?_
    rw [show garbledClient.server.store = garbledStore from rfl, hranked,
      Store.legible_cons_of_garbled hgarbled]
    exact Query.page_nil {}
  · refine (Client.answer_history_cleared dayConfig hidle .epoch {}).trans ?_
    rw [show garbledClient.server.store = garbledStore from rfl, hrecords]
    rfl

end ContractLens.Cache
