import ContractLens.Proofs.Cache.Listing
import ContractLens.Proofs.Cache.Ranking
import ContractLens.Proofs.Cache.RoundTrip
import ContractLens.Proofs.Cache.Skipped
import ContractLens.Proofs.Number.WholeText
/-!
# The ledger of a cache

The ledger of a run has one record for each key: the last one that was kept under it, unless it was
dropped since or its time is over. It is written from the calls alone (`Ledger.step`). A store that
was reached by the same run holds just these records, and each has its place in the index (`Books`).
Places of records that are gone may be left in the index until a history comes by; they have no
text, so they do not show.
-/

namespace ContractLens.Cache

variable [Platform] {config : Config} {now : Timestamp}

/-! ## Ledgers -/

/-- The records that a cache should hold, by key. -/
abbrev Ledger := Table AnalysisRecord

/-- The key under which a record that is handed in is kept, if it is: it may be kept, it can be
written, and there is a time to keep it. -/
def Config.keptKey? (config : Config) (record : AnalysisRecord) : Option String :=
  if isVetoed record || !record.encoded.isOk || config.seconds ≤ 0 then none
  else (config.recordKey record.address record.chainId).toOption

theorem keptKey?_eq_some_iff {record : AnalysisRecord} {key : String} :
    config.keptKey? record = some key ↔ isVetoed record = false ∧
      record.encoded = .ok record.encode ∧ 0 < config.seconds ∧
      config.recordKey record.address record.chainId = .ok key := by
  have htext : record.encoded.isOk = true ↔ record.encoded = .ok record.encode := by
    cases htext : record.encoded with
    | error reason => simp [Except.isOk, Except.toBool]
    | ok text => simp [Except.isOk, Except.toBool, AnalysisRecord.encode_eq_of_encoded htext]
  have hkey : (config.recordKey record.address record.chainId).toOption = some key ↔
      config.recordKey record.address record.chainId = .ok key := by
    cases config.recordKey record.address record.chainId <;> simp [Except.toOption]
  rw [Config.keptKey?, ← htext, ← hkey]
  simp [and_assoc]

theorem keptKey?_of_vetoed {record : AnalysisRecord} (h : isVetoed record = true) :
    config.keptKey? record = none := by
  rw [Config.keptKey?, h]
  rfl

theorem keptKey?_of_no_key {record : AnalysisRecord} {failure : Failure}
    (h : config.recordKey record.address record.chainId = .error failure) :
    config.keptKey? record = none := by
  rw [Config.keptKey?, h, Except.toOption, ite_self]

/-- The ledger after one event. -/
def Ledger.step (config : Config) (ledger : Ledger) : Event → Ledger
  | .call (.store record) =>
    match config.keptKey? record with
    | some key => ledger.insert key record
    | none => ledger
  | .call (.delete address chainId) =>
    match config.recordKey address chainId with
    | .ok key => ledger.erase key
    | .error _ => ledger
  | .lapse key => ledger.erase key
  | _ => ledger

/-- The ledger after some events, of a cache that was empty. -/
def Ledger.after (config : Config) (events : List Event) : Ledger :=
  events.foldl (Ledger.step config) []

/-- The score of a record, if its time has one. -/
def scoreOf (record : AnalysisRecord) : Binary64 :=
  match record.analyzedAt.seconds with
  | .ok score => score
  | .error _ => .ofInt 0

/-- The place of a record: its key and the time of its analysis. -/
def placeOf (x : String × AnalysisRecord) : String × Binary64 := (x.1, scoreOf x.2)

/-- The records of a ledger, the latest analysis first. -/
def Ledger.recent (ledger : Ledger) : List AnalysisRecord :=
  (ledger.mergeSort fun x y => Store.ranksBefore (placeOf x) (placeOf y)).map (·.2)

/-- An event that the cache is told of: the records that are kept can be listed, and nobody else
changes the store. -/
def Event.Told (config : Config) : Event → Prop
  | .call (.store record) => (config.keptKey? record).isSome → Listable record
  | .call _ | .close | .lapse _ => True
  | .change _ => False

/-- The seconds of a point in time are a number. -/
theorem seconds_ne_nan {t : Timestamp} {score : Binary64} (h : t.seconds = .ok score) :
    score ≠ .nan := by
  rw [Timestamp.seconds] at h
  split at h
  · cases h
    exact Binary64.ofRatio_ne_nan _ _ _
  cases hwhole : Timestamp.ofLocal (Int.fdiv t.microseconds 1000000) with
  | error fault =>
    rw [hwhole] at h
    cases h
  | ok whole =>
    rw [hwhole] at h
    cases h
    have hmicro : t.time.micro.log2 < 1000 := by
      by_cases hzero : t.time.micro = 0
      · rw [hzero]
        decide
      · have htwenty : t.time.micro < 2 ^ 20 := t.time.valid.2.2.2.trans (by decide)
        exact ((Nat.log2_lt hzero).mpr htwenty).trans (by decide)
    cases hfraction : Binary64.ofRatio false t.time.micro 1000000 with
    | finite negative mantissa exponent =>
      exact Binary64.add_ne_nan (Binary64.ofRatio_ne_nan _ _ _) negative mantissa exponent
    | infinite sign => exact absurd hfraction (Binary64.ofRatio_ne_infinite hmicro _ _ _)
    | nan => exact absurd hfraction (Binary64.ofRatio_ne_nan _ _ _)

theorem scoreOf_eq {record : AnalysisRecord} {score : Binary64}
    (h : record.analyzedAt.seconds = .ok score) : scoreOf record = score := by
  rw [scoreOf, h]

theorem scoreOf_ne_nan (record : AnalysisRecord) : scoreOf record ≠ .nan := by
  rw [scoreOf]
  cases hscore : record.analyzedAt.seconds with
  | ok score => exact seconds_ne_nan hscore
  | error fault =>
    have hzero : Binary64.ofInt 0 ≠ .nan := by decide
    exact hzero

/-! ## Books -/

/-- A store that holds the records of a ledger, with at most so many refusals counted. -/
structure Books (config : Config) (ledger : Ledger) (store : Store) (refusals : Nat) : Prop where
  /-- The ledger has each key once. -/
  keys : (Table.names ledger).Nodup
  /-- Its records can be listed. -/
  records : ∀ key record, ledger.get? key = some record → Listable record
  /-- Each text but the counter is that of the record in the ledger. -/
  texts : ∀ key, key ≠ config.skippedKey →
    store.texts.get? key = (ledger.get? key).map AnalysisRecord.encode
  /-- Each record in the ledger has its place. -/
  places : ∀ key record, ledger.get? key = some record →
    (store.scores config.indexKey).get? key = some (scoreOf record)
  /-- The index has each key once. -/
  nodup : (Table.names (store.scores config.indexKey)).Nodup
  /-- Its scores are numbers. -/
  numbers : ∀ x ∈ store.scores config.indexKey, x.2 ≠ .nan
  /-- The counter has no place. -/
  unplaced : (store.scores config.indexKey).get? config.skippedKey = none
  /-- The counter is a number. -/
  counter : store.texts.get? config.skippedKey = none ∨
    ∃ n : Nat, n ≤ refusals ∧ store.texts.get? config.skippedKey = some (intText n)

namespace Books

variable {ledger : Ledger} {store : Store} {refusals : Nat}

theorem empty (config : Config) : Books config [] {} 0 where
  keys := List.nodup_nil
  records _ _ h := absurd h nofun
  texts _ _ := rfl
  places _ _ h := absurd h nofun
  nodup := List.nodup_nil
  numbers _ h := absurd h List.not_mem_nil
  unplaced := rfl
  counter := .inl rfl

theorem mono (h : Books config ledger store refusals) {more : Nat} (hle : refusals ≤ more) :
    Books config ledger store more :=
  { h with counter := h.counter.imp_right fun ⟨n, hn, htext⟩ => ⟨n, hn.trans hle, htext⟩ }

/-- The time of a key is over. -/
theorem erase (h : Books config ledger store refusals) (key : String) :
    Books config (ledger.erase key) (store.erase key) refusals where
  keys := Table.nodup_names_erase key h.keys
  records other record hrecord := by
    rw [Table.get?_erase] at hrecord
    split at hrecord
    · cases hrecord
    · exact h.records other record hrecord
  texts other hother := by
    rw [Store.erase, Table.get?_erase, Table.get?_erase]
    split
    · rfl
    · exact h.texts other hother
  places other record hrecord := by
    rw [Table.get?_erase] at hrecord
    split at hrecord
    · cases hrecord
    · exact h.places other record hrecord
  nodup := h.nodup
  numbers := h.numbers
  unplaced := h.unplaced
  counter := by
    rw [Store.erase, Table.get?_erase]
    split
    · exact .inl rfl
    · exact h.counter

/-- A key without a record is dropped from the index. -/
theorem eraseScore (h : Books config ledger store refusals) {key : String}
    (hkey : ledger.get? key = none) :
    Books config ledger (store.eraseScore config.indexKey key) refusals where
  keys := h.keys
  records := h.records
  texts := h.texts
  places other record hrecord := by
    have hne : key ≠ other := by
      rintro rfl
      rw [hkey] at hrecord
      cases hrecord
    rw [Store.score_eraseScore, if_neg hne]
    exact h.places other record hrecord
  nodup := by
    rw [Store.scores_eraseScore, if_pos rfl]
    exact Table.nodup_names_erase key h.nodup
  numbers x hx := by
    rw [Store.scores_eraseScore, if_pos rfl] at hx
    exact h.numbers x (List.mem_of_mem_filter hx)
  unplaced := by rw [Store.score_eraseScore, h.unplaced, ite_self]
  counter := h.counter

/-- A record is kept. -/
theorem insert (h : Books config ledger store refusals) {key : String}
    (hkey : key ≠ config.skippedKey) {record : AnalysisRecord} (hrecord : Listable record)
    (lifetimes : Table (Option Int)) :
    Books config (ledger.insert key record)
      (Store.setScore
        { store with texts := store.texts.insert key record.encode, lifetimes := lifetimes }
        config.indexKey key (scoreOf record)) refusals where
  keys := Table.nodup_names_insert key record h.keys
  records other found hfound := by
    rw [Table.get?_insert] at hfound
    split at hfound
    · cases hfound
      exact hrecord
    · exact h.records other found hfound
  texts other hother := by
    rw [Store.setScore, Table.get?_insert, Table.get?_insert]
    split
    · rfl
    · exact h.texts other hother
  places other found hfound := by
    rw [Table.get?_insert] at hfound
    rw [Store.score_setScore]
    by_cases hsame : key = other
    · rw [if_pos (beq_iff_eq.mpr hsame)] at hfound
      cases hfound
      rw [if_pos hsame]
    · rw [if_neg (by simpa using hsame)] at hfound
      rw [if_neg hsame]
      exact h.places other found hfound
  nodup := by
    rw [Store.scores_setScore, if_pos rfl]
    exact Table.nodup_names_insert key _ h.nodup
  numbers x hx := by
    rw [Store.scores_setScore, if_pos rfl] at hx
    rcases Table.mem_insert hx with hx | rfl
    · exact h.numbers x hx
    · exact scoreOf_ne_nan record
  unplaced := by
    rw [Store.score_setScore, if_neg hkey]
    exact h.unplaced
  counter := by
    rw [Store.setScore, Table.get?_insert, beq_false_of_ne hkey]
    exact h.counter

/-- A record that must not be kept is counted. -/
theorem refused (h : Books config ledger store refusals) {after : Store}
    (hrefused : Refused config store after) : Books config ledger after (refusals + 1) := by
  have hscores : after.scores config.indexKey = store.scores config.indexKey := by
    rw [Store.scores, hrefused.indexes, ← Store.scores]
  refine ⟨h.keys, h.records, fun key hkey => (hrefused.texts key hkey).trans (h.texts key hkey),
    hscores ▸ h.places, hscores ▸ h.nodup, hscores ▸ h.numbers, hscores ▸ h.unplaced, ?_⟩
  rcases hrefused.counter with hsame | ⟨n, hcount, htext⟩
  · rw [hsame]
    exact (h.mono (Nat.le_succ _)).counter
  -- the counter was a number that counts no more than the refusals
  obtain ⟨before, hbefore, rfl⟩ : ∃ before : Nat, before ≤ refusals ∧ n = before := by
    rw [Store.counted?] at hcount
    rcases h.counter with hnone | ⟨before, hbefore, hcounted⟩
    · rw [hnone] at hcount
      exact ⟨0, Nat.zero_le _, (Option.some.inj hcount).symm⟩
    · rw [hcounted] at hcount
      simp only [wholeNumber?_intText] at hcount
      split at hcount
      · cases hcount
      · exact ⟨before, hbefore, (Option.some.inj hcount).symm⟩
  exact .inr ⟨before + 1, Nat.succ_le_succ hbefore, htext⟩

end Books

end ContractLens.Cache
