import ContractLens.NameSet
import ContractLens.Table
import Mathlib.Data.List.Induction
/-!
# Tables and sets from their entries

What each way of changing a table does to the value of a name, and that names stay distinct. A table
made of entries has their names in the order in which they first came (`names_ofEntries`). A table
with distinct names is what its own entries make (`ofEntries_of_nodup`), and a set of names is what
its own members make (`ofList_names`); this is why both survive being written out and read back.
-/

namespace ContractLens

namespace Table

variable {α : Type}

/-! ## Reading changes back -/

theorem get?_cons (known : String) (value : α) (rest : Table α) (name : String) :
    get? ((known, value) :: rest) name = if known = name then some value else get? rest name := by
  by_cases h : known = name <;> simp [get?, h]

theorem get?_erase (table : Table α) (name other : String) :
    get? (erase table name) other = if name = other then none else get? table other := by
  induction table with
  | nil => simp [erase]
  | cons entry rest ih =>
    obtain ⟨known, value⟩ := entry
    rw [erase] at ih
    by_cases hk : known = name
    · subst hk
      rw [get?_cons, erase, List.filter_cons_of_neg (by simp), ih]
      split <;> rfl
    · rw [get?_cons, erase, List.filter_cons_of_pos (by simpa using hk), get?_cons, ih]
      by_cases ho : known = other
      · rw [if_pos ho, if_pos ho, if_neg fun h => hk (ho.trans h.symm)]
      · rw [if_neg ho, if_neg ho]

theorem get?_update (table : Table α) (name other : String) (change : α → α) :
    get? (update table name change) other =
      if name = other then (get? table other).map change else get? table other := by
  induction table with
  | nil => simp [update]
  | cons entry rest ih =>
    obtain ⟨known, value⟩ := entry
    rw [update] at ih
    by_cases hk : known = name
    · subst hk
      simp only [update, List.map_cons, beq_self_eq_true, if_true, get?_cons, ih]
      split <;> rfl
    · have hne : (known == name) = false := by simpa using hk
      simp only [update, List.map_cons, hne, Bool.false_eq_true, if_false, get?_cons, ih]
      by_cases ho : known = other
      · rw [if_pos ho, if_pos ho, if_neg fun h => hk (ho.trans h.symm)]
      · rw [if_neg ho, if_neg ho]

theorem mem_of_get?_eq_some {table : Table α} {name : String} {value : α}
    (h : get? table name = some value) : (name, value) ∈ table := by
  induction table with
  | nil => cases h
  | cons entry rest ih =>
    obtain ⟨known, old⟩ := entry
    rw [get?_cons] at h
    split at h
    · rename_i hk
      cases h
      rw [hk]
      exact List.mem_cons_self
    · exact List.mem_cons_of_mem _ (ih h)

/-- The values of a table whose names are distinct are those of its entries. -/
theorem get?_eq_some_iff {table : Table α} (h : (names table).Nodup) {name : String} {value : α} :
    get? table name = some value ↔ (name, value) ∈ table := by
  refine ⟨mem_of_get?_eq_some, fun hmem => ?_⟩
  induction table with
  | nil => cases hmem
  | cons entry rest ih =>
    obtain ⟨known, old⟩ := entry
    rw [names, List.map_cons, List.nodup_cons] at h
    rw [get?_cons]
    rcases List.mem_cons.mp hmem with heq | hmem
    · cases heq
      exact if_pos rfl
    · have hname : name ∈ rest.map (·.1) := List.mem_map_of_mem hmem
      have hne : known ≠ name := fun he => h.1 (he ▸ hname)
      rw [if_neg hne, ih h.2 hmem]

theorem get?_eq_none_iff {table : Table α} {name : String} :
    get? table name = none ↔ name ∉ names table := by
  induction table with
  | nil => simp [names]
  | cons entry rest ih =>
    obtain ⟨known, value⟩ := entry
    rw [get?_cons]
    by_cases hk : known = name
    · simp [names, hk]
    · rw [if_neg hk, ih]
      simp only [names, List.map_cons, List.mem_cons, not_or]
      exact ⟨fun h => ⟨fun e => hk e.symm, h⟩, fun h => h.2⟩

theorem get?_append (table rest : Table α) (name : String) :
    get? (table ++ rest) name = (get? table name).or (get? rest name) := by
  rw [get?, List.find?_append, Option.map_or, get?, get?]

theorem get?_foldl_insert (entries : List (String × α)) (table : Table α) (name : String) :
    get? (entries.foldl (fun table entry => insert table entry.1 entry.2) table) name =
      (get? entries.reverse name).or (get? table name) := by
  induction entries generalizing table with
  | nil => rfl
  | cons entry entries ih =>
    rw [List.foldl_cons, ih, get?_insert, List.reverse_cons, get?_append, Option.or_assoc,
      get?_cons]
    refine congrArg _ ?_
    by_cases h : entry.1 = name
    · rw [if_pos (beq_iff_eq.mpr h), if_pos h, Option.some_or]
    · rw [if_neg (mt beq_iff_eq.mp h), if_neg h, get?_nil, Option.none_or]

/-- **Of entries with one name the last counts.** -/
theorem get?_ofEntries (entries : List (String × α)) (name : String) :
    get? (ofEntries entries) name = get? entries.reverse name := by
  rw [ofEntries, get?_foldl_insert, get?_nil, Option.or_none]

theorem mem_insert {table : Table α} {name : String} {value : α} {entry : String × α}
    (h : entry ∈ insert table name value) : entry ∈ table ∨ entry = (name, value) := by
  induction table with
  | nil => exact .inr (List.mem_singleton.mp h)
  | cons first rest ih =>
    obtain ⟨known, old⟩ := first
    rw [insert] at h
    split at h
    · rename_i hk
      rcases List.mem_cons.mp h with rfl | h
      · exact .inr (congrArg (·, value) (by simpa using hk))
      · exact .inl (List.mem_cons_of_mem _ h)
    · rcases List.mem_cons.mp h with rfl | h
      · exact .inl List.mem_cons_self
      · exact (ih h).imp_left (List.mem_cons_of_mem _)

/-! ## Distinct names -/

theorem insert_of_not_mem {table : Table α} {name : String} (value : α)
    (h : name ∉ names table) : insert table name value = table ++ [(name, value)] := by
  induction table with
  | nil => rfl
  | cons entry rest ih =>
    obtain ⟨known, old⟩ := entry
    simp only [names, List.map_cons, List.mem_cons, not_or] at h
    have hk : (known == name) = false := by simpa using fun e : known = name => h.1 e.symm
    simp only [insert, hk, Bool.false_eq_true, if_false, ih h.2, List.cons_append]

theorem nodup_names_insert {table : Table α} (name : String) (value : α)
    (h : (names table).Nodup) : (names (insert table name value)).Nodup := by
  by_cases hm : name ∈ names table
  · rwa [names_insert_of_mem value hm]
  · rw [names_insert_of_not_mem value hm]
    exact List.nodup_append.mpr ⟨h, by simp, fun a ha b hb e =>
      hm (List.mem_singleton.mp hb ▸ e ▸ ha)⟩

@[simp] theorem names_update (table : Table α) (name : String) (change : α → α) :
    names (update table name change) = names table := by
  simp only [names, update, List.map_map]
  refine List.map_congr_left fun entry _ => ?_
  rw [Function.comp_apply]
  split <;> rfl

theorem nodup_names_erase {table : Table α} (name : String) (h : (names table).Nodup) :
    (names (erase table name)).Nodup :=
  h.sublist (List.filter_sublist.map _)

theorem nodup_names_foldl {β : Type} (step : Table α → β → Table α)
    (hstep : ∀ table item, (names table).Nodup → (names (step table item)).Nodup)
    (items : List β) {table : Table α} (h : (names table).Nodup) :
    (names (items.foldl step table)).Nodup := by
  induction items generalizing table with
  | nil => exact h
  | cons item items ih => exact ih (hstep table item h)

theorem nodup_names_ofEntries (entries : List (String × α)) :
    (names (ofEntries entries)).Nodup :=
  nodup_names_foldl _ (fun _ entry h => nodup_names_insert entry.1 entry.2 h) entries
    (by simp [names])

/-- **Names keep the order in which they first came.** -/
theorem names_ofEntries (entries : List (String × α)) :
    names (ofEntries entries) = (names entries).eraseDups := by
  induction entries using List.reverseRecOn with
  | nil => rfl
  | append_singleton entries entry ih =>
    have hstep : ofEntries (entries ++ [entry]) =
        insert (ofEntries entries) entry.1 entry.2 := by
      rw [ofEntries, List.foldl_append]
      rfl
    have hnames : names (entries ++ [entry]) = names entries ++ [entry.1] := by
      rw [names, List.map_append]
      rfl
    have hmem : entry.1 ∈ names (ofEntries entries) ↔ entry.1 ∈ names entries := by
      rw [ih, List.mem_eraseDups]
    rw [hstep, hnames, List.eraseDups_append, ← ih]
    by_cases h : entry.1 ∈ names entries
    · rw [names_insert_of_mem _ (hmem.mpr h)]
      simp [List.removeAll, h]
    · have hnew : [entry.1].removeAll (names entries) = [entry.1] := by
        simp [List.removeAll, h]
      rw [names_insert_of_not_mem _ (mt hmem.mp h), hnew]
      rfl

theorem foldl_insert_of_nodup {entries table : Table α} (h : (names (table ++ entries)).Nodup) :
    entries.foldl (fun table entry => insert table entry.1 entry.2) table = table ++ entries := by
  induction entries generalizing table with
  | nil => simp
  | cons entry rest ih =>
    have hn : entry.1 ∉ names table := by
      intro hm
      rw [names, List.map_append, List.nodup_append] at h
      exact h.2.2 _ hm entry.1 (by simp) rfl
    rw [List.foldl_cons, insert_of_not_mem _ hn, ih (by simpa using h)]
    simp

/-- **Entries with distinct names are a table as they stand.** -/
theorem ofEntries_of_nodup {entries : List (String × α)} (h : (names entries).Nodup) :
    ofEntries entries = entries :=
  foldl_insert_of_nodup (by simpa using h)

end Table

namespace NameSet

theorem insertName_of_forall_lt {names : List String} {name : String}
    (h : ∀ x ∈ names, x < name) : insertName name names = names ++ [name] := by
  induction names with
  | nil => rfl
  | cons other names ih =>
    have hlt : other < name := h other (by simp)
    have hnlt : ¬ name < other := fun h => String.lt_irrefl _ (String.lt_trans hlt h)
    have hne : name ≠ other := fun h => String.lt_irrefl _ (h ▸ hlt)
    rw [insertName, if_neg hnlt, if_neg hne, ih fun x hx => h x (by simp [hx]), List.cons_append]

theorem names_foldl_insert {rest : List String} (set : NameSet)
    (h : (set.names ++ rest).Pairwise (· < ·)) :
    (rest.foldl insert set).names = set.names ++ rest := by
  induction rest generalizing set with
  | nil => simp
  | cons name rest ih =>
    have hlast : (set.insert name).names = set.names ++ [name] :=
      insertName_of_forall_lt fun x hx => (List.pairwise_append.mp h).2.2 x hx name (by simp)
    rw [List.foldl_cons, ih (set.insert name) (by rw [hlast]; simpa using h), hlast]
    simp

/-- **A set is made of its own members.** -/
theorem ofList_names (set : NameSet) : ofList set.names = set := by
  have h : (ofList set.names).names = set.names :=
    names_foldl_insert ∅ set.ascending
  cases set
  cases hs : ofList _
  simp only [hs] at h
  subst h
  rfl

end NameSet

end ContractLens
