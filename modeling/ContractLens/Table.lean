/-!
# Ordered tables

A table maps names to values and remembers the order in which the names first came: setting a known
name keeps its place, a new name goes last (`names_insert_of_mem`, `names_insert_of_not_mem`).
`get?_insert` reads a setting back.
-/

namespace ContractLens

/-- Values by name, in the order in which the names were first set. -/
abbrev Table (α : Type) := List (String × α)

namespace Table

variable {α : Type}

/-- The value of a name. -/
def get? (table : Table α) (name : String) : Option α :=
  (table.find? (·.1 == name)).map (·.2)

/-- The names in order. -/
def names (table : Table α) : List String := table.map (·.1)

/-- Sets the value of a name. -/
def insert : Table α → String → α → Table α
  | [], name, value => [(name, value)]
  | (known, old) :: rest, name, value =>
    if known == name then (known, value) :: rest else (known, old) :: insert rest name value

/-- Changes the value of a name, if it is there. -/
def update (table : Table α) (name : String) (change : α → α) : Table α :=
  List.map (fun entry => if entry.1 == name then (entry.1, change entry.2) else entry) table

/-- Drops a name. -/
def erase (table : Table α) (name : String) : Table α := table.filter fun entry => entry.1 != name

/-- The entries set one after the other. -/
def ofEntries (entries : List (String × α)) : Table α :=
  entries.foldl (fun table entry => insert table entry.1 entry.2) []

@[simp] theorem get?_nil (name : String) : get? ([] : Table α) name = none := rfl

theorem get?_insert (table : Table α) (name other : String) (value : α) :
    get? (insert table name value) other =
      if name == other then some value else get? table other := by
  induction table with
  | nil => by_cases h : name == other <;> simp [insert, get?, h]
  | cons entry rest ih =>
    obtain ⟨known, old⟩ := entry
    unfold insert
    by_cases hk : known = name
    · subst hk
      by_cases ho : known = other <;> simp [get?, ho]
    · by_cases ho : known = other
      · subst ho
        have : (name == known) = false := by simpa using fun h => hk h.symm
        simp [get?, hk, this]
      · have h1 : (known == other) = false := by simpa using ho
        simp only [get?] at ih
        simp [get?, hk, h1, ih]

theorem names_insert_of_mem {table : Table α} {name : String} (value : α)
    (h : name ∈ names table) : names (insert table name value) = names table := by
  induction table with
  | nil => simp [names] at h
  | cons entry rest ih =>
    obtain ⟨known, old⟩ := entry
    unfold insert
    by_cases hk : known = name
    · simp [hk, names]
    · have : name ∈ names rest := by
        simp only [names, List.map_cons, List.mem_cons] at h
        exact h.resolve_left fun h => hk h.symm
      simpa [hk, names] using ih this

theorem names_insert_of_not_mem {table : Table α} {name : String} (value : α)
    (h : name ∉ names table) : names (insert table name value) = names table ++ [name] := by
  induction table with
  | nil => rfl
  | cons entry rest ih =>
    obtain ⟨known, old⟩ := entry
    unfold insert
    simp only [names, List.map_cons, List.mem_cons, not_or] at h
    have hk : ¬ known = name := fun hk => h.1 hk.symm
    simpa [hk, names] using ih h.2

end Table

end ContractLens
