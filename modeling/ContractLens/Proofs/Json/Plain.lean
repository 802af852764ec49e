import ContractLens.Proofs.Json.ReadBack
/-!
# Values that are read back unchanged

A plain value has no binary numbers and a bounded nesting. With `strict` it also has no integers of
too many digits and no two members of one name, and is then read back as itself
(`read_write_of_plain`). Without, an object whose members have distinct names is still read back
with each member under its name (`exists_member_of_readBack`), whatever the other members hold.

The condition is a parameter, so that one lemma about the shape of a value serves both.
-/

namespace ContractLens.Json

/-- A value without binary numbers that is nested at most so many levels deep and, if `strict`
holds, lies within the reader's other bounds. -/
inductive Plain (strict : Prop) : Nat → Json → Prop
  | null {depth : Nat} : Plain strict depth null
  | bool {depth : Nat} (b : Bool) : Plain strict depth (bool b)
  | int {depth : Nat} {n : Int} : (strict → Short n) → Plain strict depth (int n)
  | text {depth : Nat} (s : String) : Plain strict depth (text s)
  | list {depth : Nat} {items : List Json} :
      (∀ item ∈ items, Plain strict depth item) → Plain strict (depth + 1) (list items)
  | object {depth : Nat} {members : List (String × Json)} :
      (strict → (Table.names members).Nodup) →
      (∀ member ∈ members, Plain strict depth member.2) →
      Plain strict (depth + 1) (object members)

variable {strict : Prop}

theorem Plain.exact {depth : Nat} {j : Json} (h : Plain strict depth j) : Exact j := by
  induction h with
  | null => exact .null
  | bool b => exact .bool b
  | int _ => exact .int _
  | text s => exact .text s
  | list _ ih => exact .list ih
  | object _ _ ih => exact .object ih

theorem Plain.mono {depth : Nat} {j : Json} (h : Plain strict depth j) {deeper : Nat}
    (hle : depth ≤ deeper) : Plain strict deeper j := by
  induction h generalizing deeper with
  | null => exact .null
  | bool b => exact .bool b
  | int hn => exact .int hn
  | text s => exact .text s
  | list _ ih =>
    obtain ⟨d, rfl⟩ : ∃ d, deeper = d + 1 := ⟨deeper - 1, by omega⟩
    exact .list fun item hi => ih item hi (by omega)
  | object hnames _ ih =>
    obtain ⟨d, rfl⟩ : ∃ d, deeper = d + 1 := ⟨deeper - 1, by omega⟩
    exact .object hnames fun member hm => ih member hm (by omega)

theorem readBackItems_eq_self {depth : Nat} {items : List Json}
    (h : ∀ item ∈ items, readBack depth item = .ok item) :
    readBackItems depth items = .ok items := by
  induction items with
  | nil => rfl
  | cons item items ih =>
    rw [readBackItems_of_ok (h item (by simp)), ih fun i hi => h i (by simp [hi])]
    rfl

theorem readBackMembers_eq_self {depth : Nat} {members : List (String × Json)}
    (h : ∀ member ∈ members, readBack depth member.2 = .ok member.2) :
    readBackMembers depth members = .ok members := by
  induction members with
  | nil => rfl
  | cons member members ih =>
    obtain ⟨name, value⟩ := member
    rw [readBackMembers_of_ok (h (name, value) (by simp)), ih fun m hm => h m (by simp [hm])]
    rfl

theorem readBack_of_plain {depth : Nat} {j : Json} (h : Plain strict depth j) (hs : strict) :
    readBack depth j = .ok j := by
  induction h with
  | null => simp only [readBack]
  | bool b => simp only [readBack]
  | int hn => rw [readBack, if_neg (Nat.not_lt.mpr (hn hs))]
  | text s => simp only [readBack]
  | list _ ih =>
    rw [readBack, readBackItems_eq_self ih]
    rfl
  | object hnames _ ih =>
    rw [readBack, readBackMembers_eq_self ih, Except.map, Table.ofEntries_of_nodup (hnames hs)]

/-- **A plain value is read back as itself**, from its text in any layout. -/
theorem read_write_of_plain [Platform] {layout : Layout} (hl : layout.Gapped) {j : Json}
    (h : Plain strict Platform.levels j) (hs : strict) : read (write layout j) = .ok j :=
  (read_write_eq_ok_iff hl h.exact).mpr (readBack_of_plain h hs)

/-- So it is from a line of its own. -/
theorem read_line_of_plain [Platform] {layout : Layout} (hl : layout.Gapped) {j : Json}
    (h : Plain strict Platform.levels j) (hs : strict) : read (write layout j ++ "\n") = .ok j := by
  have hline : write layout j ++ "\n" = String.ofList (writeAt layout 0 j ++ ['\n']) := by
    rw [String.ofList_append]
    rfl
  have hgap : Gap ['\n'] := by simp [Gap, isSpace]
  rw [hline, read_write_gap hl h.exact hgap, readBack_of_plain h hs]
  rfl

/-! ## Plain parts -/

theorem plain_texts (depth : Nat) (names : List String) :
    Plain strict (depth + 1) (texts names) := by
  refine .list fun item hi => ?_
  obtain ⟨name, -, rfl⟩ := List.mem_map.mp hi
  exact .text name

theorem plain_optionalText (depth : Nat) (name : Option String) :
    Plain strict depth (optionalText name) := by
  cases name with
  | none => exact .null
  | some name => exact .text name

theorem plain_list_map {α : Type} {depth : Nat} {toJson : α → Json} {parts : List α}
    (h : ∀ a ∈ parts, Plain strict depth (toJson a)) :
    Plain strict (depth + 1) (list (parts.map toJson)) := by
  refine .list fun item hi => ?_
  obtain ⟨a, ha, rfl⟩ := List.mem_map.mp hi
  exact h a ha

theorem plain_object_map {α : Type} {depth : Nat} {toJson : α → Json} {table : Table α}
    (hnames : strict → (Table.names table).Nodup)
    (h : ∀ entry ∈ table, Plain strict depth (toJson entry.2)) :
    Plain strict (depth + 1) (object (table.map fun entry => (entry.1, toJson entry.2))) := by
  refine .object (fun hs => ?_) fun member hm => ?_
  · simpa [Table.names, Function.comp_def] using hnames hs
  · obtain ⟨entry, he, rfl⟩ := List.mem_map.mp hm
    exact h entry he

/-! ## Members of objects -/

theorem names_readBackMembers {depth : Nat} {members found : List (String × Json)}
    (h : readBackMembers depth members = .ok found) : Table.names found = Table.names members := by
  induction members generalizing found with
  | nil =>
    cases h
    rfl
  | cons member members ih =>
    obtain ⟨v, others, -, hothers, rfl⟩ := exists_of_readBackMembers_cons h
    have hnames := ih hothers
    simp only [Table.names, List.map_cons] at hnames ⊢
    rw [hnames]

theorem get?_readBackMembers {depth : Nat} {members found : List (String × Json)}
    (h : readBackMembers depth members = .ok found) {name : String} {value : Json}
    (hvalue : Table.get? members name = some value) :
    ∃ v, readBack depth value = .ok v ∧ Table.get? found name = some v := by
  induction members generalizing found with
  | nil => cases hvalue
  | cons member members ih =>
    obtain ⟨v, others, hv, hothers, rfl⟩ := exists_of_readBackMembers_cons h
    rw [Table.get?_cons] at hvalue ⊢
    split at hvalue
    · rename_i hk
      cases hvalue
      exact ⟨v, hv, by rw [if_pos hk]⟩
    · rename_i hk
      rw [if_neg hk]
      exact ih hothers hvalue

/-- **An object is read back with each of its members under its name.** -/
theorem exists_member_of_readBack {depth : Nat} {members : List (String × Json)} {j : Json}
    (hnames : (Table.names members).Nodup) (h : readBack depth (object members) = .ok j) :
    ∃ d found, depth = d + 1 ∧ j = object found ∧ ∀ name value,
      Table.get? members name = some value →
        ∃ v, readBack d value = .ok v ∧ Table.get? found name = some v := by
  cases depth with
  | zero => cases h
  | succ d =>
    rw [readBack] at h
    cases hm : readBackMembers d members with
    | error fault =>
      rw [hm] at h
      cases h
    | ok found =>
      rw [hm] at h
      cases h
      have hf : (Table.names found).Nodup := by
        rw [names_readBackMembers hm]
        exact hnames
      exact ⟨d, found, rfl, congrArg object (Table.ofEntries_of_nodup hf),
        fun name value hvalue => get?_readBackMembers hm hvalue⟩

end ContractLens.Json
