import ContractLens.Analysis.Record
import ContractLens.Proofs.Table
/-!
# Written parts are accepted

For each kind of reader, that it accepts the value that the part is written as, and gives the part
back. A record is put together from these, member by member: a member that is there is read by its
own reader (`required_accepted`, `defaulted_accepted`), and nothing is said about the others.
-/

namespace ContractLens.Schema

variable {α β : Type}

/-! ## Putting parts together -/

theorem Checked.map_eq_accepted {f : α → β} {x : Checked α} {b : β} (h : f <$> x = .accepted b) :
    ∃ a, x = .accepted a ∧ f a = b := by
  cases x with
  | accepted a => exact ⟨a, rfl, Checked.accepted.inj h⟩
  | refused _ => cases h

theorem Checked.seq_eq_accepted {f : Checked (α → β)} {x : Checked α} {b : β}
    (h : f <*> x = .accepted b) : ∃ g a, f = .accepted g ∧ x = .accepted a ∧ g a = b := by
  cases f with
  | accepted g =>
    cases x with
    | accepted a => exact ⟨g, a, rfl, rfl, Checked.accepted.inj h⟩
    | refused _ => cases h
  | refused _ => cases x <;> cases h

theorem Checked.under_eq_accepted {step : Step} {x : Checked α} {a : α}
    (h : Checked.under step x = .accepted a) : x = .accepted a := by
  cases x with
  | accepted b => exact h
  | refused _ => cases h

theorem text_eq_accepted {value : Json} {s : String} (h : text value = .accepted s) :
    value = .text s := by
  cases value with
  | text t =>
    cases h
    rfl
  | _ => cases h

/-! ## Members -/

theorem required_accepted {members : Table Json} {field : FieldName} {read : Reader α}
    {value : Json} {a : α} (hget : Table.get? members field.wire = some value)
    (hread : read value = .accepted a) : required members field read = .accepted a := by
  simp only [required, find?, hget, hread, Checked.under_accepted]

theorem defaulted_accepted {members : Table Json} {field : FieldName} {read : Reader α}
    {absent a : α} {value : Json} (hget : Table.get? members field.wire = some value)
    (hread : read value = .accepted a) : defaulted members field read absent = .accepted a := by
  simp only [defaulted, find?, hget, hread, Checked.under_accepted]

/-- A member that is found, by either of its names, is read by its reader. -/
theorem defaulted_of_find? {members : Table Json} {field : FieldName} {read : Reader α}
    {absent a : α} {name : String} {value : Json} (hfind : find? members field = some (name, value))
    (hread : read value = .accepted a) : defaulted members field read absent = .accepted a := by
  simp only [defaulted, hfind, hread, Checked.under_accepted]

/-- Which value stands for an absent member does not decide whether the member is accepted. -/
theorem exists_defaulted_accepted {members : Table Json} {field : FieldName} {read : Reader α}
    {absent a : α} (h : defaulted members field read absent = .accepted a) (other : α) :
    ∃ b, defaulted members field read other = .accepted b := by
  rw [defaulted] at h ⊢
  cases hfound : find? members field with
  | none => exact ⟨other, rfl⟩
  | some found =>
    rw [hfound] at h
    exact ⟨a, h⟩

/-- A truth value that is there is read as itself, or nothing is read. -/
theorem eq_of_defaulted_bool {members : Table Json} {field : FieldName} {absent a b : Bool}
    (hget : Table.get? members field.wire = some (.bool b))
    (h : defaulted members field bool absent = .accepted a) : a = b := by
  rw [defaulted_accepted (a := b) hget rfl] at h
  exact (Checked.accepted.inj h).symm

/-! ## Kinds of parts -/

theorem items_accepted {read : Reader α} {toJson : α → Json} {parts : List α}
    (h : ∀ a ∈ parts, read (toJson a) = .accepted a) (start : Nat) :
    Checked.items read start (parts.map toJson) = .accepted parts := by
  induction parts generalizing start with
  | nil => rfl
  | cons a parts ih =>
    rw [List.map_cons, Checked.items, h a (by simp), ih fun b hb => h b (by simp [hb])]
    rfl

theorem list_accepted {read : Reader α} {toJson : α → Json} {parts : List α}
    (h : ∀ a ∈ parts, read (toJson a) = .accepted a) :
    list read (.list (parts.map toJson)) = .accepted parts :=
  items_accepted h 0

theorem items_object_accepted {items : List Json}
    (h : ∀ item ∈ items, ∃ members, item = .object members) (start : Nat) :
    Checked.items object start items = .accepted items := by
  have hread : ∀ item ∈ items, object (id item) = .accepted item := by
    intro item hitem
    obtain ⟨members, rfl⟩ := h item hitem
    rfl
  have hitems := items_accepted hread start
  rwa [List.map_id] at hitems

theorem texts_accepted (names : List String) : list text (.texts names) = .accepted names :=
  list_accepted fun _ _ => rfl

theorem nameSet_accepted (set : NameSet) : nameSet (.texts set.names) = .accepted set := by
  have htext : ∀ name ∈ set.names, text (.text name) = .accepted name := fun _ _ => rfl
  rw [Json.texts, nameSet, items_accepted htext, Checked.map_accepted, NameSet.ofList_names]

theorem readValues_accepted {read : Reader α} {toJson : α → Json} {table : Table α}
    (h : ∀ entry ∈ table, read (toJson entry.2) = .accepted entry.2) :
    readValues read (table.map fun entry => (entry.1, toJson entry.2)) = .accepted table := by
  induction table with
  | nil => rfl
  | cons entry table ih =>
    rw [List.map_cons, readValues, h entry (by simp), ih fun e he => h e (by simp [he])]
    rfl

theorem map_accepted {read : Reader α} {toJson : α → Json} {table : Table α}
    (h : ∀ entry ∈ table, read (toJson entry.2) = .accepted entry.2) :
    map read (.object (table.map fun entry => (entry.1, toJson entry.2))) = .accepted table :=
  readValues_accepted h

/-- A part that may be absent is read back if no part is written as null. -/
theorem optional_accepted {read : Reader α} {toJson : α → Json} {part : Option α}
    (hnull : ∀ a ∈ part, toJson a ≠ .null) (h : ∀ a ∈ part, read (toJson a) = .accepted a) :
    optional read (AnalysisRecord.optionalJson toJson part) = .accepted part := by
  cases part with
  | none => rfl
  | some a =>
    have ha := h a rfl
    rw [AnalysisRecord.optionalJson]
    unfold optional
    split
    · rename_i hn
      exact absurd hn (hnull a rfl)
    · rw [ha, Checked.map_accepted]

theorem optionalText_accepted (name : Option String) :
    optional text (.optionalText name) = .accepted name := by
  cases name <;> rfl

theorem integerBetween_accepted {low high n : Int} (hlow : low ≤ n) (hhigh : n ≤ high) :
    integerBetween low high (.int n) = .accepted n := by
  simp only [integerBetween, integerFrom, integer, Checked.require, hlow, hhigh, decide_true,
    if_true]

end ContractLens.Schema
