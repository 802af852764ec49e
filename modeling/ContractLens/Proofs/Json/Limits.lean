import ContractLens.Proofs.Json.Plain
/-!
# Limits of the reader

A text of the grammar is refused for one of two reasons only: it is nested too deep, or it holds a
whole number of too many digits (`ReadFailure.Limit`). `Fits` is the bound on a value that keeps
clear of both, and it is exact (`Fits.exists_readBack`, `exists_fault_of_not_fits`).

What is read of an object then has each name once, where it first came, with the value of the last
member of that name (`exists_last_of_readBack`).
-/

namespace ContractLens.Json

/-- A value nested at most so many levels deep, without whole numbers of too many digits. -/
inductive Fits : Nat → Json → Prop
  | null {depth : Nat} : Fits depth null
  | bool {depth : Nat} (b : Bool) : Fits depth (bool b)
  | int {depth : Nat} {n : Int} : Short n → Fits depth (int n)
  | float {depth : Nat} (x : Binary64) : Fits depth (float x)
  | text {depth : Nat} (s : String) : Fits depth (text s)
  | list {depth : Nat} {items : List Json} :
      (∀ item ∈ items, Fits depth item) → Fits (depth + 1) (list items)
  | object {depth : Nat} {members : List (String × Json)} :
      (∀ member ∈ members, Fits depth member.2) → Fits (depth + 1) (object members)

/-- A refusal of what the reader has no room for. -/
inductive ReadFailure.Limit : ReadFailure → Prop
  | hugeInteger {digits : Nat} : maxIntegerDigits < digits → Limit (.hugeInteger digits)
  | tooDeep : Limit .tooDeep

/-- A fault that lies in no place of the text but in what it asks for. -/
def Fault.Limit (fault : Fault) : Prop := ∀ cs, (fault.toFailure cs).Limit

/-! ## Values that fit -/

/-- The members of an object are read as a list of their values is. -/
theorem readBackMembers_eq_zip (depth : Nat) (members : List (String × Json)) :
    readBackMembers depth members =
      (readBackItems depth (members.map (·.2))).map ((Table.names members).zip ·) := by
  induction members with
  | nil => rfl
  | cons member members ih =>
    obtain ⟨name, value⟩ := member
    rw [List.map_cons]
    cases hv : readBack depth value with
    | error fault =>
      rw [readBackMembers_of_error hv, readBackItems_of_error hv]
      rfl
    | ok found =>
      rw [readBackMembers_of_ok hv, readBackItems_of_ok hv, ih]
      cases readBackItems depth (members.map (·.2)) <;> rfl

theorem exists_readBackItems {depth : Nat} {items : List Json}
    (h : ∀ item ∈ items, ∃ found, readBack depth item = .ok found) :
    ∃ found, readBackItems depth items = .ok found := by
  induction items with
  | nil => exact ⟨[], rfl⟩
  | cons item items ih =>
    obtain ⟨⟨value, hvalue⟩, hrest⟩ := List.forall_mem_cons.mp h
    obtain ⟨others, hothers⟩ := ih hrest
    exact ⟨value :: others, by rw [readBackItems_of_ok hvalue, hothers]; rfl⟩

theorem Fits.exists_readBack {depth : Nat} {j : Json} (h : Fits depth j) :
    ∃ found, readBack depth j = .ok found := by
  induction h with
  | null => exact ⟨Json.null, by simp only [readBack]⟩
  | bool b => exact ⟨Json.bool b, by simp only [readBack]⟩
  | @int _ n hn => exact ⟨Json.int n, by rw [readBack, if_neg (Nat.not_lt.mpr hn)]⟩
  | float x => exact ⟨Json.float x, by simp only [readBack]⟩
  | text s => exact ⟨Json.text s, by simp only [readBack]⟩
  | list _ ih =>
    obtain ⟨found, hfound⟩ := exists_readBackItems ih
    rw [readBack, hfound]
    exact ⟨_, rfl⟩
  | object _ ih =>
    obtain ⟨found, hfound⟩ := exists_readBackItems (List.forall_mem_map.mpr ih)
    rw [readBack, readBackMembers_eq_zip, hfound]
    exact ⟨_, rfl⟩

/-! ## Values that do not fit -/

theorem exists_fault_of_items {depth : Nat} {items : List Json}
    (h : ¬ ∀ item ∈ items, Fits depth item)
    (hitems : ∀ item, ¬ Fits depth item →
      ∃ fault, readBack depth item = .error fault ∧ fault.Limit) :
    ∃ fault, readBackItems depth items = .error fault ∧ fault.Limit := by
  induction items with
  | nil => exact absurd nofun h
  | cons item items ih =>
    by_cases hitem : Fits depth item
    · obtain ⟨value, hvalue⟩ := hitem.exists_readBack
      obtain ⟨fault, hfault, hlimit⟩ := ih fun hrest => h (List.forall_mem_cons.mpr ⟨hitem, hrest⟩)
      exact ⟨fault, by rw [readBackItems_of_ok hvalue, hfault]; rfl, hlimit⟩
    · obtain ⟨fault, hfault, hlimit⟩ := hitems item hitem
      exact ⟨fault, readBackItems_of_error hfault items, hlimit⟩

/-- **Whatever does not fit is refused for a limit.** -/
theorem exists_fault_of_not_fits : ∀ {depth : Nat} {j : Json}, ¬ Fits depth j →
    ∃ fault, readBack depth j = .error fault ∧ fault.Limit
  | _, null, h => absurd .null h
  | _, bool b, h => absurd (.bool b) h
  | _, float x, h => absurd (.float x) h
  | _, text s, h => absurd (.text s) h
  | _, int n, h => by
    have hn : maxIntegerDigits < (natDigits n.natAbs).length :=
      Nat.lt_of_not_le fun hn => h (.int hn)
    refine ⟨.hugeInteger _, ?_, fun _ => .hugeInteger hn⟩
    rw [readBack, if_pos hn]
  | 0, list items, _ => ⟨.tooDeep, by simp only [readBack], fun _ => .tooDeep⟩
  | 0, object members, _ => ⟨.tooDeep, by simp only [readBack], fun _ => .tooDeep⟩
  | depth + 1, list items, h => by
    obtain ⟨fault, hfault, hlimit⟩ := exists_fault_of_items (fun hitems => h (.list hitems))
      fun _ hitem => exists_fault_of_not_fits hitem
    refine ⟨fault, ?_, hlimit⟩
    rw [readBack, hfault]
    rfl
  | depth + 1, object members, h => by
    obtain ⟨fault, hfault, hlimit⟩ := exists_fault_of_items
      (fun hvalues => h (.object (List.forall_mem_map.mp hvalues)))
      fun _ hvalue => exists_fault_of_not_fits hvalue
    refine ⟨fault, ?_, hlimit⟩
    rw [readBack, readBackMembers_eq_zip, hfault]
    rfl

/-- A text of the grammar is read if its value fits. -/
theorem read_of_fits [Platform] {cs : List Char} {j : Json} (h : Spells cs j)
    (hfits : Fits Platform.levels j) : ∃ found,
      readBack Platform.levels j = .ok found ∧ read (String.ofList cs) = .ok found := by
  obtain ⟨found, hfound⟩ := hfits.exists_readBack
  have hread := read_of_spells h gap_nil
  rw [List.append_nil, hfound] at hread
  exact ⟨found, hfound, hread⟩

/-! ## Members that share a name -/

/-- The value of the last member with a name. -/
def last? (members : List (String × Json)) (name : String) : Option Json :=
  Table.get? members.reverse name

theorem readBackMembers_append {depth : Nat} {members found others later : List (String × Json)}
    (h : readBackMembers depth members = .ok found)
    (hothers : readBackMembers depth others = .ok later) :
    readBackMembers depth (members ++ others) = .ok (found ++ later) := by
  induction members generalizing found with
  | nil =>
    cases h
    exact hothers
  | cons member members ih =>
    obtain ⟨v, rest, hv, hrest, rfl⟩ := exists_of_readBackMembers_cons h
    rw [List.cons_append, readBackMembers_of_ok hv, ih hrest]
    rfl

theorem readBackMembers_reverse {depth : Nat} {members found : List (String × Json)}
    (h : readBackMembers depth members = .ok found) :
    readBackMembers depth members.reverse = .ok found.reverse := by
  induction members generalizing found with
  | nil =>
    cases h
    rfl
  | cons member members ih =>
    obtain ⟨v, rest, hv, hrest, rfl⟩ := exists_of_readBackMembers_cons h
    rw [List.reverse_cons, List.reverse_cons]
    exact readBackMembers_append (ih hrest) (by rw [readBackMembers_of_ok hv]; rfl)

/-- **What is read of an object has each name once**, where it first came, with the value of the
last member of that name. -/
theorem exists_last_of_readBack {depth : Nat} {members : List (String × Json)} {j : Json}
    (h : readBack depth (object members) = .ok j) :
    ∃ d found, depth = d + 1 ∧ j = object found ∧
      Table.names found = (Table.names members).eraseDups ∧ (Table.names found).Nodup ∧
      ∀ name value, last? members name = some value →
        ∃ v, readBack d value = .ok v ∧ Table.get? found name = some v := by
  cases depth with
  | zero => cases h
  | succ d =>
    rw [readBack] at h
    cases hm : readBackMembers d members with
    | error fault =>
      rw [hm] at h
      cases h
    | ok found =>
      rw [hm] at h
      cases h
      refine ⟨d, Table.ofEntries found, rfl, rfl, ?_, Table.nodup_names_ofEntries found, ?_⟩
      · rw [Table.names_ofEntries, names_readBackMembers hm]
      · intro name value hvalue
        rw [Table.get?_ofEntries]
        exact get?_readBackMembers (readBackMembers_reverse hm) hvalue

end ContractLens.Json
