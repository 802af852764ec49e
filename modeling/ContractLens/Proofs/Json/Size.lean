import ContractLens.Json.Reader
import ContractLens.Proofs.Table
import ContractLens.Proofs.Text.Length
import Mathlib.Data.List.TakeDrop
/-!
# Values are no larger than their texts

The size of a value counts the characters of its texts and names and one more for each item and
member. A value that is read from a text is no larger than the text (`size_read`): every character
and every separator that the size counts was there to be read.

The reader's loops are followed by induction on their fuel, with what was read so far counted in.
-/

namespace ContractLens.Json

mutual

/-- How large a value is. -/
def size : Json → Nat
  | text s => s.length
  | list items => sizeItems items
  | object members => sizeMembers members
  | _ => 0

/-- How large some items are together. -/
def sizeItems : List Json → Nat
  | [] => 0
  | item :: items => size item + 1 + sizeItems items

/-- How large some members are together. -/
def sizeMembers : List (String × Json) → Nat
  | [] => 0
  | (name, value) :: members => name.length + size value + 1 + sizeMembers members

end

@[simp] theorem size_null : size null = 0 := rfl

@[simp] theorem size_bool (b : Bool) : size (bool b) = 0 := rfl

@[simp] theorem size_int (n : Int) : size (int n) = 0 := rfl

@[simp] theorem size_float (x : Binary64) : size (float x) = 0 := rfl

@[simp] theorem size_text (s : String) : size (text s) = s.length := rfl

@[simp] theorem size_list (items : List Json) : size (list items) = sizeItems items := rfl

@[simp] theorem size_object (members : List (String × Json)) :
    size (object members) = sizeMembers members := rfl

theorem sizeItems_eq (items : List Json) :
    sizeItems items = (items.map fun item => size item + 1).sum := by
  induction items with
  | nil => rw [sizeItems, List.map_nil, List.sum_nil]
  | cons item items ih => rw [sizeItems, ih, List.map_cons, List.sum_cons]

theorem sizeMembers_eq (members : List (String × Json)) :
    sizeMembers members = (members.map fun m => m.1.length + size m.2 + 1).sum := by
  induction members with
  | nil => rw [sizeMembers, List.map_nil, List.sum_nil]
  | cons member members ih => rw [sizeMembers, ih, List.map_cons, List.sum_cons]

theorem sizeItems_reverse (items : List Json) : sizeItems items.reverse = sizeItems items := by
  rw [sizeItems_eq, sizeItems_eq, List.map_reverse, List.sum_reverse]

theorem sizeMembers_reverse (members : List (String × Json)) :
    sizeMembers members.reverse = sizeMembers members := by
  rw [sizeMembers_eq, sizeMembers_eq, List.map_reverse, List.sum_reverse]

/-- Setting a member adds no more than the member. -/
theorem sizeMembers_insert (members : Table Json) (name : String) (value : Json) :
    sizeMembers (members.insert name value) ≤
      sizeMembers members + (name.length + size value + 1) := by
  induction members with
  | nil => simp only [Table.insert, sizeMembers, Nat.zero_add, Nat.add_zero, Nat.le_refl]
  | cons member members ih =>
    obtain ⟨known, old⟩ := member
    rw [Table.insert]
    split
    · rename_i hk
      have hk : known = name := by simpa using hk
      subst hk
      simp only [sizeMembers]
      omega
    · simp only [sizeMembers]
      omega

theorem sizeMembers_foldl_insert (entries : List (String × Json)) (table : Table Json) :
    sizeMembers (entries.foldl (fun table entry => Table.insert table entry.1 entry.2) table) ≤
      sizeMembers table + sizeMembers entries := by
  induction entries generalizing table with
  | nil => exact Nat.le_add_right _ _
  | cons entry entries ih =>
    have hstep := sizeMembers_insert table entry.1 entry.2
    have hrest := ih (table.insert entry.1 entry.2)
    rw [List.foldl_cons, sizeMembers]
    omega

theorem sizeMembers_ofEntries (entries : List (String × Json)) :
    sizeMembers (Table.ofEntries entries) ≤ sizeMembers entries := by
  have h := sizeMembers_foldl_insert entries []
  rwa [sizeMembers, Nat.zero_add] at h

theorem size_of_mem {members : List (String × Json)} {member : String × Json}
    (h : member ∈ members) : member.1.length + size member.2 + 1 ≤ sizeMembers members := by
  induction members with
  | nil => cases h
  | cons first members ih =>
    rw [sizeMembers]
    rcases List.mem_cons.mp h with rfl | h
    · exact Nat.le_add_right _ _
    · exact Nat.le_trans (ih h) (Nat.le_add_left _ _)

theorem size_of_get? {members : Table Json} {name : String} {value : Json}
    (h : members.get? name = some value) : size value ≤ sizeMembers members := by
  have hmem := size_of_mem (Table.mem_of_get?_eq_some h)
  dsimp only at hmem
  omega

/-! ## Tokens -/

theorem length_dropSpaces (cs : List Char) : (dropSpaces cs).length ≤ cs.length :=
  (List.dropWhile_sublist isSpace).length_le

theorem length_readUnit? {cs rest : List Char} {unit : Nat}
    (h : readUnit? cs = some (unit, rest)) : rest.length + 4 ≤ cs.length := by
  rw [readUnit?.eq_def] at h
  split at h
  · rename_i a b c d e rest'
    simp only [Option.bind_eq_bind, Option.bind_eq_some_iff] at h
    obtain ⟨_, -, _, -, _, -, _, -, h⟩ := h
    cases h
    simp
  · cases h

theorem length_readUnicodeEscape [Platform] {cs rest : List Char} {c : Char}
    (h : readUnicodeEscape cs = .ok (c, rest)) : rest.length ≤ cs.length := by
  rw [readUnicodeEscape] at h
  split at h
  · cases h
  rename_i unit after hfirst
  have hlen := length_readUnit? hfirst
  split at h
  · -- a first surrogate and what may be the second
    rename_i after' _
    rw [List.length_cons, List.length_cons] at hlen
    split at h
    · cases h
      rw [List.length_cons, List.length_cons]
      omega
    split at h
    · cases h
    rename_i second last hsecond
    have hlast := length_readUnit? hsecond
    split at h
    · obtain ⟨-, rfl⟩ := Prod.mk.inj (Except.ok.inj h)
      omega
    · cases h
      rw [List.length_cons, List.length_cons]
      omega
  · cases h
    omega

/-- A text has no more characters than what was read of it, and its closing mark was read too. -/
theorem length_readText [Platform] {start fuel : Nat} {done cs chars rest : List Char}
    (h : readText start fuel done cs = .ok (chars, rest)) :
    chars.length + rest.length + 1 ≤ done.length + cs.length := by
  -- the next character closes the text, starts an escape, or stands for itself
  induction fuel generalizing done cs with
  | zero =>
    rw [readText.eq_def] at h
    cases h
  | succ fuel ih =>
    cases cs with
    | nil => cases h
    | cons c cs =>
      rw [readText.eq_def] at h
      dsimp only at h
      split at h
      · cases h
        simp only [List.length_reverse, List.length_cons]
        omega
      split at h
      · cases cs with
        | nil => cases h
        | cons e after =>
          simp only at h
          split at h
          · cases hescape : readUnicodeEscape after with
            | error fault =>
              rw [hescape] at h
              cases h
            | ok found =>
              obtain ⟨d, after'⟩ := found
              have hlen := length_readUnicodeEscape hescape
              rw [hescape] at h
              have hrest := ih h
              simp only [List.length_cons] at hrest ⊢
              omega
          · cases hshort : shortEscape? e with
            | none =>
              rw [hshort] at h
              cases h
            | some d =>
              rw [hshort] at h
              have hrest := ih h
              simp only [List.length_cons] at hrest ⊢
              omega
      split at h
      · cases h
      · have hrest := ih h
        simp only [List.length_cons] at hrest ⊢
        omega

theorem length_takeDigits (cs : List Char) : (takeDigits cs).2.length ≤ cs.length := by
  rw [takeDigits, List.span_eq_takeWhile_dropWhile]
  exact (List.dropWhile_sublist _).length_le

theorem length_takeWhole? {cs whole rest : List Char} (h : takeWhole? cs = some (whole, rest)) :
    rest.length ≤ cs.length := by
  rw [takeWhole?.eq_def] at h
  split at h
  · cases h
    exact Nat.le_succ _
  · split at h
    · rename_i c cs' _ _
      have hlen := length_takeDigits (c :: cs')
      rwa [Option.some.inj h] at hlen
    · cases h
  · cases h

theorem length_takeFraction (cs : List Char) : (takeFraction cs).2.length ≤ cs.length := by
  rw [takeFraction.eq_def]
  split
  · rename_i cs'
    have hlen := length_takeDigits cs'
    split
    · exact Nat.le_refl _
    · exact Nat.le_succ_of_le hlen
  · exact Nat.le_refl _

theorem length_takeExponent (cs : List Char) : (takeExponent cs).2.length ≤ cs.length := by
  rw [takeExponent.eq_def]
  cases cs with
  | nil => exact Nat.le_refl _
  | cons mark rest =>
    dsimp only
    split
    · split
      · exact Nat.le_refl _
      · rename_i digits after _ hfound
        -- the sign of the power, if there is one, is passed over first
        have hdigits := congrArg (fun found => found.2.length) hfound
        have hlen : after.length ≤ rest.length := by
          refine Nat.le_trans (Nat.le_trans (Nat.le_of_eq hdigits.symm) (length_takeDigits _)) ?_
          split
          · exact Nat.le_succ _
          · exact Nat.le_succ _
          · exact Nat.le_refl _
        exact Nat.le_succ_of_le hlen
    · exact Nat.le_refl _

theorem readNumber_spec {cs rest : List Char} {j : Json} (h : readNumber cs = .ok (j, rest)) :
    j.size = 0 ∧ rest.length ≤ cs.length := by
  rw [readNumber.eq_def] at h
  dsimp only at h
  split at h
  · cases h
  rename_i whole after hwhole
  have hrest : (takeExponent (takeFraction after).2).2.length ≤ cs.length := by
    refine Nat.le_trans (length_takeExponent _) (Nat.le_trans (length_takeFraction _) ?_)
    refine Nat.le_trans (length_takeWhole? hwhole) ?_
    split
    · exact Nat.le_succ _
    · exact Nat.le_refl _
  split at h
  · split at h
    · cases h
    · cases h
      exact ⟨rfl, hrest⟩
  · cases h
    exact ⟨rfl, hrest⟩

theorem readWord?_spec {cs rest : List Char} {j : Json} (h : readWord? cs = some (j, rest)) :
    j.size = 0 ∧ rest.length ≤ cs.length := by
  obtain ⟨⟨word, value⟩, hmem, hword⟩ := List.exists_of_findSome?_eq_some h
  obtain ⟨after, hdrop, hfound⟩ := Option.map_eq_some_iff.mp hword
  cases hfound
  refine ⟨?_, Text.length_dropStart? hdrop⟩
  simp only [words, List.mem_cons, Prod.mk.injEq, List.not_mem_nil, or_false] at hmem
  rcases hmem with ⟨-, rfl⟩ | ⟨-, rfl⟩ | ⟨-, rfl⟩ | ⟨-, rfl⟩ | ⟨-, rfl⟩ | ⟨-, rfl⟩ <;> rfl

/-! ## Values -/

variable [Platform]

/-- What the readers promise with so much fuel: what they read is no larger than the text it was
read from, together with what was read before. -/
structure Bounded (fuel : Nat) : Prop where
  /-- A value. -/
  value : ∀ {depth : Nat} {cs rest : List Char} {j : Json},
    readValue fuel depth cs = .ok (j, rest) → j.size + rest.length ≤ cs.length
  /-- The items of a list. -/
  items : ∀ {depth : Nat} {done : List Json} {cs rest : List Char} {j : Json},
    readItems fuel depth done cs = .ok (j, rest) →
      j.size + rest.length ≤ sizeItems done + cs.length
  /-- The members of an object. -/
  members : ∀ {depth : Nat} {done : List (String × Json)} {cs rest : List Char} {j : Json},
    readMembers fuel depth done cs = .ok (j, rest) →
      j.size + rest.length ≤ sizeMembers done + cs.length

theorem bounded_zero : Bounded 0 where
  value h := by
    rw [readValue.eq_def] at h
    cases h
  items h := by
    rw [readItems.eq_def] at h
    cases h
  members h := by
    rw [readMembers.eq_def] at h
    cases h

theorem Bounded.readText {start : Nat} {name rest cs : List Char} {fuel : Nat}
    (h : readText start fuel [] cs = .ok (name, rest)) :
    (String.ofList name).length + rest.length + 1 ≤ cs.length := by
  have hlen := length_readText h
  rw [List.length_nil, Nat.zero_add] at hlen
  rwa [String.length_ofList]

theorem Bounded.readValue {fuel depth : Nat} (ih : Bounded fuel) {cs rest : List Char} {j : Json}
    (h : readValue (fuel + 1) depth cs = .ok (j, rest)) : j.size + rest.length ≤ cs.length := by
  rw [Json.readValue.eq_def] at h
  dsimp only at h
  split at h
  -- a text
  · rename_i cs'
    split at h
    · rename_i chars after htext
      have hlen := Bounded.readText htext
      cases h
      rw [size_text, List.length_cons]
      omega
    · cases h
  -- a list, which may be closed at once
  · rename_i cs'
    have hspaces := length_dropSpaces cs'
    split at h
    · cases h
    split at h
    · rename_i after hclose
      rw [hclose, List.length_cons] at hspaces
      cases h
      rw [size_list, sizeItems, List.length_cons]
      omega
    · have hitems := ih.items h
      rw [sizeItems] at hitems
      rw [List.length_cons]
      omega
  -- an object, likewise
  · rename_i cs'
    have hspaces := length_dropSpaces cs'
    split at h
    · cases h
    split at h
    · rename_i after hclose
      rw [hclose, List.length_cons] at hspaces
      cases h
      rw [size_object, sizeMembers, List.length_cons]
      omega
    · have hmembers := ih.members h
      rw [sizeMembers] at hmembers
      rw [List.length_cons]
      omega
  -- a word or a number, which hold no characters
  · split at h
    · rename_i found hword
      cases h
      obtain ⟨hzero, hlen⟩ := readWord?_spec hword
      rw [hzero, Nat.zero_add]
      exact hlen
    · obtain ⟨hzero, hlen⟩ := readNumber_spec h
      rw [hzero, Nat.zero_add]
      exact hlen

theorem Bounded.readItems {fuel depth : Nat} (ih : Bounded fuel) {done : List Json}
    {cs rest : List Char} {j : Json} (h : readItems (fuel + 1) depth done cs = .ok (j, rest)) :
    j.size + rest.length ≤ sizeItems done + cs.length := by
  rw [Json.readItems.eq_def] at h
  dsimp only at h
  split at h
  · cases h
  rename_i item after hitem
  have hlen := ih.value hitem
  have hspaces := length_dropSpaces after
  split at h
  · rename_i last hclose
    rw [hclose, List.length_cons] at hspaces
    cases h
    rw [size_list, sizeItems_reverse, sizeItems]
    omega
  · rename_i last hcomma
    rw [hcomma, List.length_cons] at hspaces
    have hnext := length_dropSpaces last
    have hrest := ih.items h
    rw [sizeItems] at hrest
    omega
  · cases h

theorem Bounded.readMembers {fuel depth : Nat} (ih : Bounded fuel) {done : List (String × Json)}
    {cs rest : List Char} {j : Json} (h : readMembers (fuel + 1) depth done cs = .ok (j, rest)) :
    j.size + rest.length ≤ sizeMembers done + cs.length := by
  rw [Json.readMembers.eq_def] at h
  dsimp only at h
  split at h
  · rename_i cs'
    rw [List.length_cons]
    split at h
    · cases h
    rename_i name after hname
    have hnamelen := Bounded.readText hname
    have hcolon := length_dropSpaces after
    split at h
    · rename_i after' hafter
      rw [hafter, List.length_cons] at hcolon
      have hspaces := length_dropSpaces after'
      split at h
      · cases h
      rename_i value last hvalue
      have hvaluelen := ih.value hvalue
      have hend := length_dropSpaces last
      split at h
      · rename_i last' hclose
        rw [hclose, List.length_cons] at hend
        cases h
        -- members that share a name leave one, so the object is no larger than its members
        have hentries := sizeMembers_ofEntries ((String.ofList name, value) :: done).reverse
        rw [sizeMembers_reverse, sizeMembers] at hentries
        rw [size_object]
        omega
      · rename_i last' hcomma
        rw [hcomma, List.length_cons] at hend
        have hnext := length_dropSpaces last'
        have hrest := ih.members h
        rw [sizeMembers] at hrest
        omega
      · cases h
    · cases h
  · cases h

theorem bounded (fuel : Nat) : Bounded fuel := by
  induction fuel with
  | zero => exact bounded_zero
  | succ fuel ih => exact ⟨ih.readValue, ih.readItems, ih.readMembers⟩

/-- **A value is no larger than the text it was read from.** -/
theorem size_readWithin {depth : Nat} {cs : List Char} {j : Json}
    (h : readWithin depth cs = .ok j) : j.size ≤ cs.length := by
  rw [readWithin] at h
  split at h
  · cases h
  rename_i value rest hvalue
  have hlen := (bounded _).value hvalue
  have hspaces := length_dropSpaces cs
  split at h
  · cases h
    omega
  · cases h

theorem size_read {s : String} {j : Json} (h : read s = .ok j) : j.size ≤ s.length := by
  rw [read] at h
  split at h
  · cases h
  · rw [← String.length_toList]
    exact size_readWithin h

end ContractLens.Json
