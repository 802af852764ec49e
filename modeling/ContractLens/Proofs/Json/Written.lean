import ContractLens.Proofs.Json.Token
/-!
# Written text

What the text of a value without binary numbers looks like, in a layout that puts at most blanks
behind its commas and colons (`Layout.Gapped`): items and members stand between brackets with a
comma and a gap between each two (`writeAt_list_cons`, `writeAt_object_cons`).
-/

namespace ContractLens.Json

/-- A value without binary numbers. -/
inductive Exact : Json → Prop
  | null : Exact null
  | bool (b : Bool) : Exact (bool b)
  | int (n : Int) : Exact (int n)
  | text (s : String) : Exact (text s)
  | list {items : List Json} : (∀ item ∈ items, Exact item) → Exact (list items)
  | object {members : List (String × Json)} :
      (∀ member ∈ members, Exact member.2) → Exact (object members)

/-! ## Gaps -/

/-- Characters that the reader passes over between tokens. -/
def Gap (cs : List Char) : Prop := ∀ c ∈ cs, isSpace c = true

theorem gap_nil : Gap [] := fun _ h => absurd h List.not_mem_nil

/-- A layout in which only blanks follow a comma or a colon. -/
structure Layout.Gapped (layout : Layout) : Prop where
  /-- Items are separated by a comma and a gap. -/
  separator : ∃ gap, layout.separator = ',' :: gap ∧ Gap gap
  /-- A name and its value are separated by a colon and a gap. -/
  colon : ∃ gap, layout.colon = ':' :: gap ∧ Gap gap

theorem Layout.gapped_compact : Layout.compact.Gapped :=
  ⟨⟨[], rfl, gap_nil⟩, ⟨[], rfl, gap_nil⟩⟩

theorem Layout.gapped_indented : Layout.indented.Gapped :=
  ⟨⟨[], rfl, gap_nil⟩, ⟨[' '], rfl, by simp [Gap, isSpace]⟩⟩

/-- The end of a line and the indent of the next are a gap. -/
theorem gap_lineBreak (layout : Layout) (level : Nat) : Gap (lineBreak layout level) := by
  intro c hc
  unfold lineBreak at hc
  split at hc
  · cases hc
  · rcases List.mem_cons.mp hc with rfl | hc
    · rfl
    · rw [(List.mem_replicate.mp hc).2]
      rfl

theorem dropSpaces_gap {gap : List Char} (h : Gap gap) (cs : List Char) :
    dropSpaces (gap ++ cs) = dropSpaces cs :=
  List.dropWhile_append_of_pos h

theorem dropSpaces_cons {c : Char} (h : isSpace c = false) (cs : List Char) :
    dropSpaces (c :: cs) = c :: cs := by
  rw [dropSpaces, List.dropWhile_cons_of_neg (by simp [h])]

/-- What stands between two items of a level: a comma and a gap. -/
theorem Layout.Gapped.between {layout : Layout} (hl : layout.Gapped) (level : Nat) :
    ∃ gap, layout.separator ++ lineBreak layout level = ',' :: gap ∧ Gap gap := by
  obtain ⟨gap, hseparator, hgap⟩ := hl.separator
  refine ⟨gap ++ lineBreak layout level, by rw [hseparator, List.cons_append], fun c hc => ?_⟩
  rcases List.mem_append.mp hc with hc | hc
  · exact hgap c hc
  · exact gap_lineBreak layout level c hc

/-! ## What is written between brackets -/

/-- Items with the same text between each two. -/
def joined (between : List Char) : List (List Char) → List Char
  | [] => []
  | [item] => item
  | item :: next :: rest => item ++ (between ++ joined between (next :: rest))

theorem joined_eq (between first : List Char) (rest : List (List Char)) :
    joined between (first :: rest) = first ++ rest.flatMap (between ++ ·) := by
  induction rest generalizing first with
  | nil => simp [joined]
  | cons next rest ih => simp [joined, ih]

theorem bracketed_cons (layout : Layout) (level : Nat) (opening closing : Char)
    (first : List Char) (rest : List (List Char)) :
    bracketed layout level opening closing (first :: rest) =
      opening :: (lineBreak layout (level + 1) ++
        (joined (layout.separator ++ lineBreak layout (level + 1)) (first :: rest) ++
          (lineBreak layout level ++ [closing]))) := by
  simp [bracketed, joined_eq]

theorem writeItems_eq_map (layout : Layout) (level : Nat) (items : List Json) :
    writeItems layout level items = items.map (writeAt layout level) := by
  induction items with
  | nil => rfl
  | cons item items ih => rw [writeItems, ih, List.map_cons]

/-- A member of an object as it is written. -/
def writeMember (layout : Layout) (level : Nat) (member : String × Json) : List Char :=
  writeText layout.ascii member.1.toList ++ layout.colon ++ writeAt layout level member.2

theorem writeMembers_eq_map (layout : Layout) (level : Nat) (members : List (String × Json)) :
    writeMembers layout level members = members.map (writeMember layout level) := by
  induction members with
  | nil => rfl
  | cons member members ih => rw [writeMembers, ih, List.map_cons, writeMember]

/-- The items of a level as they are written. -/
def itemsText (layout : Layout) (level : Nat) (items : List Json) : List Char :=
  joined (layout.separator ++ lineBreak layout level) (items.map (writeAt layout level))

/-- The members of a level as they are written. -/
def membersText (layout : Layout) (level : Nat) (members : List (String × Json)) : List Char :=
  joined (layout.separator ++ lineBreak layout level) (members.map (writeMember layout level))

theorem writeAt_list_nil (layout : Layout) (level : Nat) :
    writeAt layout level (list []) = ['[', ']'] := by
  rw [writeAt, writeItems, bracketed]

theorem writeAt_list_cons (layout : Layout) (level : Nat) (item : Json) (items : List Json) :
    writeAt layout level (list (item :: items)) =
      '[' :: (lineBreak layout (level + 1) ++ (itemsText layout (level + 1) (item :: items) ++
        (lineBreak layout level ++ [']']))) := by
  rw [writeAt, writeItems_eq_map, List.map_cons, bracketed_cons, itemsText, List.map_cons]

theorem writeAt_object_nil (layout : Layout) (level : Nat) :
    writeAt layout level (object []) = ['\x7b', '\x7d'] := by
  rw [writeAt, writeMembers, bracketed]

theorem writeAt_object_cons (layout : Layout) (level : Nat) (member : String × Json)
    (members : List (String × Json)) :
    writeAt layout level (object (member :: members)) =
      '\x7b' :: (lineBreak layout (level + 1) ++
        (membersText layout (level + 1) (member :: members) ++
          (lineBreak layout level ++ ['\x7d']))) := by
  rw [writeAt, writeMembers_eq_map, List.map_cons, bracketed_cons, membersText, List.map_cons]

theorem writeAt_text (layout : Layout) (level : Nat) (s : String) :
    writeAt layout level (text s) =
      '\x22' :: (s.toList.flatMap (writeChar layout.ascii) ++ ['\x22']) := by
  rw [writeAt, writeText]

end ContractLens.Json
