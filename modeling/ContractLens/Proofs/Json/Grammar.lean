import ContractLens.Proofs.Json.Written
/-!
# The grammar of JSON text

`Spells cs j` says that the characters `cs` are a JSON text for the value `j`, with any gaps between
the tokens. Members of an object are kept as they stand, also where several share a name: what
becomes of those is not a matter of the grammar.

Values without binary numbers are written in this grammar, in every layout (`spells_writeAt`).
-/

namespace ContractLens.Json

variable [Platform]

/-- A gap between two tokens. -/
abbrev Blanks := { cs : List Char // Gap cs }

/-- An item of a list, or the value of a member: its text between two gaps. -/
structure Padded where
  /-- The gap in front. -/
  before : Blanks
  /-- The text of the value. -/
  inner : List Char
  /-- The value. -/
  value : Json
  /-- The gap behind. -/
  after : Blanks

/-- A value and the gaps around it. -/
def Padded.chars (item : Padded) : List Char := item.before ++ (item.inner ++ item.after)

/-- A member of an object: a name, a colon and a value. -/
structure Labelled where
  /-- The gap in front. -/
  before : Blanks
  /-- The characters between the quotation marks of the name. -/
  written : List Char
  /-- The name that they stand for. -/
  name : String
  /-- The gap between the name and the colon. -/
  behind : Blanks
  /-- The value behind the colon. -/
  item : Padded
  isName : Chars written name.toList

/-- A member from its name on. -/
def Labelled.inner (member : Labelled) : List Char :=
  '\x22' :: (member.written ++ '\x22' :: (member.behind ++ ':' :: member.item.chars))

/-- A member and the gaps around it. -/
def Labelled.chars (member : Labelled) : List Char := member.before ++ member.inner

/-- The name of a member and its value. -/
def Labelled.entry (member : Labelled) : String × Json := (member.name, member.item.value)

/-- The JSON texts of a value. -/
inductive Spells : List Char → Json → Prop
  | word {word : List Char} {value : Json} : (word, value) ∈ words → Spells word value
  | number (n : Numeral) : Spells n.chars n.value
  | text {cs : List Char} {s : String} :
      Chars cs s.toList → Spells ('\x22' :: (cs ++ ['\x22'])) (text s)
  | emptyList (gap : Blanks) : Spells ('[' :: (gap ++ [']'])) (list [])
  | list {items : List Padded} :
      items ≠ [] → (∀ item ∈ items, Spells item.inner item.value) →
      Spells ('[' :: (joined [','] (items.map Padded.chars) ++ [']']))
        (list (items.map Padded.value))
  | emptyObject (gap : Blanks) : Spells ('\x7b' :: (gap ++ ['\x7d'])) (object [])
  | object {members : List Labelled} :
      members ≠ [] → (∀ member ∈ members, Spells member.item.inner member.item.value) →
      Spells ('\x7b' :: (joined [','] (members.map Labelled.chars) ++ ['\x7d']))
        (object (members.map Labelled.entry))

/-! ## Where texts start -/

/-- A character that a value may start with. -/
def Starts (c : Char) : Prop :=
  isSpace c = false ∧ c ≠ ']' ∧ c ≠ '\x7d' ∧ c ≠ Char.ofNat 0xFEFF

instance (c : Char) : Decidable (Starts c) := inferInstanceAs (Decidable (_ ∧ _))

omit [Platform] in
theorem starts_of_isDigit {c : Char} (h : c.isDigit = true) : Starts c := by
  have hne : ∀ d : Char, d.isDigit = false → c ≠ d := by
    rintro d hd rfl
    rw [h] at hd
    cases hd
  refine ⟨?_, hne _ (by decide), hne _ (by decide), hne _ (by decide)⟩
  simp only [isSpace, Bool.or_eq_false_iff, beq_eq_false_iff_ne]
  exact ⟨⟨⟨hne _ (by decide), hne _ (by decide)⟩, hne _ (by decide)⟩, hne _ (by decide)⟩

omit [Platform] in
theorem Numeral.starts (n : Numeral) : ∃ c more, n.chars = c :: more ∧ Starts c := by
  obtain ⟨c, more, hc⟩ := List.exists_cons_of_ne_nil n.isWhole.ne_nil
  have hdigit := n.isWhole.isDigit c (by rw [hc]; exact List.mem_cons_self)
  rw [chars, hc]
  cases n.negative with
  | true => exact ⟨'-', _, rfl, by decide⟩
  | false => exact ⟨c, _, rfl, starts_of_isDigit hdigit⟩

omit [Platform] in
theorem words_start : ∀ entry ∈ words, ∃ c more, entry.1 = c :: more ∧ Starts c := by
  simp only [words, List.forall_mem_cons]
  exact ⟨⟨'n', _, rfl, by decide⟩, ⟨'t', _, rfl, by decide⟩, ⟨'f', _, rfl, by decide⟩,
    ⟨'N', _, rfl, by decide⟩, ⟨'I', _, rfl, by decide⟩, ⟨'-', _, rfl, by decide⟩, nofun⟩

/-- **The text of a value starts with what no gap, comma or bracket is taken for.** -/
theorem Spells.starts {cs : List Char} {j : Json} (h : Spells cs j) :
    ∃ c more, cs = c :: more ∧ Starts c := by
  cases h with
  | word hword => exact words_start _ hword
  | number n => exact n.starts
  | text _ => exact ⟨'\x22', _, rfl, by decide⟩
  | emptyList _ => exact ⟨'[', _, rfl, by decide⟩
  | list _ _ => exact ⟨'[', _, rfl, by decide⟩
  | emptyObject _ => exact ⟨'\x7b', _, rfl, by decide⟩
  | object _ _ => exact ⟨'\x7b', _, rfl, by decide⟩

/-- No gap is passed over in front of a value. -/
theorem Spells.dropSpaces_append {cs : List Char} {j : Json} (h : Spells cs j)
    (rest : List Char) : dropSpaces (cs ++ rest) = cs ++ rest := by
  obtain ⟨c, more, rfl, hspace, -⟩ := h.starts
  rw [List.cons_append, dropSpaces_cons hspace]

/-! ## Written values -/

section

variable {α β : Type} (build : Blanks → Blanks → α → β)

/-- Items from left to right, each with the gaps in front of it and behind it. -/
def laidOut (before between after : Blanks) : List α → List β
  | [] => []
  | [last] => [build before after last]
  | item :: next :: items =>
    build before ⟨[], gap_nil⟩ item :: laidOut between between after (next :: items)

variable {build}

omit [Platform] in
theorem map_laidOut (view : β → α) (h : ∀ x y a, view (build x y a) = a)
    (before between after : Blanks) (items : List α) :
    (laidOut build before between after items).map view = items := by
  induction items generalizing before with
  | nil => rfl
  | cons item items ih =>
    cases items with
    | nil => exact congrArg (· :: []) (h _ _ _)
    | cons next items => rw [laidOut, List.map_cons, h, ih]

omit [Platform] in
/-- Gaps around the commas make no difference to the items. -/
theorem joined_laidOut (chars : β → List Char) (inner : α → List Char)
    (h : ∀ x y a, chars (build x y a) = x ++ (inner a ++ y)) (before between after : Blanks)
    {items : List α} (hne : items ≠ []) :
    joined [','] ((laidOut build before between after items).map chars) =
      before ++ (joined (',' :: between) (items.map inner) ++ after) := by
  induction items generalizing before with
  | nil => exact absurd rfl hne
  | cons item items ih =>
    cases items with
    | nil => exact h _ _ _
    | cons next items =>
      obtain ⟨first, rest, hrest⟩ : ∃ first rest,
          (laidOut build between between after (next :: items)).map chars = first :: rest := by
        cases items <;> exact ⟨_, _, rfl⟩
      have hrec := ih between (List.cons_ne_nil next items)
      rw [hrest] at hrec
      rw [laidOut, List.map_cons, hrest, joined, hrec, h]
      simp [joined]

omit [Platform] in
theorem forall_mem_laidOut {p : β → Prop} {items : List α}
    (h : ∀ a ∈ items, ∀ x y, p (build x y a)) (before between after : Blanks) :
    ∀ b ∈ laidOut build before between after items, p b := by
  induction items generalizing before with
  | nil => nofun
  | cons item items ih =>
    cases items with
    | nil => exact List.forall_mem_singleton.mpr (h item List.mem_cons_self _ _)
    | cons next items =>
      exact List.forall_mem_cons.mpr ⟨h item List.mem_cons_self _ _,
        ih (fun a ha => h a (List.mem_cons_of_mem _ ha)) between⟩

end

variable {layout : Layout} (level : Nat)

/-- The indent of a level, as a gap. -/
def indentOf (layout : Layout) : Blanks := ⟨lineBreak layout level, gap_lineBreak layout level⟩

/-- An item of a list as it is written. -/
def writtenItem (layout : Layout) (before after : Blanks) (item : Json) : Padded where
  before := before
  inner := writeAt layout level item
  value := item
  after := after

/-- A member as it is written, with a gap behind its colon. -/
def writtenMember (layout : Layout) (colon before after : Blanks) (member : String × Json) :
    Labelled where
  before := before
  written := member.1.toList.flatMap (writeChar layout.ascii)
  name := member.1
  behind := ⟨[], gap_nil⟩
  item := writtenItem level layout colon after member.2
  isName := chars_flatMap_writeChar layout.ascii member.1.toList

theorem spells_writeAt_list (hl : layout.Gapped) {items : List Json}
    (h : ∀ item ∈ items, ∀ level, Spells (writeAt layout level item) item) :
    Spells (writeAt layout level (list items)) (list items) := by
  cases items with
  | nil =>
    rw [writeAt_list_nil]
    exact .emptyList ⟨[], gap_nil⟩
  | cons item items =>
    obtain ⟨gap, hbetween, hgap⟩ := hl.between (level + 1)
    have hne := List.cons_ne_nil item items
    have hspells := @Spells.list _ (laidOut (writtenItem (level + 1) layout)
      (indentOf (level + 1) layout) ⟨gap, hgap⟩ (indentOf level layout) (item :: items))
      (by cases items <;> exact List.cons_ne_nil _ _)
      (forall_mem_laidOut (fun j hj _ _ => h j hj (level + 1)) _ _ _)
    rw [joined_laidOut Padded.chars (writeAt layout (level + 1)) (fun _ _ _ => rfl) _ _ _ hne,
      map_laidOut Padded.value (fun _ _ _ => rfl), ← hbetween, ← itemsText] at hspells
    rw [writeAt_list_cons]
    simpa [indentOf] using hspells

theorem spells_writeAt_object (hl : layout.Gapped) {members : List (String × Json)}
    (h : ∀ member ∈ members, ∀ level, Spells (writeAt layout level member.2) member.2) :
    Spells (writeAt layout level (object members)) (object members) := by
  cases members with
  | nil =>
    rw [writeAt_object_nil]
    exact .emptyObject ⟨[], gap_nil⟩
  | cons member members =>
    obtain ⟨gap, hbetween, hgap⟩ := hl.between (level + 1)
    obtain ⟨colon, hcolon, hcolonGap⟩ := hl.colon
    have hne := List.cons_ne_nil member members
    have hchars : ∀ before after entry,
        (writtenMember (level + 1) layout ⟨colon, hcolonGap⟩ before after entry).chars =
          before ++ (writeMember layout (level + 1) entry ++ after) := by
      intro before after entry
      simp [writtenMember, writtenItem, Labelled.chars, Labelled.inner, Padded.chars, writeMember,
        writeText, hcolon]
    have hspells := @Spells.object _
      (laidOut (writtenMember (level + 1) layout ⟨colon, hcolonGap⟩)
        (indentOf (level + 1) layout) ⟨gap, hgap⟩ (indentOf level layout) (member :: members))
      (by cases members <;> exact List.cons_ne_nil _ _)
      (forall_mem_laidOut (fun m hm _ _ => h m hm (level + 1)) _ _ _)
    rw [joined_laidOut Labelled.chars (writeMember layout (level + 1)) hchars _ _ _ hne,
      map_laidOut Labelled.entry (fun _ _ _ => rfl), ← hbetween, ← membersText] at hspells
    rw [writeAt_object_cons]
    simpa [indentOf] using hspells

/-- **Values without binary numbers are written in the grammar**, in every layout. -/
theorem spells_writeAt (hl : layout.Gapped) {j : Json} (h : Exact j) :
    Spells (writeAt layout level j) j := by
  induction h generalizing level with
  | null => exact .word (by simp [words, writeAt])
  | bool b => cases b <;> exact .word (by simp [words, writeAt])
  | int n =>
    rw [writeAt, ← Numeral.chars_ofInt, ← Numeral.value_ofInt]
    exact .number _
  | text s =>
    rw [writeAt_text]
    exact .text (chars_flatMap_writeChar layout.ascii s.toList)
  | list _ ih => exact spells_writeAt_list level hl ih
  | object _ ih => exact spells_writeAt_object level hl ih

end ContractLens.Json
