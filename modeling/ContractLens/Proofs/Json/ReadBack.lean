import ContractLens.Proofs.Json.Grammar
import ContractLens.Proofs.Table
/-!
# Values are read back

`readBack` says what the reader makes of a text for a value: the value itself, but for integers with
too many digits, nesting that is too deep, and members that share a name. `Spells.reads` is the
statement for a value inside a text, by induction on the grammar with the reader's loops over items
and members carried along; `read_of_spells` is the one for a whole text.

The gaps of a text have no part in what is read, nor has the way in which a character is written. So
a written value is read back from any layout (`read_write_gap`).
-/

namespace ContractLens.Json

variable [Platform]

mutual

/-- What the reader makes of a written value when `depth` levels of nesting are allowed. -/
def readBack : (depth : Nat) → Json → Except Fault Json
  | _, int n =>
    if maxIntegerDigits < (natDigits n.natAbs).length then
      .error (.hugeInteger (natDigits n.natAbs).length)
    else .ok (int n)
  | 0, list _ => .error .tooDeep
  | 0, object _ => .error .tooDeep
  | depth + 1, list items => (readBackItems depth items).map list
  | depth + 1, object members =>
    (readBackMembers depth members).map fun found => object (Table.ofEntries found)
  | _, value => .ok value

/-- What the reader makes of the items of a list. -/
def readBackItems (depth : Nat) : List Json → Except Fault (List Json)
  | [] => .ok []
  | item :: items => do
    let found ← readBack depth item
    let others ← readBackItems depth items
    return found :: others

/-- What the reader makes of the members of an object, in the order of the text. -/
def readBackMembers (depth : Nat) : List (String × Json) → Except Fault (List (String × Json))
  | [] => .ok []
  | (name, value) :: members => do
    let found ← readBack depth value
    let others ← readBackMembers depth members
    return (name, found) :: others

end

omit [Platform] in
theorem readBackItems_of_error {depth : Nat} {item : Json} {fault : Fault}
    (h : readBack depth item = .error fault) (items : List Json) :
    readBackItems depth (item :: items) = .error fault := by
  rw [readBackItems, h]
  rfl

omit [Platform] in
theorem readBackItems_of_ok {depth : Nat} {item value : Json} (h : readBack depth item = .ok value)
    (items : List Json) :
    readBackItems depth (item :: items) = (readBackItems depth items).map (value :: ·) := by
  rw [readBackItems, h]
  rfl

omit [Platform] in
theorem readBackMembers_of_error {depth : Nat} {name : String} {value : Json} {fault : Fault}
    (h : readBack depth value = .error fault) (members : List (String × Json)) :
    readBackMembers depth ((name, value) :: members) = .error fault := by
  rw [readBackMembers, h]
  rfl

omit [Platform] in
theorem readBackMembers_of_ok {depth : Nat} {name : String} {value found : Json}
    (h : readBack depth value = .ok found) (members : List (String × Json)) :
    readBackMembers depth ((name, value) :: members) =
      (readBackMembers depth members).map ((name, found) :: ·) := by
  rw [readBackMembers, h]
  rfl

omit [Platform] in
/-- What the members of an object were read as tells what each of their values was read as. -/
theorem exists_of_readBackMembers_cons {depth : Nat} {name : String} {value : Json}
    {members found : List (String × Json)}
    (h : readBackMembers depth ((name, value) :: members) = .ok found) :
    ∃ v others, readBack depth value = .ok v ∧ readBackMembers depth members = .ok others ∧
      found = (name, v) :: others := by
  cases hv : readBack depth value with
  | error fault =>
    rw [readBackMembers_of_error hv] at h
    cases h
  | ok v =>
    rw [readBackMembers_of_ok hv] at h
    cases hothers : readBackMembers depth members with
    | error fault =>
      rw [hothers] at h
      cases h
    | ok others =>
      rw [hothers] at h
      cases h
      exact ⟨v, others, rfl, rfl, rfl⟩

/-! ## Reading single values -/

/-- A value that is neither a text nor in brackets is a word or a number. -/
theorem readValue_plain (fuel depth : Nat) {c : Char} {cs : List Char}
    (hc : c ≠ '\x22' ∧ c ≠ '[' ∧ c ≠ '\x7b') :
    readValue (fuel + 1) depth (c :: cs) =
      match readWord? (c :: cs) with
      | some found => .ok found
      | none => readNumber (c :: cs) := by
  unfold readValue
  split
  · rename_i h
    exact absurd (List.cons.inj h).1 hc.1
  · rename_i h
    exact absurd (List.cons.inj h).1 hc.2.1
  · rename_i h
    exact absurd (List.cons.inj h).1 hc.2.2
  · rfl

omit [Platform] in
theorem readWord?_of_isDigit {c : Char} (hc : c.isDigit = true) (cs : List Char) :
    readWord? (c :: cs) = none := by
  have hne : ∀ w : Char, w.isDigit = false → (w == c) = false := by
    intro w hw
    refine beq_false_of_ne fun h => ?_
    rw [h, hc] at hw
    cases hw
  have hn := hne 'n' (by decide)
  have ht := hne 't' (by decide)
  have hf := hne 'f' (by decide)
  have hN := hne 'N' (by decide)
  have hi := hne 'I' (by decide)
  have hm := hne '-' (by decide)
  simp [readWord?, words, Text.dropStart?, hn, ht, hf, hN, hi, hm]

omit [Platform] in
theorem readWord?_of_minus {d : Char} (hd : d.isDigit = true) (cs : List Char) :
    readWord? ('-' :: d :: cs) = none := by
  have hI : ('I' == d) = false := by
    refine beq_false_of_ne ?_
    rintro rfl
    exact absurd hd (by decide)
  simp [readWord?, words, Text.dropStart?, hI]

/-- No number is taken for a word, a text or a bracket. -/
theorem readValue_numeral (fuel depth : Nat) (n : Numeral) (rest : List Char) :
    readValue (fuel + 1) depth (n.chars ++ rest) = readNumber (n.chars ++ rest) := by
  obtain ⟨d, more, hd⟩ := List.exists_cons_of_ne_nil n.isWhole.ne_nil
  have hdigit : d.isDigit = true := n.isWhole.isDigit d (by rw [hd]; exact List.mem_cons_self)
  rw [Numeral.chars, hd]
  cases n.negative with
  | true =>
    have hword := readWord?_of_minus hdigit (more ++ n.tail ++ rest)
    rw [Binary64.signText, if_pos rfl]
    simp only [List.cons_append, List.nil_append]
    rw [readValue_plain fuel depth (by decide), hword]
  | false =>
    have hplain : d ≠ '\x22' ∧ d ≠ '[' ∧ d ≠ '\x7b' := by
      refine ⟨?_, ?_, ?_⟩ <;> (rintro rfl; exact absurd hdigit (by decide))
    have hword := readWord?_of_isDigit hdigit (more ++ n.tail ++ rest)
    rw [Binary64.signText, if_neg Bool.false_ne_true]
    simp only [List.cons_append, List.nil_append]
    rw [readValue_plain fuel depth hplain, hword]

omit [Platform] in
theorem readBack_numeral (depth : Nat) (n : Numeral) :
    readBack depth n.value =
      if n.isInteger && decide (maxIntegerDigits < n.whole.length) then
        .error (.hugeInteger n.whole.length)
      else .ok n.value := by
  have hdigits := natDigits_ofDigitChars n.isWhole.ne_nil n.isWhole.isDigit n.leading
  have habs : n.integer.natAbs = Nat.ofDigitChars 10 n.whole 0 := by
    rw [Numeral.integer]
    split
    · rw [Int.natAbs_neg, Int.natAbs_natCast]
    · rw [Int.natAbs_natCast]
  rw [Numeral.value]
  cases n.isInteger with
  | false => simp only [Bool.false_eq_true, if_false, readBack, Bool.false_and]
  | true => simp only [if_true, readBack, habs, hdigits, Bool.true_and, decide_eq_true_eq]

/-- A text that is read back as its value wherever it stands, given enough fuel. -/
def Reads (cs : List Char) (j : Json) : Prop :=
  ∀ fuel depth rest, Follows rest → cs.length ≤ fuel →
    readValue (fuel + 1) depth (cs ++ rest) = (readBack depth j).map fun value => (value, rest)

theorem reads_number (n : Numeral) : Reads n.chars n.value := by
  intro fuel depth rest hr _
  rw [readValue_numeral, readNumber_numeral n hr, readBack_numeral]
  split <;> rfl

theorem reads_word {word : List Char} {value : Json} (h : (word, value) ∈ words) :
    Reads word value := by
  intro fuel depth rest _ _
  simp only [words, List.mem_cons, Prod.mk.injEq, List.not_mem_nil, or_false] at h
  rcases h with ⟨rfl, rfl⟩ | ⟨rfl, rfl⟩ | ⟨rfl, rfl⟩ | ⟨rfl, rfl⟩ | ⟨rfl, rfl⟩ | ⟨rfl, rfl⟩ <;>
    exact readValue_plain fuel depth (by decide)

theorem readText_quoted {cs : List Char} {s : String} (h : Chars cs s.toList) (start : Nat)
    (rest : List Char) :
    readText start ((cs ++ '\x22' :: rest).length + 1) [] (cs ++ '\x22' :: rest) =
      .ok (s.toList, rest) := by
  rw [readText_chars h start rest [] _ (by rw [List.length_append]; omega), List.reverse_nil,
    List.nil_append]

theorem reads_text {cs : List Char} {s : String} (h : Chars cs s.toList) :
    Reads ('\x22' :: (cs ++ ['\x22'])) (text s) := by
  intro fuel depth rest _ _
  rw [List.cons_append, List.append_assoc, List.singleton_append]
  simp only [readValue, readText_quoted h, String.ofList_toList, readBack]
  rfl

/-! ## Reading what is between brackets -/

/-- A mark that ends an item or a member. -/
def Ends (c : Char) : Prop := c = ',' ∨ c = ']' ∨ c = '\x7d'

omit [Platform] in
/-- A value may end at the gap in front of such a mark. -/
theorem follows_gap_cons {gap : List Char} (hgap : Gap gap) {c : Char} (hc : Ends c)
    (rest : List Char) : Follows (gap ++ c :: rest) := by
  cases gap with
  | nil =>
    rintro d hd
    obtain rfl : c = d := Option.some.inj hd
    exact hc.imp_right fun h => h.imp_right .inl
  | cons d more =>
    rintro e he
    obtain rfl : d = e := Option.some.inj he
    exact .inr (.inr (.inr (hgap d List.mem_cons_self)))

omit [Platform] in
theorem dropSpaces_gap_cons {gap : List Char} (hgap : Gap gap) {c : Char} (hc : Ends c)
    (rest : List Char) : dropSpaces (gap ++ c :: rest) = c :: rest := by
  have hspace : isSpace c = false := by rcases hc with rfl | rfl | rfl <;> rfl
  rw [dropSpaces_gap hgap, dropSpaces_cons hspace]

theorem dropSpaces_padded {item : Padded} (h : Spells item.inner item.value)
    (rest : List Char) :
    dropSpaces (item.chars ++ rest) = item.inner ++ (item.after ++ rest) := by
  rw [Padded.chars, List.append_assoc, List.append_assoc, dropSpaces_gap item.before.property,
    h.dropSpaces_append]

omit [Platform] in
theorem length_inner_le (item : Padded) : item.inner.length ≤ item.chars.length := by
  simp only [Padded.chars, List.length_append]
  omega

theorem readItems_fault {fuel depth : Nat} {done : List Json} {cs : List Char} {fault : Fault}
    (h : readValue fuel depth cs = .error fault) :
    readItems (fuel + 1) depth done cs = .error fault := by
  simp only [readItems, h]

theorem readItems_close {fuel depth : Nat} {done : List Json} {cs tail rest : List Char}
    {item : Json} (h : readValue fuel depth cs = .ok (item, tail))
    (htail : dropSpaces tail = ']' :: rest) :
    readItems (fuel + 1) depth done cs = .ok (list (done.reverse ++ [item]), rest) := by
  simp only [readItems, h, htail, List.reverse_cons]

theorem readItems_comma {fuel depth : Nat} {done : List Json} {cs tail rest : List Char}
    {item : Json} (h : readValue fuel depth cs = .ok (item, tail))
    (htail : dropSpaces tail = ',' :: rest) :
    readItems (fuel + 1) depth done cs =
      readItems fuel depth (item :: done) (dropSpaces rest) := by
  simp only [readItems, h, htail]

/-- **Items are read back one after the other**, if each of them is. -/
theorem readItems_joined (depth : Nat) (rest : List Char) {items : List Padded}
    (hne : items ≠ [])
    (h : ∀ item ∈ items, Spells item.inner item.value ∧ Reads item.inner item.value) (fuel : Nat)
    (hfuel : (joined [','] (items.map Padded.chars)).length ≤ fuel) (done : List Json) :
    readItems (fuel + 2) depth done
        (dropSpaces (joined [','] (items.map Padded.chars) ++ ']' :: rest)) =
      (readBackItems depth (items.map Padded.value)).map fun found =>
        (list (done.reverse ++ found), rest) := by
  -- the last item ends the list, and every other one is followed by a comma
  induction items generalizing fuel done with
  | nil => exact absurd rfl hne
  | cons item items ih =>
    obtain ⟨hspells, hreads⟩ := h item List.mem_cons_self
    have hinner := length_inner_le item
    cases items with
    | nil =>
      have hlast : joined [','] ([item].map Padded.chars) = item.chars := rfl
      have hend : Ends ']' := .inr (.inl rfl)
      rw [hlast] at hfuel ⊢
      have hval := hreads fuel depth (item.after ++ ']' :: rest)
        (follows_gap_cons item.after.property hend rest) (by omega)
      rw [dropSpaces_padded hspells, List.map_cons]
      cases hb : readBack depth item.value with
      | error fault =>
        rw [hb] at hval
        rw [readItems_fault hval, readBackItems_of_error hb]
        rfl
      | ok value =>
        rw [hb] at hval
        rw [readItems_close hval (dropSpaces_gap_cons item.after.property hend rest),
          readBackItems_of_ok hb]
        rfl
    | cons next items =>
      have hsplit : joined [','] ((item :: next :: items).map Padded.chars) =
          item.chars ++ ',' :: joined [','] ((next :: items).map Padded.chars) := rfl
      have hrest := ih (List.cons_ne_nil next items) fun i hi => h i (List.mem_cons_of_mem _ hi)
      rw [hsplit] at hfuel ⊢
      generalize joined [','] ((next :: items).map Padded.chars) = others at *
      rw [List.length_append, List.length_cons] at hfuel
      obtain ⟨fuel, rfl⟩ : ∃ f, fuel = f + 1 := ⟨fuel - 1, by omega⟩
      have hval := hreads (fuel + 1) depth (item.after ++ ',' :: (others ++ ']' :: rest))
        (follows_gap_cons item.after.property (.inl rfl) _) (by omega)
      rw [List.append_assoc, List.cons_append, dropSpaces_padded hspells, List.map_cons]
      cases hb : readBack depth item.value with
      | error fault =>
        rw [hb] at hval
        rw [readItems_fault hval, readBackItems_of_error hb]
        rfl
      | ok value =>
        rw [hb] at hval
        rw [readItems_comma hval (dropSpaces_gap_cons item.after.property (.inl rfl) _),
          hrest fuel (by omega), readBackItems_of_ok hb]
        cases readBackItems depth ((next :: items).map Padded.value) <;> simp [Except.map]

/-- What becomes of a member once its value was read: the object ends, or goes on behind a comma. -/
def afterMember (fuel depth : Nat) (done : List (String × Json)) (name : String) :
    Except Fault (Json × List Char) → Except Fault (Json × List Char)
  | .error fault => .error fault
  | .ok (value, rest) =>
    match dropSpaces rest with
    | '\x7d' :: rest => .ok (object (Table.ofEntries ((name, value) :: done).reverse), rest)
    | ',' :: rest => readMembers fuel depth ((name, value) :: done) (dropSpaces rest)
    | rest => .error (.at .comma rest.length)

theorem dropSpaces_labelled (member : Labelled) (rest : List Char) :
    dropSpaces (member.chars ++ rest) = member.inner ++ rest := by
  rw [Labelled.chars, List.append_assoc, dropSpaces_gap member.before.property, Labelled.inner,
    List.cons_append, dropSpaces_cons (by decide)]

theorem length_item_le (member : Labelled) :
    member.item.inner.length ≤ member.chars.length := by
  have hinner := length_inner_le member.item
  simp only [Labelled.chars, Labelled.inner, List.length_append, List.length_cons]
  omega

/-- A member is read as its name and then its value, behind the colon and the gap. -/
theorem readMembers_start (fuel depth : Nat) (done : List (String × Json)) {member : Labelled}
    (h : Spells member.item.inner member.item.value) (rest : List Char) :
    readMembers (fuel + 1) depth done (member.inner ++ rest) =
      afterMember fuel depth done member.name
        (readValue fuel depth (member.item.inner ++ (member.item.after ++ rest))) := by
  have hcolon : ∀ cs, dropSpaces (member.behind ++ ':' :: cs) = ':' :: cs := fun cs => by
    rw [dropSpaces_gap member.behind.property, dropSpaces_cons (by decide)]
  rw [Labelled.inner, List.cons_append, List.append_assoc, List.cons_append, List.append_assoc,
    List.cons_append]
  simp only [readMembers, readText_quoted member.isName, hcolon, dropSpaces_padded h,
    String.ofList_toList]
  rfl

theorem readMembers_fault {fuel depth : Nat} {done : List (String × Json)} {member : Labelled}
    (hs : Spells member.item.inner member.item.value) {rest : List Char} {fault : Fault}
    (h : readValue fuel depth (member.item.inner ++ (member.item.after ++ rest)) = .error fault) :
    readMembers (fuel + 1) depth done (member.inner ++ rest) = .error fault := by
  rw [readMembers_start fuel depth done hs, h, afterMember]

theorem readMembers_close {fuel depth : Nat} {done : List (String × Json)} {member : Labelled}
    (hs : Spells member.item.inner member.item.value) {rest tail after : List Char} {value : Json}
    (h : readValue fuel depth (member.item.inner ++ (member.item.after ++ rest)) =
      .ok (value, tail)) (htail : dropSpaces tail = '\x7d' :: after) :
    readMembers (fuel + 1) depth done (member.inner ++ rest) =
      .ok (object (Table.ofEntries (done.reverse ++ [(member.name, value)])), after) := by
  rw [readMembers_start fuel depth done hs, h]
  simp only [afterMember, htail, List.reverse_cons]

theorem readMembers_comma {fuel depth : Nat} {done : List (String × Json)} {member : Labelled}
    (hs : Spells member.item.inner member.item.value) {rest tail after : List Char} {value : Json}
    (h : readValue fuel depth (member.item.inner ++ (member.item.after ++ rest)) =
      .ok (value, tail)) (htail : dropSpaces tail = ',' :: after) :
    readMembers (fuel + 1) depth done (member.inner ++ rest) =
      readMembers fuel depth ((member.name, value) :: done) (dropSpaces after) := by
  rw [readMembers_start fuel depth done hs, h]
  simp only [afterMember, htail]

/-- **Members are read back one after the other**, if each of their values is. -/
theorem readMembers_joined (depth : Nat) (rest : List Char) {members : List Labelled}
    (hne : members ≠ [])
    (h : ∀ member ∈ members, Spells member.item.inner member.item.value ∧
      Reads member.item.inner member.item.value) (fuel : Nat)
    (hfuel : (joined [','] (members.map Labelled.chars)).length ≤ fuel)
    (done : List (String × Json)) :
    readMembers (fuel + 2) depth done
        (dropSpaces (joined [','] (members.map Labelled.chars) ++ '\x7d' :: rest)) =
      (readBackMembers depth (members.map Labelled.entry)).map fun found =>
        (object (Table.ofEntries (done.reverse ++ found)), rest) := by
  -- as for items; the name in front of each value needs no fuel of its own
  induction members generalizing fuel done with
  | nil => exact absurd rfl hne
  | cons member members ih =>
    obtain ⟨hspells, hreads⟩ := h member List.mem_cons_self
    have hinner := length_item_le member
    have hentry : member.entry = (member.name, member.item.value) := rfl
    cases members with
    | nil =>
      have hlast : joined [','] ([member].map Labelled.chars) = member.chars := rfl
      have hend : Ends '\x7d' := .inr (.inr rfl)
      rw [hlast] at hfuel ⊢
      have hval := hreads fuel depth (member.item.after ++ '\x7d' :: rest)
        (follows_gap_cons member.item.after.property hend rest) (by omega)
      rw [dropSpaces_labelled, List.map_cons, hentry]
      cases hb : readBack depth member.item.value with
      | error fault =>
        rw [hb] at hval
        rw [readMembers_fault hspells hval, readBackMembers_of_error hb]
        rfl
      | ok value =>
        rw [hb] at hval
        rw [readMembers_close hspells hval
          (dropSpaces_gap_cons member.item.after.property hend rest), readBackMembers_of_ok hb]
        rfl
    | cons next members =>
      have hsplit : joined [','] ((member :: next :: members).map Labelled.chars) =
          member.chars ++ ',' :: joined [','] ((next :: members).map Labelled.chars) := rfl
      have hrest := ih (List.cons_ne_nil next members) fun m hm => h m (List.mem_cons_of_mem _ hm)
      rw [hsplit] at hfuel ⊢
      generalize joined [','] ((next :: members).map Labelled.chars) = others at *
      rw [List.length_append, List.length_cons] at hfuel
      obtain ⟨fuel, rfl⟩ : ∃ f, fuel = f + 1 := ⟨fuel - 1, by omega⟩
      have hval := hreads (fuel + 1) depth (member.item.after ++ ',' :: (others ++ '\x7d' :: rest))
        (follows_gap_cons member.item.after.property (.inl rfl) _) (by omega)
      rw [List.append_assoc, List.cons_append, dropSpaces_labelled, List.map_cons, hentry]
      cases hb : readBack depth member.item.value with
      | error fault =>
        rw [hb] at hval
        rw [readMembers_fault hspells hval, readBackMembers_of_error hb]
        rfl
      | ok value =>
        rw [hb] at hval
        rw [readMembers_comma hspells hval
            (dropSpaces_gap_cons member.item.after.property (.inl rfl) _),
          hrest fuel (by omega), readBackMembers_of_ok hb]
        cases readBackMembers depth ((next :: members).map Labelled.entry) <;> simp [Except.map]

/-! ## Reading whole values -/

theorem readValue_open_list (fuel : Nat) {depth : Nat} {c : Char} {cs tail : List Char}
    (h : dropSpaces tail = c :: cs) (hc : c ≠ ']') :
    readValue (fuel + 1) (depth + 1) ('[' :: tail) =
      readItems fuel depth [] (dropSpaces tail) := by
  unfold readValue
  simp only [h]
  split
  · rename_i hclose
    exact absurd (List.cons.inj hclose).1 hc
  · rfl

theorem readValue_open_object (fuel : Nat) {depth : Nat} {c : Char} {cs tail : List Char}
    (h : dropSpaces tail = c :: cs) (hc : c ≠ '\x7d') :
    readValue (fuel + 1) (depth + 1) ('\x7b' :: tail) =
      readMembers fuel depth [] (dropSpaces tail) := by
  unfold readValue
  simp only [h]
  split
  · rename_i hclose
    exact absurd (List.cons.inj hclose).1 hc
  · rfl

theorem reads_emptyList (gap : Blanks) : Reads ('[' :: (gap ++ [']'])) (list []) := by
  intro fuel depth rest _ _
  have hclose := dropSpaces_gap_cons gap.property (.inr (.inl rfl) : Ends ']') rest
  rw [List.cons_append, List.append_assoc, List.singleton_append]
  cases depth with
  | zero => rfl
  | succ depth =>
    simp only [readValue, hclose, readBack]
    rfl

theorem reads_emptyObject (gap : Blanks) : Reads ('\x7b' :: (gap ++ ['\x7d'])) (object []) := by
  intro fuel depth rest _ _
  have hclose := dropSpaces_gap_cons gap.property (.inr (.inr rfl) : Ends '\x7d') rest
  rw [List.cons_append, List.append_assoc, List.singleton_append]
  cases depth with
  | zero => rfl
  | succ depth =>
    simp only [readValue, hclose, readBack]
    rfl

/-- A list is read back if its items are. -/
theorem reads_list {items : List Padded} (hne : items ≠ [])
    (h : ∀ item ∈ items, Spells item.inner item.value ∧ Reads item.inner item.value) :
    Reads ('[' :: (joined [','] (items.map Padded.chars) ++ [']']))
      (list (items.map Padded.value)) := by
  intro fuel depth rest _ hfuel
  rw [List.length_cons, List.length_append, List.length_singleton] at hfuel
  rw [List.cons_append, List.append_assoc, List.singleton_append]
  cases depth with
  | zero => rfl
  | succ depth =>
    -- the brackets pay for the step into the list and for the step into its first item
    obtain ⟨fuel, rfl⟩ : ∃ f, fuel = f + 2 := ⟨fuel - 2, by omega⟩
    have hread := readItems_joined depth rest hne h fuel (by omega) []
    obtain ⟨first, items, rfl⟩ := List.exists_cons_of_ne_nil hne
    obtain ⟨c, more, hc, hstarts⟩ := (h first List.mem_cons_self).1.starts
    have hopen : ∃ cs, dropSpaces (joined [','] ((first :: items).map Padded.chars) ++
        ']' :: rest) = c :: cs := by
      rw [List.map_cons, joined_eq, List.append_assoc,
        dropSpaces_padded (h first List.mem_cons_self).1, hc]
      exact ⟨_, rfl⟩
    obtain ⟨cs, hopen⟩ := hopen
    rw [readValue_open_list _ hopen hstarts.2.1, hread, readBack]
    cases readBackItems depth ((first :: items).map Padded.value) <;> rfl

/-- An object is read back if the values of its members are. -/
theorem reads_object {members : List Labelled} (hne : members ≠ [])
    (h : ∀ member ∈ members, Spells member.item.inner member.item.value ∧
      Reads member.item.inner member.item.value) :
    Reads ('\x7b' :: (joined [','] (members.map Labelled.chars) ++ ['\x7d']))
      (object (members.map Labelled.entry)) := by
  intro fuel depth rest _ hfuel
  rw [List.length_cons, List.length_append, List.length_singleton] at hfuel
  rw [List.cons_append, List.append_assoc, List.singleton_append]
  cases depth with
  | zero => rfl
  | succ depth =>
    obtain ⟨fuel, rfl⟩ : ∃ f, fuel = f + 2 := ⟨fuel - 2, by omega⟩
    have hread := readMembers_joined depth rest hne h fuel (by omega) []
    obtain ⟨first, members, rfl⟩ := List.exists_cons_of_ne_nil hne
    have hopen : ∃ cs, dropSpaces (joined [','] ((first :: members).map Labelled.chars) ++
        '\x7d' :: rest) = '\x22' :: cs := by
      rw [List.map_cons, joined_eq, List.append_assoc, dropSpaces_labelled]
      exact ⟨_, rfl⟩
    obtain ⟨cs, hopen⟩ := hopen
    rw [readValue_open_object _ hopen (by decide), hread, readBack]
    cases readBackMembers depth ((first :: members).map Labelled.entry) <;> rfl

/-- **A text of the grammar is read back**, wherever it stands. -/
theorem Spells.reads {cs : List Char} {j : Json} (h : Spells cs j) : Reads cs j := by
  induction h with
  | word hword => exact reads_word hword
  | number n => exact reads_number n
  | text hcs => exact reads_text hcs
  | emptyList gap => exact reads_emptyList gap
  | list hne hitems ih => exact reads_list hne fun item hi => ⟨hitems item hi, ih item hi⟩
  | emptyObject gap => exact reads_emptyObject gap
  | object hne hmembers ih =>
    exact reads_object hne fun member hm => ⟨hmembers member hm, ih member hm⟩

omit [Platform] in
theorem follows_gap {gap : List Char} (h : Gap gap) : Follows gap :=
  fun c hc => .inr (.inr (.inr (h c (List.mem_of_mem_head? hc))))

/-- **What the reader makes of a whole text** that holds one value, with blanks behind it. -/
theorem read_of_spells {cs : List Char} {j : Json} (h : Spells cs j) {gap : List Char}
    (hgap : Gap gap) :
    read (String.ofList (cs ++ gap)) =
      (readBack Platform.levels j).mapError (Fault.toFailure (cs ++ gap)) := by
  have hread := h.reads (cs ++ gap).length Platform.levels gap (follows_gap hgap)
    (by rw [List.length_append]; omega)
  have hend : dropSpaces gap = [] := by
    have hdrop := dropSpaces_gap hgap []
    rwa [List.append_nil] at hdrop
  -- no value starts with a byte order mark, so none is passed over
  have hhead : ((cs ++ gap).head? == some (Char.ofNat 0xFEFF)) = false := by
    obtain ⟨c, more, rfl, -, -, -, hmark⟩ := h.starts
    simpa using hmark
  rw [read, String.toList_ofList]
  simp only [hhead, Bool.false_eq_true, if_false, readWithin, h.dropSpaces_append, hread]
  cases readBack Platform.levels j with
  | error fault => rfl
  | ok value =>
    simp only [Except.map, hend]
    rfl

/-! ## Written values -/

variable {layout : Layout}

/-- What the reader makes of a whole text that one value was written to, with blanks behind it. -/
theorem read_write_gap (hl : layout.Gapped) {j : Json} (h : Exact j) {gap : List Char}
    (hgap : Gap gap) :
    read (String.ofList (writeAt layout 0 j ++ gap)) =
      (readBack Platform.levels j).mapError (Fault.toFailure (writeAt layout 0 j ++ gap)) :=
  read_of_spells (spells_writeAt 0 hl h) hgap

theorem read_write (hl : layout.Gapped) {j : Json} (h : Exact j) :
    read (write layout j) =
      (readBack Platform.levels j).mapError (Fault.toFailure (writeAt layout 0 j)) := by
  have hread := read_write_gap hl h gap_nil
  rwa [List.append_nil] at hread

theorem read_write_eq_ok_iff (hl : layout.Gapped) {j found : Json} (h : Exact j) :
    read (write layout j) = .ok found ↔ readBack Platform.levels j = .ok found := by
  rw [read_write hl h]
  cases readBack Platform.levels j <;> simp [Except.mapError]

end ContractLens.Json
