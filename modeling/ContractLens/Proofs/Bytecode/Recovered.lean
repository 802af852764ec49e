import ContractLens.Bytecode.Selector
import ContractLens.Proofs.Table
import Mathlib.Algebra.Group.Nat.Even
/-!
# The functions found in code

Code is gone through byte by byte. After each byte the functions found are those whose selectors
stand at the bytes so far, each once and in the order of first places (`FoundAt.step`). So at the
end they are the known selectors that stand whole at some byte of the code, and no others
(`recovered_extract`): what stands across bytes, what is no digit, and what is cut off at the end of
the code is no selector. Each comes with the description that the table has for it.
-/

namespace ContractLens.Selector

variable {code : List Char} {found : List Selector} {bytes : Nat}

/-! ## Places -/

/-- A selector stands whole at a place between two bytes. -/
structure StandsAt (code : List Char) (selector : String) (place : Nat) : Prop where
  /-- The place is between two bytes. -/
  even : Even place
  /-- Eight characters follow it. -/
  whole : place + 8 ≤ code.length
  /-- They are those of the selector. -/
  chars : selector.toList = '0' :: 'x' :: (code.drop place).take 8

/-- A selector stands at a place, and at none before. -/
def FirstAt (code : List Char) (selector : String) (place : Nat) : Prop :=
  StandsAt code selector place ∧ ∀ earlier < place, ¬ StandsAt code selector earlier

/-- A text of eight characters is its own first eight. -/
theorem window?_eq_some_iff {selector : String} :
    window? code = some selector ↔
      8 ≤ code.length ∧ selector.toList = '0' :: 'x' :: code.take 8 := by
  have hlength : (code.take 8).length = min 8 code.length := List.length_take
  rw [window?]
  split
  · rename_i height
    rw [beq_iff_eq, hlength] at height
    rw [Option.some_inj, ← String.toList_inj, String.toList_ofList, eq_comm]
    exact ⟨fun h => ⟨by omega, h⟩, fun h => h.2⟩
  · rename_i hshort
    rw [beq_iff_eq, hlength] at hshort
    exact ⟨nofun, fun h => absurd h.1 (by omega)⟩

theorem standsAt_double_iff {selector : String} {byte : Nat} :
    StandsAt code selector (2 * byte) ↔ window? (code.drop (2 * byte)) = some selector := by
  rw [window?_eq_some_iff, List.length_drop]
  constructor
  · rintro ⟨-, hwhole, hchars⟩
    exact ⟨by omega, hchars⟩
  · rintro ⟨hlength, hchars⟩
    exact ⟨⟨byte, Nat.two_mul byte⟩, by omega, hchars⟩

/-- A place between two bytes is before the byte of some number. -/
theorem StandsAt.exists_byte {selector : String} {place : Nat} (h : StandsAt code selector place) :
    ∃ byte, place = 2 * byte ∧ byte < code.length / 2 := by
  obtain ⟨byte, hbyte⟩ := h.even
  have hwhole := h.whole
  exact ⟨byte, by omega, by omega⟩

/-! ## Descriptions -/

/-- A signature is written out: the name, and in brackets the types with commas between them. -/
structure Writes (signature name : String) (inputs : List String) : Prop where
  /-- The signature in its parts. -/
  parts : signature = name ++ "(" ++ String.intercalate "," inputs ++ ")"
  /-- The name ends where the brackets open. -/
  name : '(' ∉ name.toList
  /-- Each type is one, and is not empty. -/
  inputs : ∀ input ∈ inputs, input ≠ "" ∧ ',' ∉ input.toList

/-- The digits that selectors are written with. -/
def smallDigits : List Char := "0123456789abcdef".toList

/-- A signature split into its name and the parameters' types, in characters. -/
def splitChars (signature : List Char) : List Char × List (List Char) :=
  let name := signature.takeWhile (· != '(')
  let params := ((signature.drop (name.length + 1)).reverse.dropWhile (· == ')')).reverse
  (name, ((Text.splitAt ',' params).map Text.trim).filter fun part => !part.isEmpty)

/-- Whether a selector has digits alone after its mark, and its signature is written out. -/
def isNeat (selector signature : List Char) : Bool :=
  let (name, inputs) := splitChars signature
  (selector.drop 2).all smallDigits.contains &&
    signature == name ++ '(' :: [','].intercalate inputs ++ [')'] && !name.contains '(' &&
    inputs.all fun input => !input.isEmpty && !input.contains ','

/-- A check of texts is one of the characters that they are literally written with. -/
theorem isNeat_of_literals {entry : String × String} {selector signature : List Char}
    (hselector : entry.1 = String.ofList selector) (hsignature : entry.2 = String.ofList signature)
    (h : isNeat selector signature = true) :
    isNeat entry.1.toList entry.2.toList = true := by
  rw [hselector, hsignature, String.toList_ofList, String.toList_ofList]
  exact h

/-- Each known selector is neat, and so is its signature. -/
theorem isNeat_known : ∀ entry ∈ known, isNeat entry.1.toList entry.2.toList = true := by
  rw [known]
  -- one entry after the other: the whole table at once is too slow to take apart
  repeat refine List.forall_mem_cons.mpr ⟨isNeat_of_literals rfl rfl rfl, ?_⟩
  exact List.forall_mem_nil _

/-- What is neat is written out. -/
theorem writes_of_isNeat {selector signature : String}
    (h : isNeat selector.toList signature.toList = true) :
    (∀ c ∈ selector.toList.drop 2, c ∈ smallDigits) ∧
      Writes signature (splitSignature signature).1 (splitSignature signature).2 := by
  have hsplit : splitSignature signature = (String.ofList (splitChars signature.toList).1,
      (splitChars signature.toList).2.map String.ofList) := rfl
  rw [hsplit]
  simp only [isNeat, Bool.and_eq_true, List.all_eq_true, List.contains_iff_mem, beq_iff_eq,
    Bool.not_eq_true', ← Bool.not_eq_true] at h
  obtain ⟨⟨⟨hdigits, hparts⟩, hname⟩, hinputs⟩ := h
  refine ⟨hdigits, ?_, ?_, List.forall_mem_map.mpr fun input hinput => ?_⟩
  · have hmap : ((splitChars signature.toList).2.map String.ofList).map String.toList =
        (splitChars signature.toList).2 := by
      rw [List.map_map]
      exact List.map_id'' (fun _ => String.toList_ofList) _
    rw [← String.toList_inj, String.toList_append, String.toList_append, String.toList_append,
      String.toList_intercalate, hmap, String.toList_ofList]
    simpa using hparts
  · rw [String.toList_ofList]
    exact hname
  · obtain ⟨hsome, hcomma⟩ := hinputs input hinput
    rw [String.toList_ofList]
    refine ⟨fun hempty => hsome ?_, hcomma⟩
    rw [← String.toList_ofList (l := input), hempty]
    rfl

/-- A selector with the description that the table has for it. -/
structure Described (s : Selector) : Prop where
  /-- The signature is that of the table. -/
  signature : known.get? s.selector = some s.signature
  /-- The name and the types are those of the signature. -/
  written : Writes s.signature s.name s.inputs
  /-- The selector has digits alone after its mark. -/
  digits : ∀ c ∈ s.selector.toList.drop 2, c ∈ smallDigits

/-- A description is that of the selector it is asked for. -/
theorem described_of_describe? {selector : String} {s : Selector}
    (h : describe? selector = some s) : s.selector = selector ∧ s.Described := by
  obtain ⟨signature, hsignature, rfl⟩ := Option.map_eq_some_iff.mp h
  obtain ⟨hdigits, hwrites⟩ :=
    writes_of_isNeat (isNeat_known _ (Table.mem_of_get?_eq_some hsignature))
  exact ⟨rfl, hsignature, hwrites, hdigits⟩

theorem describe?_eq_none_iff {selector : String} :
    describe? selector = none ↔ selector ∉ Table.names known := by
  rw [describe?, Option.map_eq_none_iff, Table.get?_eq_none_iff]

/-! ## Byte by byte -/

/-- The known selector that stands at a byte. -/
def atByte? (code : List Char) (byte : Nat) : Option Selector :=
  (window? (code.drop (2 * byte))).bind describe?

/-- What stands at the bytes of code stands at the first one or at those behind it. -/
theorem filterMap_atByte? (high low : Char) (rest : List Char) :
    (List.range ((high :: low :: rest).length / 2)).filterMap (atByte? (high :: low :: rest)) =
      (atByte? (high :: low :: rest) 0).toList ++
        (List.range (rest.length / 2)).filterMap (atByte? rest) := by
  have hlength : (high :: low :: rest).length / 2 = rest.length / 2 + 1 := by
    rw [List.length_cons, List.length_cons]
    omega
  rw [hlength, List.range_succ_eq_map, List.filterMap_cons, List.filterMap_map]
  cases atByte? (high :: low :: rest) 0 <;> rfl

/-- What stands in code is what stands at each byte of it. -/
theorem occurrences_eq (code : List Char) :
    occurrences code = (List.range (code.length / 2)).filterMap (atByte? code) := by
  induction code using occurrences.induct with
  | case1 high low rest s hs ih =>
    have hfirst : atByte? (high :: low :: rest) 0 = some s := hs
    rw [occurrences, hs, ih, filterMap_atByte?, hfirst]
    rfl
  | case2 high low rest hnone ih =>
    have hfirst : atByte? (high :: low :: rest) 0 = none := hnone
    rw [occurrences, hnone, ih, filterMap_atByte?, hfirst]
    rfl
  | case3 code hshort =>
    match code with
    | [] => rfl
    | [_] => simp [occurrences]
    | high :: low :: rest => exact absurd rfl (hshort high low rest)

/-- A selector is added to those found unless it is there. -/
def add (found : List Selector) (s : Selector) : List Selector :=
  if found.any (·.selector == s.selector) then found else found ++ [s]

/-- What is found after one more byte. -/
def addAt (code : List Char) (found : List Selector) (byte : Nat) : List Selector :=
  (atByte? code byte).elim found (add found)

/-- The functions found in code are what is found byte by byte. -/
theorem extract_eq (code : List Char) :
    extract code = (List.range (code.length / 2)).foldl (addAt code) [] := by
  rw [extract, occurrences_eq, firsts, List.foldl_filterMap]
  congr 1
  funext found byte
  rw [addAt]
  cases atByte? code byte <;> rfl

theorem described_of_some {byte : Nat} {s : Selector} (h : atByte? code byte = some s) :
    s.Described := by
  obtain ⟨window, -, hdescribe⟩ := Option.bind_eq_some_iff.mp h
  exact (described_of_describe? hdescribe).2

/-- At a byte where a known selector stands, no other selector stands. -/
theorem standsAt_iff_of_some {byte : Nat} {s : Selector} (h : atByte? code byte = some s)
    (selector : String) : StandsAt code selector (2 * byte) ↔ selector = s.selector := by
  obtain ⟨window, hwindow, hdescribe⟩ := Option.bind_eq_some_iff.mp h
  rw [standsAt_double_iff, hwindow, Option.some_inj, (described_of_describe? hdescribe).1]
  exact eq_comm

theorem not_standsAt_of_none {selector : String} {byte : Nat} (h : atByte? code byte = none)
    (hknown : selector ∈ Table.names known) : ¬ StandsAt code selector (2 * byte) := by
  intro hstands
  have hdescribe := Option.bind_eq_none_iff.mp h selector (standsAt_double_iff.mp hstands)
  exact describe?_eq_none_iff.mp hdescribe hknown

/-- The functions found at the first bytes of code. -/
structure FoundAt (code : List Char) (bytes : Nat) (found : List Selector) : Prop where
  /-- They are the known selectors that stand there. -/
  mem_iff : ∀ selector, selector ∈ found.map (·.selector) ↔
    selector ∈ Table.names known ∧ ∃ byte < bytes, StandsAt code selector (2 * byte)
  /-- They are in the order of their first places. -/
  ordered : found.Pairwise fun s t => ∃ place later, place < later ∧
    FirstAt code s.selector place ∧ FirstAt code t.selector later
  /-- The first places are at those bytes. -/
  first : ∀ s ∈ found, ∃ byte < bytes, FirstAt code s.selector (2 * byte)
  /-- They have their descriptions. -/
  described : ∀ s ∈ found, s.Described

/-- A byte at which nothing new stands adds nothing. -/
theorem FoundAt.skip (h : FoundAt code bytes found)
    (hnothing : ∀ selector ∈ Table.names known, StandsAt code selector (2 * bytes) →
      selector ∈ found.map (·.selector)) :
    FoundAt code (bytes + 1) found := by
  refine ⟨fun selector => ?_, h.ordered, fun s hs => ?_, h.described⟩
  · rw [Nat.exists_lt_succ_right]
    constructor
    · intro hmem
      obtain ⟨hknown, hstands⟩ := (h.mem_iff selector).mp hmem
      exact ⟨hknown, .inl hstands⟩
    · rintro ⟨hknown, hstands | hstands⟩
      · exact (h.mem_iff selector).mpr ⟨hknown, hstands⟩
      · exact hnothing selector hknown hstands
  · obtain ⟨byte, hbyte, hfirst⟩ := h.first s hs
    exact ⟨byte, Nat.lt_succ_of_lt hbyte, hfirst⟩

/-- A selector that stands at a byte and is not among those found stands there first. -/
theorem FoundAt.firstAt {s : Selector} (h : FoundAt code bytes found)
    (hknown : s.selector ∈ Table.names known) (hnew : s.selector ∉ found.map (·.selector))
    (hstands : StandsAt code s.selector (2 * bytes)) : FirstAt code s.selector (2 * bytes) := by
  refine ⟨hstands, fun earlier hearlier hbefore => hnew ?_⟩
  obtain ⟨byte, rfl, -⟩ := hbefore.exists_byte
  exact (h.mem_iff s.selector).mpr ⟨hknown, byte, by omega, hbefore⟩

/-- A byte at which a known selector stands for the first time adds it at the end. -/
theorem FoundAt.push {s : Selector} (h : FoundAt code bytes found)
    (hs : atByte? code bytes = some s) (hnew : s.selector ∉ found.map (·.selector)) :
    FoundAt code (bytes + 1) (found ++ [s]) := by
  have hdescribed := described_of_some hs
  have hhere := standsAt_iff_of_some hs
  have hknown : s.selector ∈ Table.names known :=
    List.mem_map_of_mem (Table.mem_of_get?_eq_some hdescribed.signature)
  -- at an earlier byte it would have been found already
  have hfirst := h.firstAt hknown hnew ((hhere s.selector).mpr rfl)
  refine ⟨fun selector => ?_, List.pairwise_append.mpr ⟨h.ordered, List.pairwise_singleton _ _,
    fun t ht u hu => ?_⟩, fun t ht => ?_, fun t ht => ?_⟩
  · rw [List.map_append, List.mem_append, h.mem_iff, Nat.exists_lt_succ_right, hhere,
      List.map_singleton, List.mem_singleton]
    constructor
    · rintro (⟨hselector, hstands⟩ | rfl)
      · exact ⟨hselector, .inl hstands⟩
      · exact ⟨hknown, .inr rfl⟩
    · rintro ⟨hselector, hstands | hsame⟩
      · exact .inl ⟨hselector, hstands⟩
      · exact .inr hsame
  · obtain rfl := List.mem_singleton.mp hu
    obtain ⟨byte, hbyte, hplace⟩ := h.first t ht
    exact ⟨2 * byte, 2 * bytes, by omega, hplace, hfirst⟩
  · rcases List.mem_append.mp ht with hold | hlast
    · obtain ⟨byte, hbyte, hplace⟩ := h.first t hold
      exact ⟨byte, Nat.lt_succ_of_lt hbyte, hplace⟩
    · obtain rfl := List.mem_singleton.mp hlast
      exact ⟨bytes, Nat.lt_succ_self bytes, hfirst⟩
  · rcases List.mem_append.mp ht with hold | hlast
    · exact h.described t hold
    · obtain rfl := List.mem_singleton.mp hlast
      exact hdescribed

/-- **One more byte**: what was found stays right. -/
theorem FoundAt.step (h : FoundAt code bytes found) :
    FoundAt code (bytes + 1) (addAt code found bytes) := by
  rw [addAt]
  cases hs : atByte? code bytes with
  | none => exact h.skip fun selector hknown hstands =>
      absurd hstands (not_standsAt_of_none hs hknown)
  | some s =>
    have hany : found.any (·.selector == s.selector) = true ↔
        s.selector ∈ found.map (·.selector) := by
      simp only [List.any_eq_true, beq_iff_eq, List.mem_map]
    change FoundAt code (bytes + 1) (add found s)
    rw [add]
    split
    · rename_i hold
      refine h.skip fun selector _ hstands => ?_
      rw [(standsAt_iff_of_some hs selector).mp hstands]
      exact hany.mp hold
    · rename_i hnew
      exact h.push hs (mt hany.mpr hnew)

/-- After any number of bytes, what was found is right. -/
theorem foundAt_foldl (code : List Char) (bytes : Nat) :
    FoundAt code bytes ((List.range bytes).foldl (addAt code) []) := by
  induction bytes with
  | zero => exact ⟨fun selector => ⟨nofun, fun ⟨_, _, hlt, _⟩ => absurd hlt (Nat.not_lt_zero _)⟩,
      .nil, nofun, nofun⟩
  | succ bytes ih =>
    rw [List.range_succ, List.foldl_append]
    exact ih.step

/-! ## The whole code -/

/-- A selector has one first place. -/
theorem FirstAt.unique {selector : String} {place other : Nat} (h : FirstAt code selector place)
    (hother : FirstAt code selector other) : place = other := by
  rcases Nat.lt_trichotomy place other with hlt | heq | hlt
  · exact absurd h.1 (hother.2 place hlt)
  · exact heq
  · exact absurd hother.1 (h.2 other hlt)

/-- The functions of code. -/
structure Recovered (code : List Char) (found : List Selector) : Prop where
  /-- Each is there once. -/
  nodup : (found.map (·.selector)).Nodup
  /-- They are the known selectors that stand somewhere in the code. -/
  mem_iff : ∀ selector, selector ∈ found.map (·.selector) ↔
    selector ∈ Table.names known ∧ ∃ place, StandsAt code selector place
  /-- They are in the order of their first places. -/
  ordered : found.Pairwise fun s t => ∃ place later, place < later ∧
    FirstAt code s.selector place ∧ FirstAt code t.selector later
  /-- They have their descriptions. -/
  described : ∀ s ∈ found, s.Described

/-- **The functions found in code are the known ones that stand in it**, each once, in the order of
first places, with the descriptions of the table. -/
theorem recovered_extract (code : List Char) : Recovered code (extract code) := by
  rw [extract_eq]
  have h := foundAt_foldl code (code.length / 2)
  refine ⟨?_, fun selector => ?_, h.ordered, h.described⟩
  · refine List.pairwise_map.mpr (h.ordered.imp ?_)
    rintro s t ⟨place, later, hlt, hplace, hlater⟩ hsame
    rw [hsame] at hplace
    exact Nat.ne_of_lt hlt (hplace.unique hlater)
  · rw [h.mem_iff]
    refine and_congr_right fun _ => ⟨fun ⟨byte, _, hstands⟩ => ⟨2 * byte, hstands⟩, ?_⟩
    rintro ⟨place, hstands⟩
    obtain ⟨byte, rfl, hbyte⟩ := hstands.exists_byte
    exact ⟨byte, hbyte, hstands⟩

end ContractLens.Selector
