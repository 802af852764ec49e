import ContractLens.Proofs.Source.Body
import ContractLens.Proofs.Text.Lines
import Mathlib.Algebra.Ring.Int.Defs
/-!
# Segments of a file

A file falls into segments: each starts on a line with a declaration and goes on until its braces
are closed, the next declaration comes, or the file ends. `Segmented` says this of line numbers,
without going through the lines, and says what the contract of each segment is made of;
`exists_segmented` finds such segments for any lines. What one extent does is settled once, in
`extent_stops`; the rest is that numbers move up by one when a line is put in front.
-/

namespace ContractLens.Source

open Text

/-! ## Declarations by line number -/

/-- The first declaration of the line with a number. -/
def headAt? (lines : List (List Char)) (number : Nat) : Option (Found Declaration.Head) :=
  lines[number]?.bind headOf?

/-- The numbers of the lines on which a declaration is found, in ascending order. -/
def declaredAt (lines : List (List Char)) : List Nat :=
  (List.range lines.length).filter fun number => (headAt? lines number).isSome

/-- The number of the line with a declaration that comes at a place among them, or the count of
lines if there are not so many. -/
def declaredOrEnd (lines : List (List Char)) (place : Nat) : Nat :=
  (declaredAt lines)[place]?.getD lines.length

theorem headAt?_succ (line : List Char) (lines : List (List Char)) (number : Nat) :
    headAt? (line :: lines) (number + 1) = headAt? lines number := by
  rw [headAt?, headAt?, List.getElem?_cons_succ]

theorem declaredAt_cons (line : List Char) (lines : List (List Char)) :
    declaredAt (line :: lines) =
      (if (headOf? line).isSome then [0] else []) ++ (declaredAt lines).map (· + 1) := by
  have hrest : (fun number => (headAt? (line :: lines) number).isSome) ∘ Nat.succ =
      fun number => (headAt? lines number).isSome :=
    funext fun number => congrArg Option.isSome (headAt?_succ line lines number)
  have hfirst : headAt? (line :: lines) 0 = headOf? line := rfl
  rw [declaredAt, List.length_cons, List.range_succ_eq_map, List.filter_cons, List.filter_map,
    hrest, hfirst, ← declaredAt]
  split
  · rfl
  · rfl

theorem declaredAt_cons_of_some {line : List Char} {found : Found Declaration.Head}
    (h : headOf? line = some found) (lines : List (List Char)) :
    declaredAt (line :: lines) = 0 :: (declaredAt lines).map (· + 1) := by
  rw [declaredAt_cons, h]
  rfl

theorem declaredAt_cons_of_none {line : List Char} (h : headOf? line = none)
    (lines : List (List Char)) : declaredAt (line :: lines) = (declaredAt lines).map (· + 1) := by
  rw [declaredAt_cons, h]
  rfl

theorem declaredOrEnd_cons_of_some {line : List Char} {found : Found Declaration.Head}
    (h : headOf? line = some found) (lines : List (List Char)) (place : Nat) :
    declaredOrEnd (line :: lines) (place + 1) = declaredOrEnd lines place + 1 := by
  rw [declaredOrEnd, declaredAt_cons_of_some h, List.getElem?_cons_succ, List.getElem?_map,
    List.length_cons, declaredOrEnd]
  cases (declaredAt lines)[place]? with
  | none => rfl
  | some number => rfl

theorem declaredOrEnd_cons_of_none {line : List Char} (h : headOf? line = none)
    (lines : List (List Char)) (place : Nat) :
    declaredOrEnd (line :: lines) place = declaredOrEnd lines place + 1 := by
  rw [declaredOrEnd, declaredAt_cons_of_none h, List.getElem?_map, List.length_cons, declaredOrEnd]
  cases (declaredAt lines)[place]? with
  | none => rfl
  | some number => rfl

theorem declaredOrEnd_zero_of_some {line : List Char} {found : Found Declaration.Head}
    (h : headOf? line = some found) (lines : List (List Char)) :
    declaredOrEnd (line :: lines) 0 = 0 := by
  rw [declaredOrEnd, declaredAt_cons_of_some h]
  rfl

/-- No declaration comes before the first one. -/
theorem declaredOrEnd_zero_le {lines : List (List Char)} {number : Nat}
    (h : number ∈ declaredAt lines) : declaredOrEnd lines 0 ≤ number := by
  have hsorted : (declaredAt lines).Pairwise (· < ·) :=
    List.pairwise_lt_range.sublist List.filter_sublist
  rw [declaredOrEnd]
  cases hdeclared : declaredAt lines with
  | nil =>
    rw [hdeclared] at h
    cases h
  | cons first rest =>
    rw [hdeclared] at h hsorted
    rcases List.mem_cons.mp h with rfl | h
    · exact Nat.le_refl _
    · exact Nat.le_of_lt (List.rel_of_pairwise_cons hsorted h)

/-! ## Where an extent stops -/

/-- The braces open after some lines, with those open before them. -/
def openBraces (depth : Int) (lines : List (List Char)) : Int :=
  depth + (lines.map braceBalance).sum

/-- An extent stops where the braces are closed or a declaration or the end comes, and no sooner. -/
structure Stops (depth : Int) (lines : List (List Char)) (count : Nat) : Prop where
  /-- Braces are open before each of its lines. -/
  goes_on : ∀ before, before < count → 0 < openBraces depth (lines.take before)
  /-- It has no line from the first declaration on. -/
  le_declared : count ≤ declaredOrEnd lines 0
  /-- It stops for a reason. -/
  stops : openBraces depth (lines.take count) ≤ 0 ∨ count = declaredOrEnd lines 0

/-- **Where an extent stops.** -/
theorem extent_stops (depth : Int) (lines : List (List Char)) :
    Stops depth lines (extent depth lines).length := by
  induction lines generalizing depth with
  | nil =>
    exact ⟨fun before hbefore => absurd hbefore (Nat.not_lt_zero _), Nat.le_refl _, .inr rfl⟩
  | cons line lines ih =>
    rw [extent]
    split
    · rename_i hclosed
      refine ⟨fun before hbefore => absurd hbefore (Nat.not_lt_zero _), Nat.zero_le _, .inl ?_⟩
      rw [List.length_nil, List.take_zero, openBraces, List.map_nil, List.sum_nil]
      omega
    split
    · rename_i hopen hhead
      obtain ⟨found, hfound⟩ := Option.isSome_iff_exists.mp hhead
      exact ⟨fun before hbefore => absurd hbefore (Nat.not_lt_zero _), Nat.zero_le _,
        .inr (declaredOrEnd_zero_of_some hfound lines).symm⟩
    · rename_i hopen hhead
      have hnone : headOf? line = none := by simpa using hhead
      have hstep : ∀ before, openBraces depth ((line :: lines).take (before + 1)) =
          openBraces (depth + braceBalance line) (lines.take before) := by
        intro before
        rw [List.take_succ_cons, openBraces, List.map_cons, List.sum_cons, openBraces,
          Int.add_assoc]
      obtain ⟨hgoes, hdeclared, hstops⟩ := ih (depth + braceBalance line)
      refine ⟨fun before hbefore => ?_, ?_, ?_⟩
      · cases before with
        | zero =>
          rw [List.take_zero, openBraces, List.map_nil, List.sum_nil]
          omega
        | succ before =>
          rw [hstep]
          exact hgoes before (Nat.lt_of_succ_lt_succ hbefore)
      · rw [declaredOrEnd_cons_of_none hnone]
        exact Nat.succ_le_succ hdeclared
      · rw [List.length_cons, hstep, declaredOrEnd_cons_of_none hnone]
        exact hstops.imp_right (congrArg (· + 1))

/-- An extent is so many lines as it has, from the start. -/
theorem extent_eq_take (depth : Int) (lines : List (List Char)) :
    extent depth lines = lines.take (extent depth lines).length :=
  List.prefix_iff_eq_take.mp extent_prefix

/-! ## Segments -/

/-- A part of a file that a contract takes up: the number of its first line, the declaration on it,
and the number of its last line. -/
structure Segment where
  /-- The number of the line with the declaration. -/
  first : Nat
  /-- The declaration. -/
  found : Found Declaration.Head
  /-- The number of the last line. -/
  last : Nat

namespace Segment

/-- The lines that a segment has after its first one, up to a line. -/
def linesUpTo (segment : Segment) (lines : List (List Char)) (stop : Nat) : List (List Char) :=
  (lines.drop (segment.first + 1)).take (stop - segment.first)

/-- The lines of a segment, the first one taken after its opening brace. -/
def body (segment : Segment) (lines : List (List Char)) : List (List Char) :=
  segment.found.after.drop 1 :: segment.linesUpTo lines segment.last

/-- How many lines a segment has. -/
def size (segment : Segment) : Nat := segment.last + 1 - segment.first

/-- The braces open after a line of a segment, counted from its own opening brace on. -/
def openAfter (segment : Segment) (lines : List (List Char)) (stop : Nat) : Int :=
  openBraces (braceBalance segment.found.after) (segment.linesUpTo lines stop)

/-- A segment ends on the first line after which none of its braces is open, or on the last line
before a bound, whichever comes first. -/
structure EndsBefore (segment : Segment) (lines : List (List Char)) (bound : Nat) : Prop where
  /-- It has at least the line with the declaration. -/
  first_le : segment.first ≤ segment.last
  /-- It ends before the bound. -/
  last_lt : segment.last < bound
  /-- Braces are open after each line but the last. -/
  goes_on : ∀ stop, segment.first ≤ stop → stop < segment.last → 0 < segment.openAfter lines stop
  /-- After the last line none is open, or the bound comes. -/
  stops : segment.openAfter lines segment.last ≤ 0 ∨ segment.last + 1 = bound

/-- What the contract of a segment is made of. -/
structure Describes (segment : Segment) (path : String) (lines : List (List Char))
    (entry : ScannedContract) : Prop where
  /-- The declaration is the first one on its line. -/
  declared : headAt? lines segment.first = some segment.found
  /-- What follows the declaration starts with its opening brace. -/
  brace : segment.found.after.head? = some '\x7b'
  /-- The contract is named by the declaration. -/
  name : entry.contract.name = String.ofList segment.found.value.name
  /-- It is in the file. -/
  path : entry.contract.path = path
  /-- Its body is made of the lines of the segment. -/
  body : entry.body = segment.body lines
  /-- Its count of lines is that of the segment. -/
  lineCount : entry.contract.lineCount = segment.size
  /-- The text of its body has as many lines. -/
  bodyLines : (splitLines entry.bodyText).length = segment.size
  /-- Its functions are those of the lines in turn. -/
  functions : entry.contract.functions =
    (segment.body lines).flatMap (findAll Declaration.functionName)
  /-- Its events are those of the lines in turn. -/
  events : entry.contract.events = (segment.body lines).flatMap (findAll Declaration.eventName)
  /-- Its modifiers are those of the lines in turn. -/
  modifiers : entry.contract.modifiers =
    (segment.body lines).flatMap (findAll Declaration.modifierName)

/-- A segment with a line put in front of the file. -/
def shift (segment : Segment) : Segment :=
  { segment with first := segment.first + 1, last := segment.last + 1 }

variable {segment : Segment} {line : List Char} {lines : List (List Char)}

theorem linesUpTo_shift (segment : Segment) (line : List Char) (lines : List (List Char))
    (stop : Nat) :
    segment.shift.linesUpTo (line :: lines) (stop + 1) = segment.linesUpTo lines stop := by
  rw [linesUpTo, linesUpTo, shift, List.drop_succ_cons, Nat.add_sub_add_right]

theorem body_shift (segment : Segment) (line : List Char) (lines : List (List Char)) :
    segment.shift.body (line :: lines) = segment.body lines :=
  congrArg (segment.found.after.drop 1 :: ·) (linesUpTo_shift segment line lines segment.last)

theorem openAfter_shift (segment : Segment) (line : List Char) (lines : List (List Char))
    (stop : Nat) :
    segment.shift.openAfter (line :: lines) (stop + 1) = segment.openAfter lines stop :=
  congrArg (openBraces (braceBalance segment.found.after))
    (linesUpTo_shift segment line lines stop)

theorem size_shift (segment : Segment) : segment.shift.size = segment.size :=
  Nat.add_sub_add_right _ _ _

theorem EndsBefore.shift {bound : Nat} (h : segment.EndsBefore lines bound)
    (line : List Char) : segment.shift.EndsBefore (line :: lines) (bound + 1) where
  first_le := Nat.succ_le_succ h.first_le
  last_lt := Nat.succ_lt_succ h.last_lt
  goes_on := by
    intro stop hfirst hlast
    cases stop with
    | zero => exact absurd hfirst (Nat.not_succ_le_zero _)
    | succ stop =>
      rw [openAfter_shift]
      exact h.goes_on stop (Nat.le_of_succ_le_succ hfirst) (Nat.lt_of_succ_lt_succ hlast)
  stops := by
    refine h.stops.imp (fun hclosed => ?_) (congrArg (· + 1))
    exact (openAfter_shift segment line lines segment.last).trans_le hclosed

theorem Describes.shift {path : String} {entry : ScannedContract}
    (h : segment.Describes path lines entry) (line : List Char) :
    segment.shift.Describes path (line :: lines) entry where
  declared := (headAt?_succ line lines segment.first).trans h.declared
  brace := h.brace
  name := h.name
  path := h.path
  body := h.body.trans (body_shift segment line lines).symm
  lineCount := h.lineCount.trans (congrArg Int.ofNat (size_shift segment).symm)
  bodyLines := h.bodyLines.trans (size_shift segment).symm
  functions := (body_shift segment line lines).symm ▸ h.functions
  events := (body_shift segment line lines).symm ▸ h.events
  modifiers := (body_shift segment line lines).symm ▸ h.modifiers

/-- The segment of a declaration on the first line. -/
def atStart (found : Found Declaration.Head) (lines : List (List Char)) : Segment :=
  ⟨0, found, (extent (braceBalance found.after) lines).length⟩

theorem endsBefore_atStart {found : Found Declaration.Head} (h : headOf? line = some found)
    (lines : List (List Char)) :
    (atStart found lines).EndsBefore (line :: lines) (declaredOrEnd (line :: lines) 1) := by
  obtain ⟨hgoes, hdeclared, hstops⟩ := extent_stops (braceBalance found.after) lines
  rw [declaredOrEnd_cons_of_some h]
  exact ⟨Nat.zero_le _, Nat.lt_succ_of_le hdeclared, fun stop _ hstop => hgoes stop hstop,
    hstops.imp_right (congrArg (· + 1))⟩

theorem body_atStart (found : Found Declaration.Head) (line : List Char)
    (lines : List (List Char)) (path : String) (start : Nat) :
    (contractOf path start found lines).body = (atStart found lines).body (line :: lines) :=
  congrArg (found.after.drop 1 :: ·) (extent_eq_take _ lines)

/-- No line of a body holds a line's end, if no line does. -/
theorem not_mem_body {found : Found Declaration.Head} (h : headOf? line = some found)
    (hlines : ∀ other ∈ line :: lines, '\n' ∉ other) (path : String) (start : Nat) :
    ∀ other ∈ (contractOf path start found lines).body, '\n' ∉ other := by
  intro other hother
  rcases List.mem_cons.mp hother with rfl | hother
  · obtain ⟨before, body, hline, hafter⟩ := opened_headOf? h
    rw [hafter, List.drop_succ_cons, List.drop_zero]
    intro hmem
    refine hlines line List.mem_cons_self ?_
    rw [hline]
    exact List.mem_append_right _ (List.mem_cons_of_mem _ hmem)
  · exact hlines other (List.mem_cons_of_mem _ (List.IsPrefix.subset extent_prefix hother))

theorem describes_atStart {found : Found Declaration.Head} (h : headOf? line = some found)
    (hlines : ∀ other ∈ line :: lines, '\n' ∉ other) (path : String) (start : Nat) :
    (atStart found lines).Describes path (line :: lines) (contractOf path start found lines) := by
  obtain ⟨before, body, -, hafter⟩ := opened_headOf? h
  have hbody := body_atStart found line lines path start
  have hne : (contractOf path start found lines).body ≠ [] := List.cons_ne_nil _ _
  refine ⟨h, congrArg List.head? hafter, rfl, rfl, hbody, lineCount_contractOf _ _ _ _, ?_, ?_, ?_,
    ?_⟩
  · rw [ScannedContract.bodyText, splitLines,
      splitAt_intercalate hne (not_mem_body h hlines path start)]
    rfl
  · exact congrArg (List.flatMap (findAll Declaration.functionName)) hbody
  · exact congrArg (List.flatMap (findAll Declaration.eventName)) hbody
  · exact congrArg (List.flatMap (findAll Declaration.modifierName)) hbody

end Segment

/-! ## The segments of a file -/

/-- The contracts of a file and the segments that they take up. -/
structure Segmented (path : String) (lines : List (List Char)) (segments : List Segment)
    (scanned : List ScannedContract) : Prop where
  /-- There is one segment for each line with a declaration, in order. -/
  declared : segments.map (·.first) = declaredAt lines
  /-- Each segment ends where its braces are closed, before the next segment, or with the file. -/
  ends : ∀ place (segment : Segment), segments[place]? = some segment →
    segment.EndsBefore lines (declaredOrEnd lines (place + 1))
  /-- There is one contract for each segment, in order. -/
  contracts : List.Forall₂ (fun segment entry => segment.Describes path lines entry) segments
    scanned
  /-- A segment ends before the later ones start. -/
  disjoint : segments.Pairwise fun segment later => segment.last < later.first
  /-- The contracts have together no more lines than the file. -/
  total : (scanned.map (·.contract.lineCount)).sum ≤ lines.length

theorem sum_map_one (lines : List (List Char)) : (lines.map fun _ => 1).sum = lines.length := by
  rw [List.map_const', List.sum_replicate_nat, Nat.mul_one]

theorem sum_lineCount (path : String) (start : Nat) (lines : List (List Char)) :
    ((scanLines path start lines).map (·.contract.lineCount)).sum =
      bodyWeight (fun _ => 1) (scanLines path start lines) := by
  induction lines generalizing start with
  | nil => rfl
  | cons line lines ih =>
    rw [scanLines]
    split
    · rename_i found hfound
      rw [List.map_cons, List.sum_cons, ih, bodyWeight_cons, sum_map_one, Int.natCast_add,
        lineCount_contractOf]
    · exact ih (start + 1)

theorem total_scanLines (path : String) (start : Nat) (lines : List (List Char)) :
    ((scanLines path start lines).map (·.contract.lineCount)).sum ≤ lines.length := by
  have hweight :
      bodyWeight (fun _ => 1) (scanLines path start lines) ≤ (lines.map fun _ => 1).sum :=
    bodyWeight_scanLines_le (fun _ _ _ => Nat.le_refl _) path start lines
  rw [sum_map_one] at hweight
  rw [sum_lineCount]
  exact Int.ofNat_le.mpr hweight

namespace Segmented

variable {path : String} {line : List Char} {lines : List (List Char)} {segments : List Segment}
  {scanned : List ScannedContract}

theorem firsts_shift (h : Segmented path lines segments scanned) :
    (segments.map Segment.shift).map (·.first) = (declaredAt lines).map (· + 1) := by
  rw [← h.declared, List.map_map, List.map_map]
  rfl

theorem ends_shift (h : Segmented path lines segments scanned) (line : List Char) (place : Nat)
    (segment : Segment) (hplace : (segments.map Segment.shift)[place]? = some segment) :
    segment.EndsBefore (line :: lines) (declaredOrEnd lines (place + 1) + 1) := by
  rw [List.getElem?_map] at hplace
  obtain ⟨inner, hinner, rfl⟩ := Option.map_eq_some_iff.mp hplace
  exact (h.ends place inner hinner).shift line

theorem contracts_shift (h : Segmented path lines segments scanned) (line : List Char) :
    List.Forall₂ (fun segment entry => segment.Describes path (line :: lines) entry)
      (segments.map Segment.shift) scanned :=
  List.forall₂_map_left_iff.mpr (h.contracts.imp fun _ _ hdescribes => hdescribes.shift line)

theorem disjoint_shift (h : Segmented path lines segments scanned) :
    (segments.map Segment.shift).Pairwise fun segment later => segment.last < later.first :=
  List.pairwise_map.mpr (h.disjoint.imp Nat.succ_lt_succ)

/-- A line without a declaration in front moves the segments and does no more. -/
theorem cons_of_none (h : Segmented path lines segments scanned) (hnone : headOf? line = none) :
    Segmented path (line :: lines) (segments.map Segment.shift) scanned where
  declared := h.firsts_shift.trans (declaredAt_cons_of_none hnone lines).symm
  ends place segment hplace := by
    rw [declaredOrEnd_cons_of_none hnone]
    exact h.ends_shift line place segment hplace
  contracts := h.contracts_shift line
  disjoint := h.disjoint_shift
  total := Int.le_trans h.total (Int.ofNat_le.mpr (Nat.le_succ _))

/-- A line with a declaration in front starts a segment. -/
theorem cons_of_some {start : Nat}
    (h : Segmented path lines segments (scanLines path (start + 1) lines))
    {found : Found Declaration.Head} (hfound : headOf? line = some found)
    (hlines : ∀ other ∈ line :: lines, '\n' ∉ other) :
    Segmented path (line :: lines) (.atStart found lines :: segments.map Segment.shift)
      (contractOf path start found lines :: scanLines path (start + 1) lines) where
  declared := by
    rw [List.map_cons, h.firsts_shift, declaredAt_cons_of_some hfound]
    rfl
  ends := by
    intro place segment hplace
    cases place with
    | zero =>
      cases hplace
      exact Segment.endsBefore_atStart hfound lines
    | succ place =>
      rw [declaredOrEnd_cons_of_some hfound]
      exact h.ends_shift line place segment hplace
  contracts := .cons (Segment.describes_atStart hfound hlines path start) (h.contracts_shift line)
  disjoint := by
    refine List.pairwise_cons.mpr ⟨fun later hlater => ?_, h.disjoint_shift⟩
    -- the new segment ends before the first declaration of the lines that follow
    obtain ⟨inner, hinner, rfl⟩ := List.mem_map.mp hlater
    have hmem : inner.first ∈ declaredAt lines := h.declared ▸ List.mem_map_of_mem hinner
    exact Nat.lt_succ_of_le (Nat.le_trans (extent_stops _ lines).le_declared
      (declaredOrEnd_zero_le hmem))
  total := by
    have htotal := total_scanLines path start (line :: lines)
    rwa [scanLines, hfound] at htotal

end Segmented

/-- **The lines of a file fall into segments.** -/
theorem exists_segmented (path : String) (start : Nat) {lines : List (List Char)}
    (hlines : ∀ line ∈ lines, '\n' ∉ line) :
    ∃ segments, Segmented path lines segments (scanLines path start lines) := by
  induction lines generalizing start with
  | nil => exact ⟨[], rfl, nofun, .nil, .nil, Int.le_refl _⟩
  | cons line lines ih =>
    obtain ⟨segments, h⟩ := ih (start + 1) fun other hother =>
      hlines other (List.mem_cons_of_mem _ hother)
    rw [scanLines]
    split
    · rename_i found hfound
      exact ⟨_, h.cons_of_some hfound hlines⟩
    · rename_i hnone
      exact ⟨_, h.cons_of_none hnone⟩

/-- The lines of a content, each trimmed. -/
def trimmedLines (content : String) : List (List Char) := (splitLines content.toList).map trim

/-- **A file falls into segments**, one for each line with a declaration, and its contracts are
those of the segments. -/
theorem segmented_scanFile (path content : String) :
    ∃ segments, Segmented path (trimmedLines content) segments (scanFile path content) := by
  refine exists_segmented path 0 fun line hline => ?_
  obtain ⟨raw, hraw, rfl⟩ := List.mem_map.mp hline
  exact fun hmem => not_mem_of_mem_splitAt hraw (mem_of_mem_trim hmem)

/-- A contract that is never closed ends before the next one. -/
example : (scanFile "V.sol" "contract A \x7b\n\ncontract B \x7b\x7d\n// end").map
    (fun entry => (entry.contract.name, entry.contract.lineCount)) = [("A", 2), ("B", 1)] := by
  decide +kernel

end ContractLens.Source
