import ContractLens.Import.Locate
import ContractLens.Import.Record
import ContractLens.Proofs.Text.Keyword
import ContractLens.Proofs.Text.Lines
import Mathlib.Data.List.Basic
/-!
# Where a relative import leads

A path leads from place to place: a name goes down, two dots go up where there is something above,
an empty component and a single dot stay. Going from the root of the importing file through its
directories and on along the import ends at the place that the import means, and the normal form of
the joined path is the text of that place (`target_eq`).
-/

namespace ContractLens.Import

open Text

/-- A component of a path that names something. -/
def IsName (part : List Char) : Prop := part ≠ [] ∧ part ≠ ['.'] ∧ part ≠ ['.', '.']

instance (part : List Char) : Decidable (IsName part) :=
  inferInstanceAs (Decidable (_ ∧ _))

/-- A place: a number of directories above the start, or above nothing below a root, and names down
from there. -/
structure Place where
  /-- The slashes of the root; none where the start is not a root. -/
  root : List Char
  /-- How far the place lies above the start. -/
  up : Nat
  /-- The names down from there. -/
  names : List (List Char)
  /-- There is nothing above a root. -/
  top : root ≠ [] → up = 0
  /-- Every name names something. -/
  proper : ∀ name ∈ names, IsName name

namespace Place

/-- The place where a path with the given root starts. -/
def start (root : List Char) : Place := ⟨root, 0, [], fun _ => rfl, nofun⟩

/-- The place above; above a root is the root. -/
def above (p : Place) : Place :=
  if p.names ≠ [] then
    { p with
      names := p.names.dropLast
      proper := fun name h => p.proper name (List.dropLast_subset _ h) }
  else if h : p.root = [] then
    { p with
      up := p.up + 1
      top := fun hroot => absurd h hroot }
  else p

/-- Where a component of a path leads from a place. -/
def enter (p : Place) (part : List Char) : Place :=
  if h : IsName part then
    { p with
      names := p.names ++ [part]
      proper := fun name hname => (List.mem_append.mp hname).elim (p.proper name) fun hlast =>
        List.mem_singleton.mp hlast ▸ h }
  else if part = ['.', '.'] then p.above
  else p

/-- Where the components of a path lead, one after the other. -/
def follow (p : Place) (parts : List (List Char)) : Place := parts.foldl enter p

/-- The components of the shortest path to a place. -/
def parts (p : Place) : List (List Char) := List.replicate p.up ['.', '.'] ++ p.names

/-- A place as a path; the start is a dot. -/
def text (p : Place) : List Char :=
  match p.root ++ List.intercalate ['/'] p.parts with
  | [] => ['.']
  | shown => shown

/-- The place that an import means: from the root of the importing file through its directories and
on along the import. -/
def meant (importer path : List Char) : Place :=
  (start (rootOf importer)).follow ((splitAt '/' importer).dropLast ++ splitAt '/' path)

end Place

/-! ## Taking components back -/

namespace Place

@[simp] theorem root_above (p : Place) : p.above.root = p.root := by
  unfold above
  split_ifs <;> rfl

@[simp] theorem root_enter (p : Place) (part : List Char) : (p.enter part).root = p.root := by
  unfold enter
  split_ifs
  · rfl
  · exact p.root_above
  · rfl

@[simp] theorem root_follow (p : Place) (parts : List (List Char)) :
    (p.follow parts).root = p.root := by
  induction parts generalizing p with
  | nil => rfl
  | cons part parts ih => exact (ih (p.enter part)).trans (p.root_enter part)

theorem follow_append (p : Place) (parts more : List (List Char)) :
    p.follow (parts ++ more) = (p.follow parts).follow more :=
  List.foldl_append

theorem parts_enter_of_isName {p : Place} {part : List Char} (h : IsName part) :
    (p.enter part).parts = p.parts ++ [part] := by
  rw [enter, dif_pos h]
  exact (List.append_assoc _ _ _).symm

/-- An empty component and a single dot lead nowhere else. -/
theorem enter_of_stays (p : Place) {part : List Char} (h : part = [] ∨ part = ['.']) :
    p.enter part = p := by
  have hname : ¬ IsName part := fun hname => h.elim hname.1 hname.2.1
  have hdots : part ≠ ['.', '.'] := by rcases h with rfl | rfl <;> decide
  rw [enter, dif_neg hname, if_neg hdots]

theorem enter_dots (p : Place) : p.enter ['.', '.'] = p.above := by
  rw [enter, dif_neg fun h => h.2.2 rfl, if_pos rfl]

/-- Going up takes the last component back, or adds one that goes up where there is none to take
back. -/
theorem parts_above (p : Place) : p.above.parts =
    match p.parts.getLast? with
    | none => if !p.root.isEmpty then p.parts else p.parts ++ [['.', '.']]
    | some last => if last == ['.', '.'] then p.parts ++ [['.', '.']] else p.parts.dropLast := by
  obtain ⟨root, up, names, htop, hproper⟩ := p
  by_cases hnames : names = []
  · subst hnames
    rw [above, if_neg (fun h => h rfl)]
    by_cases hroot : root = []
    · subst hroot
      rw [dif_pos rfl]
      cases up with
      | zero => rfl
      | succ up =>
        simp only [parts, List.append_nil, List.getLast?_replicate]
        simp [List.replicate_succ']
    · rw [dif_neg hroot]
      obtain rfl := htop hroot
      simp [parts, hroot]
  · obtain ⟨init, last, rfl⟩ : ∃ init last, names = init ++ [last] :=
      ⟨_, _, (List.dropLast_append_getLast hnames).symm⟩
    have hlast : (last == ['.', '.']) = false := by
      simpa using (hproper last (List.mem_append_right _ List.mem_cons_self)).2.2
    rw [above, if_pos hnames]
    simp only [parts, ← List.append_assoc, List.getLast?_concat, List.dropLast_concat, hlast,
      Bool.false_eq_true, if_false]

/-- **The components left of a path are those of the place where it leads.** -/
theorem reduce_parts (p : Place) (rest : List (List Char)) :
    reduce (!p.root.isEmpty) p.parts rest = (p.follow rest).parts := by
  induction rest generalizing p with
  | nil => rfl
  | cons part rest ih =>
    have hnext : ∀ left, left = (p.enter part).parts →
        reduce (!p.root.isEmpty) left rest = (p.follow (part :: rest)).parts := by
      rintro _ rfl
      have hrest := ih (p.enter part)
      rwa [root_enter] at hrest
    rw [reduce]
    split
    · rename_i hstays
      have hstays : part = [] ∨ part = ['.'] := by simpa using hstays
      exact hnext _ (by rw [enter_of_stays p hstays])
    rename_i hstays
    have hstays : ¬ (part = [] ∨ part = ['.']) := by simpa using hstays
    rw [not_or] at hstays
    split
    · rename_i hdots
      have hdots : part ≠ ['.', '.'] := by simpa using hdots
      exact hnext _ (parts_enter_of_isName ⟨hstays.1, hstays.2, hdots⟩).symm
    · rename_i hdots
      have hdots : part = ['.', '.'] := by simpa using hdots
      subst hdots
      split
      · rename_i hlast
        exact hnext _ (by rw [enter_dots, parts_above, hlast])
      · rename_i last hlast
        exact hnext _ (by rw [enter_dots, parts_above, hlast])

/-- **The normal form of a path is the text of the place where it leads.** -/
theorem normalize_eq (path : List Char) :
    normalize path = ((start (rootOf path)).follow (splitAt '/' path)).text := by
  have hparts := reduce_parts (start (rootOf path)) (splitAt '/' path)
  rw [normalize, text, root_follow, ← hparts]
  rfl

end Place

/-! ## Directories -/

theorem splitAt_append_mark (mark : Char) (cs rest : List Char) :
    splitAt mark (cs ++ mark :: rest) = splitAt mark cs ++ splitAt mark rest := by
  induction cs with
  | nil => simp [splitAt]
  | cons c cs ih =>
    rw [List.cons_append, splitAt, splitAt, ih]
    split
    · rfl
    · cases hparts : splitAt mark cs with
      | nil => exact absurd hparts (splitAt_ne_nil mark cs)
      | cons part parts => rfl

/-- Slashes at the end of a path lead nowhere else. -/
theorem Place.follow_splitAt_append_slashes (p : Place) (path : List Char) {slashes : List Char}
    (h : ∀ c ∈ slashes, c = '/') :
    p.follow (splitAt '/' (path ++ slashes)) = p.follow (splitAt '/' path) := by
  induction slashes generalizing path with
  | nil => rw [List.append_nil]
  | cons c slashes ih =>
    have hrest : ∀ c ∈ slashes, c = '/' := fun c hc => h c (List.mem_cons_of_mem _ hc)
    have hpath : path ++ c :: slashes = (path ++ ['/']) ++ slashes := by
      rw [h c List.mem_cons_self, List.append_assoc]
      rfl
    rw [hpath, ih _ hrest, splitAt_append_mark, follow_append]
    exact enter_of_stays _ (.inl rfl)

/-- What stands before the last slash of a path with that slash, and after it. -/
theorem exists_last_slash {path : List Char} (h : '/' ∈ path) :
    ∃ above name, '/' ∉ name ∧ path = above ++ '/' :: name := by
  obtain ⟨name, above, hreverse, hname⟩ := List.eq_append_cons_of_mem (List.mem_reverse.mpr h)
  refine ⟨above.reverse, name.reverse, fun hmem => hname (List.mem_reverse.mp hmem), ?_⟩
  rw [← List.reverse_reverse path, hreverse]
  simp

theorem directory_append {above name : List Char} (hname : '/' ∉ name) :
    directory (above ++ '/' :: name) =
      if (above ++ ['/']).all (· == '/') then above ++ ['/']
      else (above.reverse.dropWhile (· == '/')).reverse := by
  have hhead : ((above ++ '/' :: name).reverse.dropWhile (· != '/')).reverse = above ++ ['/'] := by
    have hreverse : (above ++ '/' :: name).reverse = name.reverse ++ ('/' :: above.reverse) := by
      simp
    rw [hreverse, dropWhile_run]
    · simp
    · intro c hc
      exact bne_iff_ne.mpr fun h => hname (h ▸ List.mem_reverse.mp hc)
    · intro c hc
      cases hc
      rfl
  rw [directory, hhead, List.reverse_append]
  rfl

/-- The ways in which the directory of a path is there: a path without a slash has none, slashes
before a name are one, and else it ends before the slashes at its end. -/
theorem directory_cases (path : List Char) :
    ('/' ∉ path ∧ directory path = []) ∨
      (∃ above name, '/' ∉ name ∧ (∀ c ∈ above, c = '/') ∧ path = above ++ '/' :: name ∧
        directory path = above ++ ['/']) ∨
      ∃ slashes name last, '/' ∉ name ∧ (∀ c ∈ slashes, c = '/') ∧
        path = (directory path ++ slashes) ++ '/' :: name ∧
          (directory path).getLast? = some last ∧ last ≠ '/' := by
  by_cases hslash : '/' ∈ path
  · obtain ⟨above, name, hname, rfl⟩ := exists_last_slash hslash
    rw [directory_append hname]
    split
    · rename_i hall
      refine .inr (.inl ⟨above, name, hname, fun c hc => ?_, rfl, rfl⟩)
      exact beq_iff_eq.mp (List.all_eq_true.mp hall c (List.mem_append_left _ hc))
    · rename_i hall
      cases hrest : above.reverse.dropWhile (· == '/') with
      | nil =>
        refine absurd (List.all_eq_true.mpr fun c hc => ?_) hall
        rcases List.mem_append.mp hc with hc | hc
        · exact List.dropWhile_eq_nil_iff.mp hrest c (List.mem_reverse.mpr hc)
        · exact beq_iff_eq.mpr (List.mem_singleton.mp hc)
      | cons last rest =>
        have hlast : (last == '/') = false :=
          head?_dropWhile_eq_false (· == '/') above.reverse last (by rw [hrest]; rfl)
        have habove : above = (last :: rest).reverse ++
            (above.reverse.takeWhile (· == '/')).reverse := by
          rw [← hrest, ← List.reverse_append, List.takeWhile_append_dropWhile,
            List.reverse_reverse]
        refine .inr (.inr ⟨(above.reverse.takeWhile (· == '/')).reverse, name, last, hname,
          fun c hc => ?_, ?_, List.getLast?_reverse, ?_⟩)
        · have hslash := List.mem_takeWhile_imp (List.mem_reverse.mp hc)
          exact beq_iff_eq.mp hslash
        · rw [← habove]
        · exact beq_eq_false_iff_ne.mp hlast
  · refine .inl ⟨hslash, ?_⟩
    have hnone : path.reverse.dropWhile (· != '/') = [] :=
      List.dropWhile_eq_nil_iff.mpr fun c hc =>
        bne_iff_ne.mpr fun h => hslash (h ▸ List.mem_reverse.mp hc)
    rw [directory, hnone]
    rfl

/-! ## From an importing file -/

theorem rootOf_congr {path other : List Char}
    (h : path.takeWhile (· == '/') = other.takeWhile (· == '/')) : rootOf path = rootOf other := by
  rw [rootOf, rootOf, h]

/-- Slashes that no further one follows are all that a path starts with. -/
theorem takeWhile_slashes {slashes rest : List Char} (h : ∀ c ∈ slashes, c = '/')
    (hrest : ∀ c ∈ rest.head?, c ≠ '/') : (slashes ++ rest).takeWhile (· == '/') = slashes :=
  takeWhile_run (fun c hc => beq_iff_eq.mpr (h c hc))
    fun c hc => beq_eq_false_iff_ne.mpr (hrest c hc)

/-- Behind another character it does not matter what follows. -/
theorem takeWhile_append_of_getLast? {cs : List Char} {last : Char}
    (h : cs.getLast? = some last) (hlast : last ≠ '/') (rest : List Char) :
    (cs ++ rest).takeWhile (· == '/') = cs.takeWhile (· == '/') := by
  rw [List.takeWhile_append, if_neg]
  intro hlength
  have hall : cs.takeWhile (· == '/') = cs := (List.takeWhile_prefix _).eq_of_length hlength
  have hslash := List.mem_takeWhile_imp (hall.symm ▸ List.mem_of_getLast? h)
  exact hlast (beq_iff_eq.mp hslash)

theorem ne_slash_of_mem_head? {name : List Char} (h : '/' ∉ name) : ∀ c ∈ name.head?, c ≠ '/' :=
  fun _ hc he => h (he ▸ List.mem_of_mem_head? hc)

theorem splitAt_of_not_mem {name : List Char} (h : '/' ∉ name) : splitAt '/' name = [name] := by
  have hparts := splitAt_intercalate (List.cons_ne_nil name []) (by simpa using h)
  rwa [List.intercalate_singleton] at hparts

/-- **The normal form of the joined path is the text of the place that the import means.** -/
theorem normalize_join_directory {path : List Char} (h : path.head? = some '.')
    (importer : List Char) :
    normalize (join (directory importer) path) = (Place.meant importer path).text := by
  have hpath : ∀ c ∈ path.head?, c ≠ '/' := by
    rw [h]
    rintro c hc rfl
    cases hc
  have hhead : (path.head? == some '/') = false := by rw [h]; rfl
  rw [Place.normalize_eq, Place.meant, Place.follow_append]
  rcases directory_cases importer with ⟨hslash, hdir⟩ |
    ⟨above, name, hname, habove, rfl, hdir⟩ |
    ⟨slashes, name, last, hname, hslashes, himporter, hlast, hne⟩
  · -- a file without a directory: the path stands for itself
    have hnone : ∀ c ∈ ([] : List Char), c = '/' := nofun
    have hroot : rootOf path = rootOf importer := rootOf_congr <|
      (takeWhile_slashes hnone hpath).trans
        (takeWhile_slashes hnone (ne_slash_of_mem_head? hslash)).symm
    have hjoin : join (directory importer) path = path := by simp [join, hdir]
    rw [hjoin, hroot, splitAt_of_not_mem hslash]
    rfl
  · -- the directory is a root, which ends with a slash already
    have hall : ∀ c ∈ above ++ ['/'], c = '/' := fun c hc =>
      (List.mem_append.mp hc).elim (habove c) List.mem_singleton.mp
    have hroot : rootOf (above ++ '/' :: path) = rootOf (above ++ '/' :: name) := by
      have hboth := (takeWhile_slashes hall hpath).trans
        (takeWhile_slashes hall (ne_slash_of_mem_head? hname)).symm
      exact rootOf_congr (by simpa using hboth)
    have hjoin : join (directory (above ++ '/' :: name)) path = above ++ '/' :: path := by
      simp [join, hdir, hhead]
    rw [hjoin, hroot, splitAt_append_mark, splitAt_append_mark, splitAt_of_not_mem hname,
      List.dropLast_concat, Place.follow_append]
  · -- the directory stands before the last slashes
    have hdir : (directory importer).isEmpty = false := by
      cases hempty : directory importer with
      | nil => rw [hempty] at hlast; cases hlast
      | cons => rfl
    have hjoin : join (directory importer) path = directory importer ++ '/' :: path := by
      simp [join, hdir, hhead, hlast, hne]
    have hroot : rootOf (directory importer ++ '/' :: path) = rootOf importer := by
      refine rootOf_congr ?_
      rw [takeWhile_append_of_getLast? hlast hne]
      conv_rhs => rw [himporter, List.append_assoc, takeWhile_append_of_getLast? hlast hne]
    have hparts :
        (splitAt '/' importer).dropLast = splitAt '/' (directory importer ++ slashes) := by
      conv_lhs => rw [himporter, splitAt_append_mark, splitAt_of_not_mem hname,
        List.dropLast_concat]
    rw [hjoin, hroot, splitAt_append_mark, Place.follow_append, hparts,
      Place.follow_splitAt_append_slashes _ _ hslashes]

theorem head?_of_relative {path : String} (h : Provenance.ofPath path = .relative) :
    path.toList.head? = some '.' := by
  have hhead : ∀ part : String, part.toList.head? = some '.' →
      Provenance.startsWith part path.toList = true → path.toList.head? = some '.' := by
    intro part hpart hstarts
    obtain ⟨rest, hrest⟩ := isSome_dropStart?_iff.mp hstarts
    rw [← hrest, List.head?_append, hpart]
    rfl
  rw [Provenance.ofPath] at h
  split at h
  · rename_i hdots
    rcases Bool.or_eq_true_iff.mp hdots with hdots | hdots
    · exact hhead "./" (by decide) hdots
    · exact hhead "../" (by decide) hdots
  split at h
  · cases h
  split at h
  · cases h
  · cases h

/-- **A relative import means the place where its path leads from the importing file.** -/
theorem target_eq {path : String} (h : Provenance.ofPath path = .relative) (importer : String) :
    target importer path = String.ofList (Place.meant importer.toList path.toList).text := by
  rw [target, normalize_join_directory (head?_of_relative h)]

end ContractLens.Import
