import ContractLens.Proofs.Upgradeable.Finished
/-!
# Verdicts and paths

The text of a set announces each file with its path, so a path can be a sign: one that holds
`delegatecall` raises the flag and the verdict. A path that shows nothing itself (`Quiet`) can
still be read into, when an import or a list of bases before it is left open; that does no harm if
the path holds nothing that matters there (`Plain`), and does not happen if the contents leave
nothing open (`Finished`). Sets of either kind are `Mute`. Mute sets with the same contents have the
same verdict, and sets with the same contents have the same flag, unless a path raises it
(`recordOf_of_contents`).
-/

namespace ContractLens

open Text

namespace Upgradeable

open SourceFile

/-! ## Mute sets -/

/-- Nothing on the part of a line on which a path stands ends or feeds what was left open. -/
structure Plain (label : List Char) : Prop where
  /-- There is no quotation mark and no semicolon, at which an import ends. -/
  clear : Clear label
  /-- There is no brace, at which a list of bases ends. -/
  no_brace : '\x7b' ∉ label
  /-- There is no telling word that could be a base. -/
  bases : holdsAny baseMarks label = false

instance (label : List Char) : Decidable (Plain label) :=
  decidable_of_iff ((label.all fun c => decide (isQuote c = false ∧ c ≠ ';')) = true ∧
    '\x7b' ∉ label ∧ holdsAny baseMarks label = false)
    ⟨fun ⟨clear, no_brace, bases⟩ => ⟨forall_mem_of_all clear, no_brace, bases⟩, fun h =>
      ⟨List.all_eq_true.mpr fun c hc => decide_eq_true (h.clear c hc), h.no_brace, h.bases⟩⟩

/-- The paths of a set do not count for its verdict. -/
structure Mute (files : List SourceFile) : Prop where
  /-- No path shows a sign. -/
  quiet : ∀ file ∈ files, Quiet (label file.path)
  /-- No path matters to what was left open before it, or nothing was. -/
  closed : (∀ file ∈ files, Plain (label file.path)) ∨
    ∀ file ∈ files, Finished (lower file.content.toList)

instance (files : List SourceFile) : Decidable (Mute files) :=
  decidable_of_iff ((∀ file ∈ files, Quiet (label file.path)) ∧
    ((∀ file ∈ files, Plain (label file.path)) ∨
      ∀ file ∈ files, Finished (lower file.content.toList)))
    ⟨fun ⟨quiet, closed⟩ => ⟨quiet, closed⟩, fun h => ⟨h.quiet, h.closed⟩⟩

theorem ruled_label (path : String) : Ruled (label path) := by
  have hstop : " =====\n".toList = " ====".toList ++ ['=', '\n'] := by decide +kernel
  rw [label, hstop, ← List.append_assoc, ← List.cons_append]
  exact ⟨_, rfl⟩

/-! ## Sets with the same contents -/

section Contents

variable {files files' : List SourceFile}

/-- Sets with the same contents have texts that are alike. -/
theorem alike_combine {inert : List Char → Prop}
    (hcontents : files.map (·.content) = files'.map (·.content))
    (h : ∀ file ∈ files, inert (label file.path)) (h' : ∀ file ∈ files', inert (label file.path)) :
    Alike inert (lower (combine files)) (lower (combine files')) := by
  induction files generalizing files' with
  | nil =>
    rw [List.map_eq_nil_iff.mp hcontents.symm]
    exact .refl _
  | cons file files ih =>
    cases files' with
    | nil => cases hcontents
    | cons file' files' =>
      rw [List.map_cons, List.map_cons, List.cons.injEq] at hcontents
      rw [List.forall_mem_cons] at h h'
      rw [lower_combine_cons, lower_combine_cons, hcontents.1]
      exact (Alike.refl _).append (.gap (ruled_label _) h.1 (ruled_label _) h'.1
        ((Alike.refl _).append ((Alike.refl _).append (ih hcontents.2 h.2 h'.2))))

theorem silent_line : Silent "\n// ===== file".toList := by decide +kernel

/-- What passes over quiet lines, and tells of a finished content and what follows it what it tells
of each, tells of a set what it tells of its contents. -/
theorem any_combine {test : List Char → Bool} (hnil : test [] = false)
    (hline : ∀ {front part}, Quiet part → Silent front → Ruled part → ∀ rest,
      test ((front ++ ':' :: part) ++ rest) = test rest)
    (hcontent : ∀ {cs} files, Finished cs → test (cs ++ (['\n', '\n'] ++ lower (combine files))) =
      (test cs || test (lower (combine files))))
    (hquiet : ∀ file ∈ files, Quiet (label file.path))
    (hfinished : ∀ file ∈ files, Finished (lower file.content.toList)) :
    test (lower (combine files)) =
      (files.map (·.content)).any fun content => test (lower content.toList) := by
  induction files with
  | nil => exact hnil
  | cons file files ih =>
    rw [List.forall_mem_cons] at hquiet hfinished
    have hpass := hline hquiet.1 silent_line (ruled_label file.path)
      (lower file.content.toList ++ (['\n', '\n'] ++ lower (combine files)))
    rw [List.append_assoc, List.cons_append] at hpass
    rw [lower_combine_cons, hpass, hcontent files hfinished.1, ih hquiet.2 hfinished.2,
      List.map_cons, List.any_cons]

theorem importsMarked_combine (hquiet : ∀ file ∈ files, Quiet (label file.path))
    (hfinished : ∀ file ∈ files, Finished (lower file.content.toList)) :
    importsMarked (lower (combine files)) =
      (files.map (·.content)).any fun content => importsMarked (lower content.toList) :=
  any_combine rfl Quiet.importsMarked_append (fun _ h => h.importsMarked_append _) hquiet hfinished

theorem inheritsMarked_combine (hquiet : ∀ file ∈ files, Quiet (label file.path))
    (hfinished : ∀ file ∈ files, Finished (lower file.content.toList)) :
    inheritsMarked (lower (combine files)) =
      (files.map (·.content)).any fun content => inheritsMarked (lower content.toList) :=
  any_combine rfl Quiet.inheritsMarked_append
    (fun files h => h.inheritsMarked_append (break_after_lower_content files)) hquiet hfinished

theorem forall_content {p : String → Prop}
    (hcontents : files.map (·.content) = files'.map (·.content))
    (h : ∀ file ∈ files, p file.content) : ∀ file ∈ files', p file.content := by
  intro file hfile
  have hmem : file.content ∈ files.map (·.content) :=
    hcontents ▸ List.mem_map_of_mem (f := (·.content)) hfile
  obtain ⟨other, hother, heq⟩ := List.mem_map.mp hmem
  exact heq ▸ h other hother

/-- Mute sets with the same contents have finished contents both, or are alike but for paths that
are plain. -/
theorem Mute.finished_or_alike (hcontents : files.map (·.content) = files'.map (·.content))
    (h : Mute files) (h' : Mute files') :
    (∀ file ∈ files, Finished (lower file.content.toList)) ∧
        (∀ file ∈ files', Finished (lower file.content.toList)) ∨
      Alike (fun part => Quiet part ∧ Plain part) (lower (combine files))
        (lower (combine files')) := by
  rcases h.closed with hplain | hfinished
  · rcases h'.closed with hplain' | hfinished
    · exact .inr (alike_combine hcontents
        (fun file hfile => ⟨h.quiet file hfile, hplain file hfile⟩)
        fun file hfile => ⟨h'.quiet file hfile, hplain' file hfile⟩)
    · exact .inl ⟨forall_content (p := fun content => Finished (lower content.toList))
        hcontents.symm hfinished, hfinished⟩
  · exact .inl ⟨hfinished, forall_content (p := fun content => Finished (lower content.toList))
      hcontents hfinished⟩

/-- **Mute sets with the same contents show the same imports.** -/
theorem Mute.importsMarked_eq (hcontents : files.map (·.content) = files'.map (·.content))
    (h : Mute files) (h' : Mute files') :
    importsMarked (lower (combine files)) = importsMarked (lower (combine files')) := by
  rcases h.finished_or_alike hcontents h' with ⟨hfinished, hfinished'⟩ | halike
  · rw [importsMarked_combine h.quiet hfinished, importsMarked_combine h'.quiet hfinished',
      hcontents]
  · exact importsMarked_of_alike (fun _ hpart => hpart.1) (fun _ hpart => hpart.2.clear) halike

/-- **Mute sets with the same contents show the same bases.** -/
theorem Mute.inheritsMarked_imp (hcontents : files.map (·.content) = files'.map (·.content))
    (h : Mute files) (h' : Mute files') (hmarked : inheritsMarked (lower (combine files)) = true) :
    inheritsMarked (lower (combine files')) = true := by
  rcases h.finished_or_alike hcontents h' with ⟨hfinished, hfinished'⟩ | halike
  · rwa [inheritsMarked_combine h'.quiet hfinished', ← hcontents,
      ← inheritsMarked_combine h.quiet hfinished]
  · exact inheritsMarked_of_alike (fun _ hpart => hpart.1) (fun _ hpart => hpart.2.no_brace)
      (fun _ hpart => hpart.2.bases) halike hmarked

/-- The verdict on a mute set is that on another with the same contents. -/
theorem Mute.inSource_imp (hcontents : files.map (·.content) = files'.map (·.content))
    (h : Mute files) (h' : Mute files') (hsource : inSource (combine files) = true) :
    inSource (combine files') = true := by
  have halike : Alike Quiet (lower (combine files)) (lower (combine files')) :=
    alike_combine hcontents h.quiet h'.quiet
  have hstays : ∀ {mark : List Char}, (':' ∉ mark ∧ '\n' ∉ mark) →
      (∀ part, Quiet part → contains mark part = false) →
      mark <:+: lower (combine files) → mark <:+: lower (combine files') :=
    fun hfree hquiet => infix_of_alike hfree (fun part hpart hinside => by
      have hheld := contains_iff.mpr hinside
      rw [hquiet part hpart] at hheld
      cases hheld) halike
  rw [inSource_combine_iff] at hsource ⊢
  rcases hsource with (hsign | hsign | hsign | hsign) | hsign
  · exact .inl (.inl (contains_iff.mpr (hstays (by decide +kernel) (fun _ hpart => hpart.delegates)
      (contains_iff.mp hsign))))
  · exact .inl (.inr (.inl (h.importsMarked_eq hcontents h' ▸ hsign)))
  · exact .inl (.inr (.inr (.inl (h.inheritsMarked_imp hcontents h' hsign))))
  · exact .inl (.inr (.inr (.inr (declaresMarked_of_alike (fun _ hpart => hpart) halike ▸ hsign))))
  · have hfree : ∀ mark ∈ functionMarks, ':' ∉ mark.toList ∧ '\n' ∉ mark.toList := by decide +kernel
    obtain ⟨mark, hmark, hinside⟩ := holdsAny_iff.mp hsign
    refine .inr (holdsAny_iff.mpr ⟨mark, hmark, hstays (hfree mark hmark) (fun part hpart => ?_)
      hinside⟩)
    exact Bool.eq_false_iff.mpr (List.any_eq_false.mp hpart.functions mark hmark)

end Contents

end Upgradeable

/-! ## Flags and functions -/

namespace Features

variable {files files' : List SourceFile}

/-- A flag that no path raises is raised by the contents. -/
theorem flag_of_paths {flag : Features → Bool} (hflag : flag ∈ flags)
    (hpaths : ∀ file ∈ files, flag (ofPiece file.path) = false) (parsed : Option ParsedSources) :
    flag (ofFiles files parsed) =
      (files.map (·.content)).any fun content => flag (ofPiece content) := by
  rw [flag_ofFiles hflag, List.any_map, Bool.eq_iff_iff, List.any_eq_true, List.any_eq_true]
  refine exists_congr fun file => and_congr_right fun hfile => ?_
  rw [hpaths file hfile, Bool.false_or]
  rfl

/-- Functions that no path has are those of the contents. -/
theorem functionCount_of_paths (hpaths : ∀ file ∈ files, (ofPiece file.path).functionCount = 0)
    (parsed : Option ParsedSources) : (ofFiles files parsed).functionCount =
      ((files.map (·.content)).map fun content => (ofPiece content).functionCount).sum := by
  rw [functionCount_ofFiles, List.map_map]
  refine congrArg List.sum (List.map_congr_left fun file hfile => ?_)
  rw [hpaths file hfile, Int.zero_add]
  rfl

end Features

/-! ## Verdicts -/

namespace Workbench

variable (bench : Workbench) (id : String) (trace : Trace)

/-- **Paths that are mute do not decide on the verdict, and paths that show no flag none of those.**
The records of two sets with the same contents have the same verdict, and are to be kept or not
alike, if the paths of both are mute; they have the same value of each flag that no path raises, and
as many functions, if no path has one. -/
theorem recordOf_of_contents (input input' : VerifiedInput)
    (hcontents : input.files.map (·.content) = input'.files.map (·.content)) :
    (Upgradeable.Mute input.files → Upgradeable.Mute input'.files →
      (bench.recordOf id trace (.verified input)).isUpgradeable =
          (bench.recordOf id trace (.verified input')).isUpgradeable ∧
        (bench.recordOf id trace (.verified input)).cacheEligible =
          (bench.recordOf id trace (.verified input')).cacheEligible) ∧
    (∀ flag ∈ Features.flags,
      (∀ file ∈ input.files ++ input'.files, flag (Features.ofPiece file.path) = false) →
      (bench.recordOf id trace (.verified input)).features.map flag =
        (bench.recordOf id trace (.verified input')).features.map flag) ∧
    ((∀ file ∈ input.files ++ input'.files, (Features.ofPiece file.path).functionCount = 0) →
      (bench.recordOf id trace (.verified input)).features.map Features.functionCount =
        (bench.recordOf id trace (.verified input')).features.map Features.functionCount) := by
  obtain ⟨imports, hrecord⟩ := bench.exists_recordOf_verified id trace input
  obtain ⟨imports', hrecord'⟩ := bench.exists_recordOf_verified id trace input'
  rw [hrecord, hrecord']
  refine ⟨fun hmute hmute' => ?_, fun flag hflag hpaths => congrArg some ?_,
    fun hpaths => congrArg some ?_⟩
  · have hverdict : Upgradeable.inSource (SourceFile.combine input.files) =
        Upgradeable.inSource (SourceFile.combine input'.files) :=
      Bool.eq_iff_iff.mpr ⟨hmute.inSource_imp hcontents hmute',
        hmute'.inSource_imp hcontents.symm hmute⟩
    exact ⟨hverdict, congrArg (!·) hverdict⟩
  · rw [List.forall_mem_append] at hpaths
    rw [Features.flag_of_paths hflag hpaths.1, Features.flag_of_paths hflag hpaths.2, hcontents]
  · rw [List.forall_mem_append] at hpaths
    rw [Features.functionCount_of_paths hpaths.1, Features.functionCount_of_paths hpaths.2,
      hcontents]

/-- A token, in a file of the given name. -/
def tokenAt (path : String) : SourceFile :=
  ⟨path, "import \"./Base.sol\";\n" ++
    "contract Token is Base \x7b\n  function pay() public \x7b\x7d\n\x7d\n"⟩

/-- A telling word in a path is no sign. -/
theorem recordOf_of_contents_tokenAt :
    (offlineRecord [tokenAt "proxy/Factory.sol"]).isUpgradeable =
        (offlineRecord [tokenAt "Token.sol"]).isUpgradeable ∧
      (∀ flag ∈ Features.flags,
        (offlineRecord [tokenAt "proxy/Factory.sol"]).features.map flag =
          (offlineRecord [tokenAt "Token.sol"]).features.map flag) ∧
      (offlineRecord [tokenAt "proxy/Factory.sol"]).features.map Features.functionCount =
        (offlineRecord [tokenAt "Token.sol"]).features.map Features.functionCount := by
  have hmute : Upgradeable.Mute [tokenAt "proxy/Factory.sol"] := by decide +kernel
  have hmute' : Upgradeable.Mute [tokenAt "Token.sol"] := by decide +kernel
  have hflags : ∀ flag ∈ Features.flags,
      ∀ file ∈ [tokenAt "proxy/Factory.sol", tokenAt "Token.sol"],
      flag (Features.ofPiece file.path) = false := by
    decide +kernel
  have hfunctions : ∀ file ∈ [tokenAt "proxy/Factory.sol", tokenAt "Token.sol"],
      (Features.ofPiece file.path).functionCount = 0 := by
    decide +kernel
  obtain ⟨hverdict, hflag, hcount⟩ := recordOf_of_contents offline "id" {}
    (sourceOf [tokenAt "proxy/Factory.sol"]) (sourceOf [tokenAt "Token.sol"]) rfl
  exact ⟨(hverdict hmute hmute').1, fun flag h => hflag flag h (hflags flag h), hcount hfunctions⟩

/-- **A path that names a call in the caller's context decides the verdict**, and the flag. -/
theorem not_same_verdict_tokenAt :
    [tokenAt "delegatecall.sol"].map (·.content) = [tokenAt "Token.sol"].map (·.content) ∧
      (offlineRecord [tokenAt "delegatecall.sol"]).isUpgradeable = true ∧
      (offlineRecord [tokenAt "Token.sol"]).isUpgradeable = false ∧
      (offlineRecord [tokenAt "delegatecall.sol"]).cacheEligible = false ∧
      (offlineRecord [tokenAt "Token.sol"]).cacheEligible = true ∧
      (offlineRecord [tokenAt "delegatecall.sol"]).features.map (·.hasDelegateCall) = some true ∧
      (offlineRecord [tokenAt "Token.sol"]).features.map (·.hasDelegateCall) = some false := by
  refine ⟨rfl, ?_, ?_, ?_, ?_, ?_, ?_⟩ <;> decide +kernel

end Workbench

end ContractLens
