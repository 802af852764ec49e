import ContractLens.Import.Statement
import ContractLens.Proofs.Import.Partition
import ContractLens.Proofs.Text.Place
import Mathlib.Data.List.TakeDrop
/-!
# Import statements as they are written

What stands before the path of an import statement is the keyword and a clause (`Written`). In most
statements the clause is made of words, blanks and a star; only a list of names in braces, which
ends at the first brace that closes it, may hold anything else (`Braced`). Every path that a text
imports comes from a statement that is written in it (`exists_written`).
-/

namespace ContractLens

namespace Text

/-! ## Texts in quotation marks -/

/-- A text starts with a path in quotation marks. -/
structure QuotedBy (cs : List Char) (opening : Char) (path : List Char) (closing : Char)
    (left : List Char) : Prop where
  /-- The parts follow each other. -/
  text : cs = opening :: (path ++ closing :: left)
  /-- There is a quotation mark before the path. -/
  opens : isQuote opening = true
  /-- There is a quotation mark after it, perhaps of the other kind. -/
  closes : isQuote closing = true
  /-- The path is not empty. -/
  ne : path ≠ []
  /-- There is no quotation mark in it. -/
  free : ∀ c ∈ path, isQuote c = false

theorem not_isQuote_iff {cs : List Char} :
    (∀ c ∈ cs, (!isQuote c) = true) ↔ ∀ c ∈ cs, isQuote c = false := by
  simp only [Bool.not_eq_true']

theorem head_of_isQuote {opening : Char} (h : isQuote opening = true) {cs : List Char} :
    ∀ c ∈ (opening :: cs).head?, (!isQuote c) = false :=
  forall_head?_cons (by rw [h]; rfl) cs

theorem readQuoted?_eq_some_iff {cs path left : List Char} :
    readQuoted? cs = some (path, left) ↔
      ∃ opening closing, QuotedBy cs opening path closing left := by
  constructor
  · intro h
    cases cs with
    | nil => cases h
    | cons opening rest =>
      rw [readQuoted?] at h
      split at h
      · rename_i hopens
        rw [List.span_eq_takeWhile_dropWhile] at h
        split at h
        · rename_i body closing after hspan
          split at h
          · cases h
          · rename_i hne
            cases h
            rw [Prod.mk.injEq] at hspan
            obtain ⟨rfl, hdrop⟩ := hspan
            have hcloses := head?_dropWhile_eq_false (fun d => !isQuote d) rest closing
              (by rw [hdrop]; rfl)
            refine ⟨opening, closing, ?_, hopens, by simpa using hcloses, by simpa using hne, ?_⟩
            · rw [← hdrop, List.takeWhile_append_dropWhile]
            · intro c hc
              simpa using List.mem_takeWhile_imp hc
        · cases h
      · cases h
  · rintro ⟨opening, closing, rfl, hopens, hcloses, hne, hfree⟩
    rw [readQuoted?, if_pos hopens, List.span_eq_takeWhile_dropWhile,
      takeWhile_run (not_isQuote_iff.mpr hfree) (head_of_isQuote hcloses),
      dropWhile_run (not_isQuote_iff.mpr hfree) (head_of_isQuote hcloses)]
    exact if_neg (by simpa using hne)

end Text

namespace Import

open Text

/-! ## Clauses -/

/-- A character of a clause without names in braces: of a word, a blank or the star. -/
def isPlain (c : Char) : Bool := isWordChar c || isBlank c || c == '*'

theorem isPlain_of_isWordChar {run : List Char} (h : ∀ c ∈ run, isWordChar c = true) :
    ∀ c ∈ run, isPlain c = true := by
  intro c hc
  rw [isPlain, h c hc]
  rfl

theorem isPlain_of_isBlank {run : List Char} (h : ∀ c ∈ run, isBlank c = true) :
    ∀ c ∈ run, isPlain c = true := by
  intro c hc
  rw [isPlain, h c hc, Bool.or_true]
  rfl

theorem isPlain_append {cs ds : List Char} (hcs : ∀ c ∈ cs, isPlain c = true)
    (hds : ∀ c ∈ ds, isPlain c = true) : ∀ c ∈ cs ++ ds, isPlain c = true := by
  intro c hc
  rcases List.mem_append.mp hc with hc | hc
  · exact hcs c hc
  · exact hds c hc

/-- A text with a plain beginning dropped. -/
def PlainUpTo (cs rest : List Char) : Prop :=
  ∃ start, cs = start ++ rest ∧ ∀ c ∈ start, isPlain c = true

theorem PlainUpTo.trans {cs ds es : List Char} (h : PlainUpTo cs ds) (h' : PlainUpTo ds es) :
    PlainUpTo cs es := by
  obtain ⟨start, rfl, hstart⟩ := h
  obtain ⟨start', rfl, hstart'⟩ := h'
  exact ⟨start ++ start', (List.append_assoc _ _ _).symm, isPlain_append hstart hstart'⟩

theorem plainUpTo_dropBlanks {cs rest : List Char} (h : dropBlanks? cs = some rest) :
    PlainUpTo cs rest := by
  obtain ⟨blanks, rfl, -, hblank, -⟩ := dropBlanks?_eq_some_iff.mp h
  exact ⟨blanks, rfl, isPlain_of_isBlank hblank⟩

theorem plainUpTo_dropStart {word cs rest : List Char} (hword : ∀ c ∈ word, isWordChar c = true)
    (h : dropStart? word cs = some rest) : PlainUpTo cs rest :=
  ⟨word, dropStart?_eq_some_iff.mp h, isPlain_of_isWordChar hword⟩

theorem plainUpTo_dropAlias {cs rest : List Char} (h : dropAlias? cs = some rest) :
    PlainUpTo cs rest := by
  simp only [dropAlias?, Option.bind_eq_bind, Option.bind_eq_some_iff] at h
  obtain ⟨first, hfirst, second, hsecond, third, hthird, ⟨name, fourth⟩, hname, hrest⟩ := h
  cases hrest
  obtain ⟨rfl, -, hisWord, -⟩ := takeWord?_eq_some_iff.mp hname
  have hword := plainUpTo_dropStart (forall_mem_of_all (by decide)) hsecond
  exact (plainUpTo_dropBlanks hfirst).trans (hword.trans
    ((plainUpTo_dropBlanks hthird).trans ⟨name, rfl, isPlain_of_isWordChar hisWord⟩))

theorem plainUpTo_readFrom {cs path left : List Char} (h : readFrom? cs = some (path, left)) :
    ∃ rest, PlainUpTo cs rest ∧ readQuoted? rest = some (path, left) := by
  simp only [readFrom?, Option.bind_eq_bind, Option.bind_eq_some_iff] at h
  obtain ⟨first, hfirst, second, hsecond, third, hthird, hquoted⟩ := h
  have hword := plainUpTo_dropStart (forall_mem_of_all (by decide)) hsecond
  exact ⟨third, (plainUpTo_dropBlanks hfirst).trans (hword.trans (plainUpTo_dropBlanks hthird)),
    hquoted⟩

/-- A clause with names in braces: there are blanks before the braces, and a plain text behind. -/
structure Braced (clause names : List Char) : Prop where
  /-- The parts follow each other. -/
  text : ∃ blanks behind, clause = blanks ++ '\x7b' :: (names ++ '\x7d' :: behind) ∧
    (∀ c ∈ blanks, isBlank c = true) ∧ ∀ c ∈ behind, isPlain c = true
  /-- The names end where the braces are closed. -/
  ends : '\x7d' ∉ names

/-- A clause is plain, or has names in braces. -/
def Clausal (clause : List Char) : Prop :=
  (∀ c ∈ clause, isPlain c = true) ∨ ∃ names, Braced clause names

/-- A clause may have more blanks in front. -/
theorem Clausal.append {blanks clause : List Char} (h : Clausal clause)
    (hblank : ∀ c ∈ blanks, isBlank c = true) : Clausal (blanks ++ clause) := by
  rcases h with hplain | ⟨names, ⟨gap, behind, rfl, hgap, hbehind⟩, hends⟩
  · exact .inl (isPlain_append (isPlain_of_isBlank hblank) hplain)
  · refine .inr ⟨names, ⟨blanks ++ gap, behind, (List.append_assoc _ _ _).symm, fun c hc => ?_,
      hbehind⟩, hends⟩
    exact (List.mem_append.mp hc).elim (hblank c) (hgap c)

/-- A text starts with a clause and a path in quotation marks. -/
def Claused (cs path : List Char) : Prop :=
  ∃ clause quoted left, cs = clause ++ quoted ∧ readQuoted? quoted = some (path, left) ∧
    Clausal clause

theorem claused_of_readPlain {cs path left : List Char} (h : readPlain? cs = some (path, left)) :
    Claused cs path := by
  simp only [readPlain?, Option.bind_eq_bind, Option.bind_eq_some_iff] at h
  obtain ⟨⟨body, after⟩, hquoted, heq⟩ := h
  cases heq
  exact ⟨[], cs, after, rfl, hquoted, .inl fun c hc => absurd hc List.not_mem_nil⟩

theorem claused_of_readStar {cs path left : List Char} (h : readStar? cs = some (path, left)) :
    Claused cs path := by
  unfold readStar? at h
  split at h
  · rename_i rest
    simp only [Option.bind_eq_bind, Option.bind_eq_some_iff] at h
    obtain ⟨aliased, halias, hfrom⟩ := h
    obtain ⟨quoted, hplain, hquoted⟩ := plainUpTo_readFrom hfrom
    obtain ⟨start, hstart, hclear⟩ := (plainUpTo_dropAlias halias).trans hplain
    refine ⟨'*' :: start, quoted, left, ?_, hquoted, .inl ?_⟩
    · rw [hstart, List.cons_append]
    · exact List.forall_mem_cons.mpr ⟨by decide, hclear⟩
  · cases h

theorem claused_of_readNames {cs path left : List Char} (h : readNames? cs = some (path, left)) :
    Claused cs path := by
  unfold readNames? at h
  split at h
  · rename_i rest
    split at h
    · rename_i brace after hdrop
      -- the names end at the first brace that closes them
      obtain ⟨quoted, ⟨start, hstart, hplain⟩, hquoted⟩ := plainUpTo_readFrom h
      obtain rfl : brace = '\x7d' := by
        simpa using head?_dropWhile_eq_false (· != '\x7d') rest brace (by rw [hdrop]; rfl)
      have hrest : rest = rest.takeWhile (· != '\x7d') ++ '\x7d' :: (start ++ quoted) := by
        rw [← hstart, ← hdrop, List.takeWhile_append_dropWhile]
      have hends : '\x7d' ∉ rest.takeWhile (· != '\x7d') := fun hmem =>
        absurd (List.mem_takeWhile_imp hmem) (by decide)
      refine ⟨'\x7b' :: (rest.takeWhile (· != '\x7d') ++ '\x7d' :: start), quoted, left, ?_,
        hquoted, .inr ⟨rest.takeWhile (· != '\x7d'), ⟨[], start, rfl, nofun, hplain⟩, hends⟩⟩
      rw [List.cons_append, List.append_assoc, List.cons_append]
      exact congrArg _ hrest
    · cases h
  · cases h

/-! ## Statements -/

/-- An import statement at the start of a text: the keyword, a clause, and a path in quotation
marks. -/
structure Written (cs clause path : List Char) : Prop where
  /-- The path follows the keyword and the clause. -/
  text : ∃ opening closing left, QuotedBy (opening :: (path ++ closing :: left)) opening path
    closing left ∧ cs = "import".toList ++ (clause ++ opening :: (path ++ closing :: left))
  /-- There is a blank after the keyword. -/
  starts : ∃ blank rest, clause = blank :: rest ∧ isBlank blank = true
  /-- The clause is plain, or has names in braces. -/
  clausal : Clausal clause

theorem Claused.written {blanks cs path : List Char} (h : Claused cs path) (hne : blanks ≠ [])
    (hblank : ∀ c ∈ blanks, isBlank c = true) :
    ∃ clause, Written ("import".toList ++ (blanks ++ cs)) clause path := by
  obtain ⟨clause, quoted, left, rfl, hquoted, hclausal⟩ := h
  obtain ⟨opening, closing, hmarks⟩ := readQuoted?_eq_some_iff.mp hquoted
  obtain ⟨b, bs, rfl⟩ := List.exists_cons_of_ne_nil hne
  refine ⟨(b :: bs) ++ clause, ⟨opening, closing, left, hmarks.text ▸ hmarks, ?_⟩,
    ⟨b, bs ++ clause, rfl, hblank b List.mem_cons_self⟩, hclausal.append hblank⟩
  rw [hmarks.text, List.append_assoc]

/-- The path that a statement reads is the one that is written there. -/
theorem written_of_statement {afterWord : Bool} {cs left : List Char} {path : String}
    (h : statement afterWord cs = some (path, left)) :
    afterWord = false ∧ ∃ clause, Written cs clause path.toList := by
  simp only [statement, Option.bind_eq_bind, Option.bind_eq_some_iff] at h
  obtain ⟨⟨⟨⟩, first⟩, hword, second, hblanks, h⟩ := h
  obtain ⟨hafterWord, rfl⟩ := keyword_eq_some_iff.mp hword
  obtain ⟨blanks, rfl, hne, hblank, -⟩ := dropBlanks?_eq_some_iff.mp hblanks
  refine ⟨hafterWord, ?_⟩
  obtain ⟨found, hclaused, rfl⟩ : ∃ found, Claused second found ∧ path = String.ofList found := by
    split at h
    · rename_i read hread
      cases h
      exact ⟨read.1, claused_of_readPlain hread, rfl⟩
    split at h
    · rename_i read hread
      cases h
      exact ⟨read.1, claused_of_readStar hread, rfl⟩
    · obtain ⟨read, hread, h⟩ := Option.bind_eq_some_iff.mp h
      cases h
      exact ⟨read.1, claused_of_readNames hread, rfl⟩
  have hfound : (String.ofList found).toList = found := String.toList_ofList
  rw [hfound]
  exact hclaused.written hne hblank

/-- **Every path that a text imports is written in a statement there**, where no word goes on. -/
theorem exists_written {content path : String} (h : path ∈ extract content) :
    ∃ before rest clause, content.toList = before ++ rest ∧ wordBefore false before = false ∧
      Written rest clause path.toList := by
  obtain ⟨before, rest, left, hcontent, hread⟩ := exists_place_of_mem (mem_distinct.mp h)
  obtain ⟨hplace, clause, hwritten⟩ := written_of_statement hread
  exact ⟨before, rest, clause, hcontent, hplace, hwritten⟩

end Import

end ContractLens
