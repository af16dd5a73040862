import Eligibility.Proofs.Except
import Eligibility.Proofs.Text.Trim
import Eligibility.Proofs.Token.Lexemes
import Eligibility.RuleBook

/-!
# The sections of a rule book

A rule book is taken apart at its line feeds, and the lines that count at the headers among them.
So a document whose lines are known is known to give certain rules as soon as its lines fall into
sections, each of them a header and lines after it that are no headers.

## Main definitions

* `RuleBook.counted lines` : the lines that count, trimmed.
* `RuleBook.Heads name front` : what stands before the colon of a header with the given name.
* `RuleBook.Section draft lines` : the lines are a header and what follows it, and make the draft.

## Main results

* `splitLines_intercalate` : **putting lines together and taking them apart gives them back.**
* `header?_eq_some_iff` : which lines are headers.
* `parse_of_sections`, `parse_eq_ok_of_sections` : **the rules of a document are those of its
  sections.**
-/

namespace Eligibility

namespace RuleBook

variable {c : Char} {cs front first name body : List Char} {more lines : List (List Char)}

/-! ### Lines -/

theorem splitLines_cons (hc : c ≠ '\n') (h : splitLines cs = first :: more) :
    splitLines (c :: cs) = (c :: first) :: more := by
  rw [splitLines] at h ⊢
  rw [List.foldr_cons, if_neg hc, h]

/-- Every text has a first line. -/
theorem exists_splitLines_eq_cons (cs : List Char) :
    ∃ first more, splitLines cs = first :: more := by
  induction cs with
  | nil => exact ⟨[], [], rfl⟩
  | cons c cs ih =>
    by_cases hc : c = '\n'
    · rw [hc]
      exact ⟨[], splitLines cs, splitLines_cons_newline cs⟩
    · obtain ⟨first, more, h⟩ := ih
      exact ⟨c :: first, more, splitLines_cons hc h⟩

/-- The first line starts like the text. -/
theorem head_of_splitLines (h : splitLines cs = first :: more) :
    ∀ c ∈ first.head?, c ∈ cs.head? := by
  intro c hc
  cases cs with
  | nil =>
    rw [splitLines_nil] at h
    obtain ⟨rfl, -⟩ := List.cons.inj h
    exact hc
  | cons d cs =>
    by_cases hd : d = '\n'
    · rw [hd, splitLines_cons_newline] at h
      obtain ⟨rfl, -⟩ := List.cons.inj h
      cases hc
    · obtain ⟨first', more', hsplit⟩ := exists_splitLines_eq_cons cs
      rw [splitLines_cons hd hsplit] at h
      obtain ⟨rfl, -⟩ := List.cons.inj h
      exact hc

/-- The lines of a text are its pieces between line feeds. -/
theorem splitLines_eq_splitOn (cs : List Char) : splitLines cs = cs.splitOn '\n' := by
  induction cs with
  | nil => rfl
  | cons c cs ih =>
    rw [List.splitOn_eq_splitOnP] at ih ⊢
    rw [List.splitOnP_cons_eq_if_modifyHead, ← ih]
    by_cases hc : c = '\n'
    · rw [hc, splitLines_cons_newline]
      rfl
    · obtain ⟨first, more, h⟩ := exists_splitLines_eq_cons cs
      rw [splitLines_cons hc h, h, if_neg (by simpa using hc)]
      rfl

/-- What stands in front of a text without a line feed goes to its first line. -/
theorem splitLines_append (hfront : '\n' ∉ front) (h : splitLines cs = first :: more) :
    splitLines (front ++ cs) = (front ++ first) :: more := by
  induction front with
  | nil => exact h
  | cons c front ih =>
    rw [List.mem_cons, not_or] at hfront
    exact splitLines_cons (Ne.symm hfront.1) (ih hfront.2)

/-- **Putting lines together and taking them apart gives them back.** -/
theorem splitLines_intercalate (hne : lines ≠ []) (h : ∀ line ∈ lines, '\n' ∉ line) :
    splitLines (List.intercalate ['\n'] lines) = lines := by
  rw [splitLines_eq_splitOn, List.splitOn_intercalate '\n' h hne]

theorem feed_notMem_of_splitLines (cs : List Char) : ∀ line ∈ splitLines cs, '\n' ∉ line := by
  induction cs with
  | nil => simp
  | cons c cs ih =>
    by_cases hc : c = '\n'
    · rw [hc, splitLines_cons_newline, List.forall_mem_cons]
      exact ⟨List.not_mem_nil, ih⟩
    · obtain ⟨first, more, h⟩ := exists_splitLines_eq_cons cs
      rw [h, List.forall_mem_cons] at ih
      rw [splitLines_cons hc h, List.forall_mem_cons, List.mem_cons, not_or]
      exact ⟨⟨Ne.symm hc, ih.1⟩, ih.2⟩

/-- A line feed at the end ends the last line, and nothing comes after it. -/
theorem splitLines_concat_newline (cs : List Char) :
    splitLines (cs ++ ['\n']) = splitLines cs ++ [[]] := by
  rw [splitLines_eq_splitOn, splitLines_eq_splitOn, List.splitOn_eq_splitOnP,
    List.splitOn_eq_splitOnP, List.splitOnP_append_cons cs [] (by decide), List.splitOnP_nil]

/-- The lines that count, trimmed. -/
def counted (lines : List (List Char)) : List (List Char) :=
  (lines.map Text.trimChars).filter counts

theorem counted_append (lines more : List (List Char)) :
    counted (lines ++ more) = counted lines ++ counted more := by
  rw [counted, List.map_append, List.filter_append]
  rfl

theorem counted_cons (line : List Char) (lines : List (List Char)) :
    counted (line :: lines) = counted [line] ++ counted lines :=
  counted_append [line] lines

/-- The lines of a document that is put together from lines. -/
theorem counted_splitLines_intercalate (h : ∀ line ∈ lines, '\n' ∉ line) :
    counted (splitLines (List.intercalate ['\n'] lines)) = counted lines := by
  cases lines with
  | nil => rfl
  | cons line lines => rw [splitLines_intercalate (List.cons_ne_nil line lines) h]

/-- The numbered lines of a document are its lines that count. -/
theorem map_snd_numberedLines (document : String) :
    (numberedLines document).map Prod.snd = counted (splitLines document.toList) := by
  have hfilter := List.filter_map (f := Prod.snd) (p := counts) (l :=
    (List.range' 1 ((splitLines document.toList).map Text.trimChars).length).zip
      ((splitLines document.toList).map Text.trimChars))
  rw [List.map_snd_zip (by simp)] at hfilter
  exact hfilter.symm

/-! ### Headers -/

/-- The front of a header: the word `rule`, and a name between spaces and tabs. -/
inductive Heads : List Char → List Char → Prop
  | mk {gap name gap' : List Char} (hgap : gap ≠ []) (hspace : gap.all isSpace = true)
      (hname : name ≠ []) (hword : name.all Token.isWordChar = true)
      (hspace' : gap'.all isSpace = true) :
    Heads name ('r' :: 'u' :: 'l' :: 'e' :: (gap ++ (name ++ gap')))

theorem isSpace_of_isWordChar (hc : Token.isWordChar c = true) : isSpace c = false := by
  simp only [isSpace, Bool.or_eq_false_iff, beq_eq_false_iff_ne]
  exact ⟨Token.ne_of_class hc rfl, Token.ne_of_class hc rfl⟩

theorem isWordChar_of_isSpace (hc : isSpace c = true) : Token.isWordChar c = false := by
  simp only [isSpace, Bool.or_eq_true, beq_iff_eq] at hc
  rcases hc with rfl | rfl <;> rfl

/-- The first character of a run and of what follows it. -/
theorem stop_append {p : Char → Bool} (hcs : ∀ c ∈ cs, p c = false)
    (hfirst : ∀ c ∈ first.head?, p c = false) : ∀ c ∈ (cs ++ first).head?, p c = false := by
  cases cs with
  | nil => exact hfirst
  | cons d cs =>
    intro c hc
    obtain rfl := Option.some.inj hc
    exact hcs _ List.mem_cons_self

theorem Heads.mem_class (h : Heads name front) :
    ∀ c ∈ front, isSpace c = true ∨ Token.isWordChar c = true := by
  obtain ⟨-, hspace, -, hword, hspace'⟩ := h
  rename_i gap gap'
  rw [List.all_eq_true] at hspace hword hspace'
  intro c hc
  have hkeyword : ['r', 'u', 'l', 'e'].all Token.isWordChar = true := rfl
  have hparts : c ∈ ['r', 'u', 'l', 'e'] ++ (gap ++ (name ++ gap')) := hc
  simp only [List.mem_append] at hparts
  rcases hparts with hc | hc | hc | hc
  · exact .inr (List.all_eq_true.1 hkeyword c hc)
  · exact .inl (hspace c hc)
  · exact .inr (hword c hc)
  · exact .inl (hspace' c hc)

theorem Heads.header?_eq (h : Heads name front) (body : List Char) :
    header? (front ++ ':' :: body) = some (String.ofList name, body) := by
  obtain ⟨hgap, hspace, hname, hword, hspace'⟩ := h
  rename_i gap gap'
  have hcolon : ∀ p : Char → Bool, p ':' = false → ∀ c ∈ (':' :: body).head?, p c = false := by
    intro p hp c hc
    obtain rfl := Option.some.inj hc
    exact hp
  have hnames := fun c hc => isSpace_of_isWordChar (List.all_eq_true.1 hword c hc)
  have hspaces := fun c hc => isWordChar_of_isSpace (List.all_eq_true.1 hspace' c hc)
  -- the three runs, from the last one to the first one
  obtain ⟨-, hafter⟩ := Token.takeWhile_append_of_stop hspace' (hcolon isSpace rfl)
  obtain ⟨hrun, hafterName⟩ := Token.takeWhile_append_of_stop hword
    (stop_append hspaces (hcolon Token.isWordChar rfl))
  have hnamed : ∀ c ∈ (name ++ (gap' ++ ':' :: body)).head?, isSpace c = false := by
    intro d hd
    rw [List.head?_append_of_ne_nil name hname] at hd
    exact hnames d (List.mem_of_mem_head? hd)
  obtain ⟨htake, hdrop⟩ := Token.takeWhile_append_of_stop hspace hnamed
  have htext : 'r' :: 'u' :: 'l' :: 'e' :: (gap ++ (name ++ gap')) ++ ':' :: body =
      'r' :: 'u' :: 'l' :: 'e' :: (gap ++ (name ++ (gap' ++ ':' :: body))) := by simp
  rw [htext, header?]
  simp only [htake, hdrop, hrun, hafterName, hafter]
  rw [if_neg (not_or.2 ⟨hgap, hname⟩)]

/-- A line is a header if it has the front of one before a colon. -/
theorem header?_eq_some_iff {s : String} : header? cs = some (s, body) ↔
    ∃ front, Heads s.toList front ∧ cs = front ++ ':' :: body := by
  constructor
  · intro h
    unfold header? at h
    split at h
    · rename_i rest
      simp only at h
      split at h
      · rename_i hcolon
        split at h
        · cases h
        · rename_i hparts
          obtain ⟨hgap, hname⟩ := not_or.1 hparts
          obtain ⟨rfl, rfl⟩ := Prod.mk.inj (Option.some.inj h)
          rw [String.toList_ofList]
          have hafter := List.takeWhile_append_dropWhile (p := isSpace) (l :=
            (rest.dropWhile isSpace).dropWhile Token.isWordChar)
          have hspace := List.all_takeWhile (p := isSpace) (l :=
            (rest.dropWhile isSpace).dropWhile Token.isWordChar)
          rw [hcolon] at hafter
          refine ⟨_, .mk hgap List.all_takeWhile hname List.all_takeWhile hspace, ?_⟩
          simp only [List.cons_append, List.append_assoc, hafter, List.takeWhile_append_dropWhile]
      · cases h
    · cases h
  · rintro ⟨front, hfront, rfl⟩
    rw [hfront.header?_eq body, String.ofList_toList]

/-- The name in a header is not blank. -/
theorem Heads.not_isBlank {name : String} {front : List Char} (h : Heads name.toList front) :
    ¬Text.IsBlank name := by
  obtain ⟨-, -, hname, hword, -⟩ := h
  intro hblank
  obtain ⟨c, cs, hcons⟩ := List.exists_cons_of_ne_nil hname
  have hmem : c ∈ name.toList := by
    rw [hcons]
    exact List.mem_cons_self
  have hplain := Lexeme.isPlain_of_isWordChar (List.all_eq_true.1 hword c hmem)
  have hc := hblank c hmem
  rw [Lexeme.isBlank_of_isPlain hplain] at hc
  cases hc

/-- A header counts, and besides its indentation only blanks at its end are trimmed off it. -/
theorem Heads.counted_eq (h : Heads name front) {indent : List Char}
    (hindent : ∀ c ∈ indent, Text.isBlank c = true) (body : List Char) :
    counted [indent ++ (front ++ ':' :: body)] =
      [front ++ ':' :: body.rdropWhile Text.isBlank] := by
  have hstart : ∀ c ∈ (front ++ [':']).head?, Text.isBlank c = false := by
    cases h
    simp
    rfl
  have hcounts : counts (front ++ ':' :: body.rdropWhile Text.isBlank) = true := by
    cases h
    rfl
  rw [counted, List.map_singleton, Text.trimChars_append_of_blank hindent,
    Text.trimChars_append_cons hstart rfl, List.filter_singleton, hcounts]
  rfl

/-! ### Sections -/

/-- A header and what follows it, and the draft that they make. -/
inductive Section : Draft → List (List Char) → Prop
  | mk {s : String} {header body : List Char} {more : List (List Char)}
      (hheader : header? header = some (s, body)) (hmore : ∀ line ∈ more, header? line = none) :
    Section ⟨s, body :: more⟩ (header :: more)

/-- Lines before a header that are no headers themselves are left over. -/
theorem segment_append {stray lines : List (Nat × List Char)} {drafts : List Draft}
    (hstray : ∀ line ∈ stray, header? line.2 = none) (h : segment lines = ([], drafts)) :
    segment (stray ++ lines) = (stray, drafts) := by
  induction stray with
  | nil => exact h
  | cons line stray ih =>
    rw [List.forall_mem_cons] at hstray
    have hrest := ih hstray.2
    simp only [segment, List.cons_append, List.foldr_cons] at hrest ⊢
    rw [hrest, hstray.1]

/-- **Lines that fall into sections make the drafts of these sections**, whatever numbers the lines
have. -/
theorem segment_eq_of_sections {drafts : List Draft} {sections : List (List (List Char))}
    (h : List.Forall₂ Section drafts sections) {numbered : List (Nat × List Char)}
    (hlines : numbered.map Prod.snd = sections.flatten) : segment numbered = ([], drafts) := by
  induction h generalizing numbered with
  | nil =>
    rw [List.flatten_nil, List.map_eq_nil_iff] at hlines
    rw [hlines, segment_nil]
  | @cons draft lines drafts sections hdraft _ ih =>
    obtain ⟨hheader, hmore⟩ := hdraft
    rename_i s header body more
    rw [List.flatten_cons, List.cons_append, List.map_eq_cons_iff] at hlines
    obtain ⟨line, rest, rfl, rfl, hrest⟩ := hlines
    obtain ⟨stray, others, rfl, rfl, hothers⟩ := List.map_eq_append_iff.1 hrest
    have hstray : ∀ line ∈ stray, header? line.2 = none := fun line hline =>
      hmore line.2 (List.mem_map_of_mem hline)
    -- the later sections leave exactly the lines before them, which the header then takes
    have hsegment := segment_append hstray (ih hothers)
    simp only [segment, List.foldr_cons] at hsegment ⊢
    rw [hsegment, hheader]

/-- A draft of one piece has that piece as its text, trimmed. -/
theorem Draft.source_singleton (s : String) (piece : List Char) :
    source ⟨s, [piece]⟩ = String.ofList (Text.trimChars piece) := by
  cases h : Text.trimChars piece with
  | nil => simp [source, h]
  | cons c cs => simp [source, h]

theorem Draft.toRule_of_ofSource {d : Draft} {rule : Rule}
    (h : Rule.ofSource d.name d.source {} = .ok rule) : d.toRule = .ok rule := by
  rw [toRule, h]

/-- **A document is read section by section**, and refused if it has none. -/
theorem parse_of_sections {document : String} {drafts : List Draft}
    {sections : List (List (List Char))}
    (hlines : counted (splitLines document.toList) = sections.flatten)
    (hsections : List.Forall₂ Section drafts sections) :
    parse document = if drafts = [] then .error .noRules else drafts.mapM Draft.toRule := by
  have hsegment : segment (numberedLines document) = ([], drafts) := by
    refine segment_eq_of_sections hsections ?_
    rw [map_snd_numberedLines, hlines]
  rw [parse, hsegment]
  cases drafts with
  | nil => rfl
  | cons d ds => rfl

/-- **The rules of a document are those of its sections.** -/
theorem parse_eq_ok_of_sections {document : String} {drafts : List Draft}
    {sections : List (List (List Char))} {rules : List Rule}
    (hlines : counted (splitLines document.toList) = sections.flatten)
    (hsections : List.Forall₂ Section drafts sections) (hne : drafts ≠ [])
    (hrules : List.Forall₂ (fun d rule => Rule.ofSource d.name d.source {} = .ok rule)
      drafts rules) :
    parse document = .ok rules := by
  rw [parse_of_sections hlines hsections, if_neg hne, Except.mapM_eq_ok_iff]
  exact hrules.imp fun d rule hd => Draft.toRule_of_ofSource hd

end RuleBook

end Eligibility
