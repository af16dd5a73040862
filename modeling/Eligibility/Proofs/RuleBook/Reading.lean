import Eligibility.Proofs.RuleBook.Sections

/-!
# What is read from a rule book

Every document falls into the lines that count before its first header and the sections behind it,
each a header and the lines up to the next one.  What is read depends on nothing else: a line before
the first header is a fault whatever comes later, and otherwise each section is a rule, or the first
one whose text is no expression is a fault.

## Main definitions

* `RuleBook.Passage` : a name and a text, as a section of a rule book gives them.
* `RuleBook.Gives lines p` : the lines are a section that gives this passage.
* `RuleBook.Divides lines passages` : what counts of the lines falls into sections that give these.
* `RuleBook.ReadsAs lines result` : what the lines of a document are read as.

## Main results

* `RuleBook.exists_stray_and_sections` : lines fall into stray ones and sections.
* `RuleBook.numberedLines_eq_cons` : the first line that counts has its number in the whole
  document.
* `RuleBook.parse_of_divides` : a document is read passage by passage.
* `RuleBook.parse_eq_iff_readsAs` : **what a document is read as**, faults included.
-/

namespace Eligibility

namespace RuleBook

variable {document : String} {line : List Char} {lines before after : List (List Char)}
  {sections : List (List (List Char))} {passages : List Passage}

/-! ### Passages -/

/-- A name and a text, as a section of a rule book gives them. -/
structure Passage where
  /-- The name. -/
  name : String
  /-- The text. -/
  source : String

/-- The pieces of a text that are not empty, with single spaces between them. -/
def joined (pieces : List (List Char)) : String :=
  String.ofList (List.intercalate [' '] (pieces.filter fun piece => !piece.isEmpty))

/-- The lines are a section that gives a passage: the name in its header, and as the text the rest
of the header line, trimmed, joined with the lines after it, none of which is a header. -/
inductive Gives : List (List Char) → Passage → Prop
  | mk {name : String} {header rest : List Char} {more : List (List Char)}
      (hheader : header? header = some (name, rest)) (hmore : ∀ line ∈ more, header? line = none) :
    Gives (header :: more) ⟨name, joined (Text.trimChars rest :: more)⟩

/-- The lines that count fall into sections that give these passages, each line into one section. -/
def Divides (lines : List (List Char)) (passages : List Passage) : Prop :=
  ∃ sections, counted lines = sections.flatten ∧ List.Forall₂ Gives sections passages

namespace Passage

/-- The rule of a passage, or the fault in its text together with its name. -/
def toRule (p : Passage) : Except RuleError Rule :=
  match Expr.parse {} p.source with
  | .ok expr => .ok ⟨p.name, p.source, expr, {}⟩
  | .error e => .error (.inRule p.name e)

variable {p : Passage}

theorem toRule_eq_ok_iff {rule : Rule} : p.toRule = .ok rule ↔
    ∃ expr, Expr.parse {} p.source = .ok expr ∧ rule = ⟨p.name, p.source, expr, {}⟩ := by
  unfold toRule
  cases Expr.parse {} p.source <;> simp [eq_comm]

theorem toRule_eq_error_iff {err : RuleError} : p.toRule = .error err ↔
    ∃ e, Expr.parse {} p.source = .error e ∧ err = .inRule p.name e := by
  unfold toRule
  cases Expr.parse {} p.source <;> simp [eq_comm]

end Passage

/-! ### Sections of a document -/

/-- The lines of a section are trimmed. -/
theorem trimChars_of_mem_section (h : counted lines = sections.flatten) :
    ∀ part ∈ sections, ∀ line ∈ part, Text.trimChars line = line := by
  intro part hpart line hline
  have hcounted : line ∈ counted lines := by
    rw [h]
    exact List.mem_flatten_of_mem hpart hline
  obtain ⟨raw, -, rfl⟩ := List.mem_map.1 (List.mem_of_mem_filter hcounted)
  rw [Text.trimChars_eq raw, Text.trimChars_rdropWhile, Text.trimChars_dropWhile, Text.trimChars_eq]

/-- **Lines fall into stray ones and sections**, and none is astray behind the first header. -/
theorem exists_stray_and_sections (lines : List (List Char)) : ∃ stray drafts sections,
    lines = stray ++ sections.flatten ∧ (∀ line ∈ stray, header? line = none) ∧
      List.Forall₂ Section drafts sections := by
  induction lines with
  | nil => exact ⟨[], [], [], rfl, nofun, .nil⟩
  | cons line lines ih =>
    obtain ⟨stray, drafts, sections, rfl, hstray, hsections⟩ := ih
    cases hheader : header? line with
    | none =>
      exact ⟨line :: stray, drafts, sections, rfl, List.forall_mem_cons.2 ⟨hheader, hstray⟩,
        hsections⟩
    | some header =>
      -- a header takes the stray lines behind it
      exact ⟨[], ⟨header.1, header.2 :: stray⟩ :: drafts, (line :: stray) :: sections, rfl, nofun,
        .cons (.mk hheader hstray) hsections⟩

/-- Where the lines of a section are trimmed, its draft has the text that the section gives. -/
theorem Draft.source_eq_joined (name : String) (rest : List Char) {more : List (List Char)}
    (htrim : ∀ line ∈ more, Text.trimChars line = line) :
    source ⟨name, rest :: more⟩ = joined (Text.trimChars rest :: more) := by
  rw [source, List.map_cons, List.map_congr_left htrim, List.map_id']
  rfl

/-- The name of a section is not blank, so nothing can be wrong with its draft but the text. -/
theorem Section.toRule_eq {draft : Draft} (h : Section draft lines) :
    draft.toRule = Passage.toRule ⟨draft.name, draft.source⟩ := by
  obtain ⟨hheader, -⟩ := h
  obtain ⟨front, hfront, -⟩ := header?_eq_some_iff.1 hheader
  rw [Draft.toRule, Rule.ofSource, if_neg hfront.not_isBlank, Passage.toRule]
  dsimp only
  cases Expr.parse {} (Draft.source _) <;> rfl

/-- A section gives one passage, the one of its draft. -/
theorem gives_iff {p : Passage} (htrim : ∀ line ∈ lines, Text.trimChars line = line) :
    Gives lines p ↔ ∃ draft : Draft, Section draft lines ∧ p = ⟨draft.name, draft.source⟩ := by
  constructor
  · rintro ⟨hheader, hmore⟩
    refine ⟨_, .mk hheader hmore, ?_⟩
    rw [Draft.source_eq_joined _ _ (List.forall_mem_cons.1 htrim).2]
  · rintro ⟨_, ⟨hheader, hmore⟩, rfl⟩
    rw [Draft.source_eq_joined _ _ (List.forall_mem_cons.1 htrim).2]
    exact .mk hheader hmore

/-- Sections that give passages have drafts that make the same rules. -/
theorem exists_drafts (h : List.Forall₂ Gives sections passages)
    (htrim : ∀ part ∈ sections, ∀ line ∈ part, Text.trimChars line = line) :
    ∃ drafts, List.Forall₂ Section drafts sections ∧ (drafts = [] ↔ passages = []) ∧
      drafts.mapM Draft.toRule = passages.mapM Passage.toRule := by
  induction h with
  | nil => exact ⟨[], .nil, iff_of_true rfl rfl, rfl⟩
  | @cons lines p sections passages hp _ ih =>
    obtain ⟨hlines, hsections⟩ := List.forall_mem_cons.1 htrim
    obtain ⟨draft, hdraft, rfl⟩ := (gives_iff hlines).1 hp
    obtain ⟨drafts, hdrafts, -, hrules⟩ := ih hsections
    refine ⟨draft :: drafts, .cons hdraft hdrafts, by simp, ?_⟩
    rw [List.mapM_cons, List.mapM_cons, hdraft.toRule_eq, hrules]

/-- **A document is read passage by passage**, and refused if it has none. -/
theorem parse_of_divides (h : Divides (splitLines document.toList) passages) :
    parse document = if passages = [] then .error .noRules else passages.mapM Passage.toRule := by
  obtain ⟨sections, hlines, hgives⟩ := h
  obtain ⟨drafts, hdrafts, hnil, hrules⟩ := exists_drafts hgives (trimChars_of_mem_section hlines)
  rw [parse_of_sections hlines hdrafts, hrules]
  simp only [hnil]

/-- Lines that start with a header fall into sections. -/
theorem exists_divides {rest : List (List Char)} (h : counted lines = line :: rest)
    (hheader : (header? line).isSome = true) :
    ∃ passages, passages ≠ [] ∧ Divides lines passages := by
  obtain ⟨stray, drafts, sections, hsplit, hstray, hsections⟩ :=
    exists_stray_and_sections (counted lines)
  have hnone : stray = [] := by
    cases stray with
    | nil => rfl
    | cons other stray =>
      rw [h] at hsplit
      obtain ⟨rfl, -⟩ := List.cons.inj hsplit
      rw [hstray line List.mem_cons_self] at hheader
      cases hheader
  rw [hnone, List.nil_append] at hsplit
  have htrim := trimChars_of_mem_section hsplit
  refine ⟨drafts.map fun draft => ⟨draft.name, draft.source⟩, ?_, sections, hsplit, ?_⟩
  · rintro hnil
    rw [List.map_eq_nil_iff] at hnil
    rw [hnil, List.forall₂_nil_left_iff] at hsections
    rw [h, hsections] at hsplit
    cases hsplit
  · rw [List.forall₂_map_right_iff]
    refine ((List.forall₂_and_left _ _).2 ⟨htrim, hsections.flip⟩).imp ?_
    exact fun part draft hdraft => (gives_iff hdraft.1).2 ⟨draft, hdraft.2, rfl⟩

/-! ### Lines before the first header -/

/-- The first line that counts, with those before it. -/
theorem exists_of_counted_eq_cons {rest : List (List Char)} (h : counted lines = line :: rest) :
    ∃ before raw after, lines = before ++ raw :: after ∧ counted before = [] ∧
      Text.trimChars raw = line ∧ counts line = true := by
  obtain ⟨front, back, hmap, hfront, hcounts, -⟩ := List.filter_eq_cons_iff.1 h
  obtain ⟨before, others, rfl, rfl, hothers⟩ := List.map_eq_append_iff.1 hmap
  obtain ⟨raw, after, rfl, rfl, -⟩ := List.map_eq_cons_iff.1 hothers
  exact ⟨before, raw, after, rfl, List.filter_eq_nil_iff.2 hfront, rfl, hcounts⟩

/-- The first line that counts has its number in the whole document. -/
theorem numberedLines_eq_cons (h : splitLines document.toList = before ++ line :: after)
    (hbefore : counted before = []) (hcounts : counts (Text.trimChars line) = true) :
    ∃ rest, numberedLines document = (before.length + 1, Text.trimChars line) :: rest := by
  have hnone : ((List.range' 1 before.length).zip (before.map Text.trimChars)).filter
      (fun line => counts line.2) = [] := by
    refine List.filter_eq_nil_iff.2 fun numbered hmem => ?_
    exact List.filter_eq_nil_iff.1 hbefore _ (List.of_mem_zip hmem).2
  -- the numbers are split where the lines are
  have hnumbers : List.range' 1 (before.length + (after.length + 1)) =
      List.range' 1 before.length ++
        (before.length + 1) :: List.range' (before.length + 2) after.length := by
    rw [← List.range'_append_1, List.range'_succ, Nat.add_comm 1 before.length]
  refine ⟨((List.range' (before.length + 2) after.length).zip (after.map Text.trimChars)).filter
    fun line => counts line.2, ?_⟩
  rw [numberedLines, h]
  simp only [List.map_append, List.map_cons, List.length_append, List.length_map, List.length_cons,
    hnumbers]
  rw [List.zip_append (by simp), List.filter_append, hnone, List.nil_append, List.zip_cons_cons]
  exact List.filter_cons_of_pos hcounts

theorem parse_of_stray (h : splitLines document.toList = before ++ line :: after)
    (hbefore : counted before = []) (hcounts : counts (Text.trimChars line) = true)
    (hheader : header? (Text.trimChars line) = none) :
    parse document = .error (.missingHeader (before.length + 1)) := by
  obtain ⟨rest, hnumbered⟩ := numberedLines_eq_cons h hbefore hcounts
  rw [parse, hnumbered]
  simp only [segment, List.foldr_cons, hheader]

/-! ### The whole book -/

/-- What the lines of a document are read as. -/
inductive ReadsAs (lines : List (List Char)) : Except RuleError (List Rule) → Prop
  /-- No line counts. -/
  | noRules (hcounted : counted lines = []) : ReadsAs lines (.error .noRules)
  /-- The first line that counts is no header.  The fault names the line by its number. -/
  | missingHeader {before after : List (List Char)} {line : List Char}
      (hlines : lines = before ++ line :: after) (hbefore : counted before = [])
      (hcounts : counts (Text.trimChars line) = true)
      (hheader : header? (Text.trimChars line) = none) :
    ReadsAs lines (.error (.missingHeader (before.length + 1)))
  /-- The lines that count fall into sections, and all their texts are expressions. -/
  | rules {passages : List Passage} {rules : List Rule} (hne : passages ≠ [])
      (hdivides : Divides lines passages)
      (hrules : List.Forall₂ (fun p rule => ∃ expr, Expr.parse {} p.source = .ok expr ∧
        rule = ⟨p.name, p.source, expr, {}⟩) passages rules) :
    ReadsAs lines (.ok rules)
  /-- The lines that count fall into sections, and the text of one is the first that is none. -/
  | inRule {before after : List Passage} {p : Passage} {e : ParseError}
      (hdivides : Divides lines (before ++ p :: after))
      (hbefore : ∀ q ∈ before, ∃ expr, Expr.parse {} q.source = .ok expr)
      (hfault : Expr.parse {} p.source = .error e) :
    ReadsAs lines (.error (.inRule p.name e))

theorem parse_of_readsAs {result : Except RuleError (List Rule)}
    (h : ReadsAs (splitLines document.toList) result) : parse document = result := by
  cases h with
  | noRules hcounted => exact parse_of_divides ⟨[], hcounted, .nil⟩
  | missingHeader hlines hbefore hcounts hheader =>
    exact parse_of_stray hlines hbefore hcounts hheader
  | rules hne hdivides hrules =>
    rw [parse_of_divides hdivides, if_neg hne, Except.mapM_eq_ok_iff]
    exact hrules.imp fun p rule => Passage.toRule_eq_ok_iff.2
  | inRule hdivides hbefore hfault =>
    rw [parse_of_divides hdivides, if_neg (by simp), Except.mapM_eq_error_iff]
    refine ⟨_, _, _, rfl, fun q hq => ?_, Passage.toRule_eq_error_iff.2 ⟨_, hfault, rfl⟩⟩
    obtain ⟨expr, hexpr⟩ := hbefore q hq
    exact ⟨_, Passage.toRule_eq_ok_iff.2 ⟨expr, hexpr, rfl⟩⟩

/-- The lines of every document are read as something. -/
theorem exists_readsAs (lines : List (List Char)) : ∃ result, ReadsAs lines result := by
  cases hcounted : counted lines with
  | nil => exact ⟨_, .noRules hcounted⟩
  | cons line rest =>
    cases hheader : header? line with
    | none =>
      obtain ⟨before, raw, after, hlines, hbefore, rfl, hcounts⟩ :=
        exists_of_counted_eq_cons hcounted
      exact ⟨_, .missingHeader hlines hbefore hcounts hheader⟩
    | some header =>
      obtain ⟨passages, hne, hdivides⟩ := exists_divides hcounted (by rw [hheader]; rfl)
      cases hrules : passages.mapM Passage.toRule with
      | ok rules =>
        rw [Except.mapM_eq_ok_iff] at hrules
        exact ⟨_, .rules hne hdivides (hrules.imp fun p rule => Passage.toRule_eq_ok_iff.1)⟩
      | error err =>
        obtain ⟨before, p, after, rfl, hbefore, hp⟩ := Except.mapM_eq_error_iff.1 hrules
        obtain ⟨e, hfault, rfl⟩ := Passage.toRule_eq_error_iff.1 hp
        refine ⟨_, .inRule hdivides (fun q hq => ?_) hfault⟩
        obtain ⟨rule, hrule⟩ := hbefore q hq
        obtain ⟨expr, hexpr, -⟩ := Passage.toRule_eq_ok_iff.1 hrule
        exact ⟨expr, hexpr⟩

/-- **What a document is read as.**  Its lines are its pieces between line feeds, and those count
that are neither blank nor a comment when they are trimmed.  If there are none, there are no rules;
if the first of them is no header, its number is reported, whatever comes later; and otherwise they
fall into sections, each a header and the lines up to the next one.  Either every section gives a
rule, in order, or the first one whose text is no expression is reported, with its name and the
fault in its text. -/
theorem parse_eq_iff_readsAs (document : String) (result : Except RuleError (List Rule)) :
    parse document = result ↔ ReadsAs (document.toList.splitOn '\n') result := by
  rw [← splitLines_eq_splitOn]
  refine ⟨fun h => ?_, parse_of_readsAs⟩
  obtain ⟨result', hresult⟩ := exists_readsAs (splitLines document.toList)
  rwa [← h, parse_of_readsAs hresult]

/-- A line before the first header is reported, though the rule behind it is at fault as well. -/
example : parse "# book\n\n  age > 30\nrule a: age >" = .error (.missingHeader 3) := by
  decide +kernel

end RuleBook

end Eligibility
