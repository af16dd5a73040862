import Eligibility.Proofs.RuleBook.Body

/-!
# The layout of a rule book

A rule may be laid out in many ways: its header may be indented, its text may go over several lines
that are broken and indented wherever layout can stand, and blank lines and comments may come
between any two lines.  None of this makes a difference to the rule.

## Main definitions

* `RuleBook.Entry` : a name and a text that says an expression and can be laid out.
* `RuleBook.LaidOut entry text` : a header of that name, and the text with other layout.
* `RuleBook.Filler line`, `RuleBook.Interspersed lines doc` : blank lines and comments, and lines
  with these between them.

## Main results

* `RuleBook.parse_of_laidOut` : **a rule book gives one rule for each entry, in order, however the
  entries are laid out**, and no further line of an entry is taken for a header or a comment.
* `RuleBook.not_parse_of_no_entries` : a book without entries is refused.
-/

namespace Eligibility

namespace RuleBook

open Token (Denotes SpacedOut)

variable {body text : List Char} {more lines doc texts : List (List Char)}

/-! ### Layouts -/

/-- A rule that is to be laid out: a name, and a text that says an expression and in which no text
literal goes over several lines. -/
structure Entry where
  /-- The name. -/
  name : String
  /-- The text. -/
  source : String
  /-- What the text says. -/
  expr : Expr
  parse_eq : Expr.parse {} source = .ok expr
  onOneLine : ∀ ts, Token.scanText source = .ok ts → ∀ t ∈ ts, t.token.OnOneLine

/-- A rule with the name and the expression of an entry, and the default limits. -/
structure Entry.Gives (entry : Entry) (rule : Rule) : Prop where
  name_eq : rule.name = entry.name
  expr_eq : rule.expr = entry.expr
  limits_eq : rule.limits = {}

/-- A header with the name of an entry, behind it the text with more or other layout between its
lexemes. -/
inductive LaidOut (entry : Entry) : List Char → Prop
  | mk {indent front body : List Char} (hindent : ∀ c ∈ indent, Text.isBlank c = true ∧ c ≠ '\n')
      (hfront : Heads entry.name.toList front) (hbody : SpacedOut entry.source.toList body) :
    LaidOut entry (indent ++ (front ++ ':' :: body))

/-- A line that belongs to no rule. -/
inductive Filler : List Char → Prop
  /-- A blank line. -/
  | blank {line : List Char} (hline : ∀ c ∈ line, Text.isBlank c = true ∧ c ≠ '\n') : Filler line
  /-- A comment. -/
  | comment {indent text : List Char} (hindent : ∀ c ∈ indent, Text.isBlank c = true ∧ c ≠ '\n')
      (htext : '\n' ∉ text) : Filler (indent ++ '#' :: text)

/-- The lines of a document, which are the given lines and any others that belong to no rule. -/
inductive Interspersed : List (List Char) → List (List Char) → Prop
  /-- No lines. -/
  | nil : Interspersed [] []
  /-- A line that belongs to no rule. -/
  | filler {line : List Char} {lines doc : List (List Char)} (hline : Filler line)
      (h : Interspersed lines doc) : Interspersed lines (line :: doc)
  /-- A given line. -/
  | line {line : List Char} {lines doc : List (List Char)} (h : Interspersed lines doc) :
    Interspersed (line :: lines) (line :: doc)

/-! ### Lines that belong to no rule -/

theorem Filler.counted_eq {line : List Char} (h : Filler line) : counted [line] = [] := by
  have hcounts : counts (Text.trimChars line) = false := by
    cases h with
    | blank hline =>
      rw [(Text.trimChars_eq_nil_iff line).2 fun c hc => (hline c hc).1]
      rfl
    | @comment indent text hindent htext =>
      have hmark : Text.trimChars ([] ++ '#' :: text) = [] ++ '#' :: text.rdropWhile Text.isBlank :=
        Text.trimChars_append_cons (by simp; rfl) rfl text
      rw [Text.trimChars_append_of_blank fun c hc => (hindent c hc).1]
      rw [List.nil_append] at hmark
      rw [hmark]
      rfl
  simp [counted, hcounts]

theorem Filler.feed_notMem {line : List Char} (h : Filler line) : '\n' ∉ line := by
  cases h with
  | blank hline => exact fun hmem => (hline _ hmem).2 rfl
  | @comment indent text hindent htext =>
    have hblank : '\n' ∉ indent := fun hmem => (hindent _ hmem).2 rfl
    simp [hblank, htext]

/-- **Lines that belong to no rule make no difference.** -/
theorem Interspersed.counted_eq (h : Interspersed lines doc) : counted doc = counted lines := by
  induction h with
  | nil => rfl
  | @filler line lines doc hline _ ih =>
    rw [counted_cons, hline.counted_eq, List.nil_append, ih]
  | @line line lines doc _ ih => rw [counted_cons line doc, ih, ← counted_cons]

theorem Interspersed.feed_notMem (h : Interspersed lines doc)
    (hlines : ∀ line ∈ lines, '\n' ∉ line) : ∀ line ∈ doc, '\n' ∉ line := by
  induction h with
  | nil => exact hlines
  | filler hline _ ih => exact List.forall_mem_cons.2 ⟨hline.feed_notMem, ih hlines⟩
  | line _ ih =>
    rw [List.forall_mem_cons] at hlines ⊢
    exact ⟨hlines.1, ih hlines.2⟩

/-! ### One entry -/

theorem Entry.exists_denotes (entry : Entry) :
    ∃ ts, Denotes entry.source.toList ts ∧ ∀ t ∈ ts, t.OnOneLine := by
  obtain ⟨ts, n, hscan, -⟩ := Expr.parse_eq_ok_iff.1 entry.parse_eq
  refine ⟨ts.map Located.token, (Token.denotes_iff_scan 0).2 ⟨ts, hscan, rfl⟩, ?_⟩
  rw [List.forall_mem_map]
  exact entry.onOneLine ts hscan

/-- The lines of an entry that is laid out: its header and a first piece of text behind it, and
further pieces of text, which together have the tokens of the entry. -/
theorem LaidOut.exists_lines {entry : Entry} (h : LaidOut entry text) :
    ∃ indent front first more tss,
      splitLines text = (indent ++ (front ++ ':' :: first)) :: more ∧
      (∀ c ∈ indent, Text.isBlank c = true) ∧ Heads entry.name.toList front ∧
      List.Forall₂ Denotes (first :: more) tss ∧ Denotes entry.source.toList tss.flatten := by
  obtain ⟨hindent, hfront, hbody⟩ := h
  rename_i indent front body
  obtain ⟨ts, hts, hline⟩ := entry.exists_denotes
  obtain ⟨us, hsource, hus⟩ := hbody.exists_denotes
  obtain rfl := hsource.unique hts
  obtain ⟨tss, hall, rfl⟩ := exists_denotes_splitLines hus hline
  obtain ⟨first, more, hsplit⟩ := exists_splitLines_eq_cons body
  rw [hsplit] at hall
  have hfeed : '\n' ∉ indent ++ (front ++ [':']) := by
    have hblank : '\n' ∉ indent := fun hmem => (hindent _ hmem).2 rfl
    have hheads : '\n' ∉ front := fun hmem => by
      rcases hfront.mem_class _ hmem with hclass | hclass <;> cases hclass
    simp [hblank, hheads]
  have hlines := splitLines_append hfeed hsplit
  simp only [List.append_assoc, List.singleton_append] at hlines
  exact ⟨indent, front, first, more, tss, hlines, fun c hc => (hindent c hc).1, hfront, hall, hts⟩

/-- An entry that is laid out makes a section, from whose draft its name and its expression are
read. -/
theorem LaidOut.exists_section {entry : Entry} (h : LaidOut entry text) :
    ∃ draft rule, Section draft (counted (splitLines text)) ∧
      Rule.ofSource draft.name draft.source {} = .ok rule ∧ entry.Gives rule := by
  obtain ⟨indent, front, first, more, tss, hlines, hindent, hfront, hall, hsource⟩ := h.exists_lines
  obtain ⟨ts, tss, hfirst, hmore, rfl⟩ := List.forall₂_cons_left_iff.1 hall
  obtain ⟨uss, hcounted, hflat⟩ := exists_denotes_counted hmore
  let draft : Draft := ⟨entry.name, first.rdropWhile Text.isBlank :: counted more⟩
  let rule : Rule := ⟨entry.name, draft.source, entry.expr, {}⟩
  refine ⟨draft, rule, ?_, ?_, ⟨rfl, rfl, rfl⟩⟩
  · have hheader := hfront.header?_eq (first.rdropWhile Text.isBlank)
    rw [String.ofList_toList] at hheader
    have hsection : counted (splitLines text) =
        (front ++ ':' :: first.rdropWhile Text.isBlank) :: counted more := by
      rw [hlines, counted_cons, hfront.counted_eq hindent, List.singleton_append]
    rw [hsection]
    refine .mk hheader fun line hline => ?_
    obtain ⟨us, -, hus⟩ := exists_of_mem_forall₂ hcounted.flip hline
    exact header?_eq_none_of_denotes hus
  · have hpieces : List.Forall₂ Denotes draft.pieces (ts :: uss) := .cons hfirst.rdropWhile hcounted
    have hdraft := Draft.denotes_source hpieces
    rw [List.flatten_cons, hflat, ← List.flatten_cons] at hdraft
    have hparse := (Expr.parse_eq_ok_iff_of_denotes hsource hdraft).1 entry.parse_eq
    exact Rule.ofSource_eq_ok_iff.2 ⟨hfront.not_isBlank, hparse, rfl, rfl, rfl⟩

/-- Behind its header no line of an entry is taken for a header or for a comment. -/
theorem LaidOut.tail_lines {entry : Entry} (h : LaidOut entry text) :
    ∀ line ∈ (splitLines text).tail,
      header? (Text.trimChars line) = none ∧ (Text.trimChars line).head? ≠ some '#' := by
  obtain ⟨indent, front, first, more, tss, hlines, -, -, hall, -⟩ := h.exists_lines
  intro line hline
  rw [hlines, List.tail_cons] at hline
  obtain ⟨ts, -, hts⟩ := exists_of_mem_forall₂ hall.flip (List.mem_cons_of_mem first hline)
  have htrim := Denotes.trimChars hts
  exact ⟨header?_eq_none_of_denotes htrim, fun hhead => (htrim.head '#' hhead).2 rfl⟩

/-! ### The whole book -/

theorem exists_sections {entries : List Entry} (h : List.Forall₂ LaidOut entries texts) :
    ∃ drafts rules, List.Forall₂ Section drafts (texts.map fun text => counted (splitLines text)) ∧
      List.Forall₂ (fun d rule => Rule.ofSource d.name d.source {} = .ok rule) drafts rules ∧
      List.Forall₂ Entry.Gives entries rules := by
  induction h with
  | nil => exact ⟨[], [], .nil, .nil, .nil⟩
  | @cons entry text entries texts hentry _ ih =>
    obtain ⟨drafts, rules, hsections, hmade, hread⟩ := ih
    obtain ⟨draft, rule, hsection, hrule, hsame⟩ := hentry.exists_section
    exact ⟨draft :: drafts, rule :: rules, .cons hsection hsections, .cons hrule hmade,
      .cons hsame hread⟩

/-- The lines that count are those of the entries, whatever stands between them. -/
theorem counted_splitLines_of_interspersed (h : Interspersed (texts.flatMap splitLines) doc) :
    counted (splitLines (List.intercalate ['\n'] doc)) =
      (texts.map fun text => counted (splitLines text)).flatten := by
  have hfeed : ∀ line ∈ texts.flatMap splitLines, '\n' ∉ line := by
    intro line hline
    obtain ⟨text, -, hline⟩ := List.mem_flatMap.1 hline
    exact feed_notMem_of_splitLines text line hline
  rw [counted_splitLines_intercalate (h.feed_notMem hfeed), h.counted_eq]
  clear h hfeed
  induction texts with
  | nil => rfl
  | cons text texts ih =>
    rw [List.flatMap_cons, counted_append, ih, List.map_cons, List.flatten_cons]

/-- **However the entries of a book are laid out, it gives one rule for each of them, in order**,
with the name and the expression of the entry; only a book without entries is refused.  Behind its
header no line of an entry is taken for a header or for a comment. -/
theorem parse_of_laidOut {entries : List Entry} (htexts : List.Forall₂ LaidOut entries texts)
    (hdoc : Interspersed (texts.flatMap splitLines) doc) :
    (entries = [] → parse (String.ofList (List.intercalate ['\n'] doc)) = .error .noRules) ∧
    (entries ≠ [] → ∃ rules, parse (String.ofList (List.intercalate ['\n'] doc)) = .ok rules ∧
      List.Forall₂ Entry.Gives entries rules) ∧
    ∀ text ∈ texts, ∀ line ∈ (splitLines text).tail,
      header? (Text.trimChars line) = none ∧ (Text.trimChars line).head? ≠ some '#' := by
  obtain ⟨drafts, rules, hsections, hmade, hgives⟩ := exists_sections htexts
  have hlines := counted_splitLines_of_interspersed hdoc
  rw [← String.toList_ofList (l := List.intercalate ['\n'] doc)] at hlines
  have hnil : drafts = [] ↔ entries = [] := by
    rw [← List.length_eq_zero_iff, ← List.length_eq_zero_iff, hmade.length_eq, hgives.length_eq]
  refine ⟨fun hentries => ?_, fun hentries => ⟨rules, ?_, hgives⟩, ?_⟩
  · rw [parse_of_sections hlines hsections, if_pos (hnil.2 hentries)]
  · exact parse_eq_ok_of_sections hlines hsections (mt hnil.1 hentries) hmade
  · intro text htext
    obtain ⟨entry, -, hentry⟩ := exists_of_mem_forall₂ htexts htext
    exact hentry.tail_lines

/-- A rule on a field that is called `rule`, over three lines with a comment and a blank line
between them, the last one with a text that looks like a comment. -/
theorem parse_of_laidOut_over_lines : ∃ rule,
    parse "#\nrule a:\n\n rule\r\n\t#!\n==\t'#' " = .ok [rule] ∧
      rule.name = "a" ∧ rule.expr = .compare "rule" .eq (.text "#") ∧
      header? [' ', 'r', 'u', 'l', 'e', '\r'] = none := by
  have hscan : ∀ ts, Token.scanText "rule=='#'" = .ok ts → ∀ t ∈ ts, t.token.OnOneLine := by
    have hquoted : Token.scanText "rule=='#'" =
        .ok [⟨.ident "rule", 0⟩, ⟨.op .eq, 4⟩, ⟨.text "#", 6⟩] := by
      decide +kernel
    intro ts hts
    obtain rfl := Except.ok.inj (hquoted.symm.trans hts)
    simp [Token.OnOneLine]
  let entry : Entry := ⟨"a", "rule=='#'", .compare "rule" .eq (.text "#"), by decide +kernel, hscan⟩
  have hname : "a".toList = ['a'] := by decide
  have hsource : "rule=='#'".toList = ['r', 'u', 'l', 'e', '=', '=', '\'', '#', '\''] := by decide
  have hfront : Heads "a".toList ['r', 'u', 'l', 'e', ' ', 'a'] := by
    rw [hname]
    exact @Heads.mk [' '] ['a'] [] (by decide) rfl (by decide) rfl rfl
  have hquoted : SpacedOut ['\'', '#', '\''] ['\'', '#', '\'', ' '] :=
    .lexeme (@Lexeme.Stands.quoted '\'' ['#'] [] (.inl rfl) (by decide)) (.insert rfl .nil)
  have hoperator : SpacedOut ['=', '=', '\'', '#', '\''] ['=', '=', '\t', '\'', '#', '\'', ' '] :=
    .lexeme (@Lexeme.Stands.operator .eq ['\'', '#', '\''] (by simp; rfl)) (.insert rfl hquoted)
  have hbody : SpacedOut "rule=='#'".toList
      ['\n', ' ', 'r', 'u', 'l', 'e', '\r', '\n', '=', '=', '\t', '\'', '#', '\'', ' '] := by
    rw [hsource]
    have hword : Lexeme.Stands ⟨['r', 'u', 'l', 'e'], .ofWord ['r', 'u', 'l', 'e']⟩
        ['=', '=', '\'', '#', '\''] :=
      .word rfl rfl (by simp; rfl)
    exact .insert rfl (.insert rfl (.lexeme hword
      (.insert (c := '\r') rfl (.insert (c := '\n') rfl hoperator))))
  have hlaid : LaidOut entry ([] ++ (['r', 'u', 'l', 'e', ' ', 'a'] ++ ':' ::
      ['\n', ' ', 'r', 'u', 'l', 'e', '\r', '\n', '=', '=', '\t', '\'', '#', '\'', ' '])) :=
    .mk (by simp) hfront hbody
  -- the three lines of the rule, with a comment, a blank line and one more comment between them
  have hdoc : Interspersed
      [['r', 'u', 'l', 'e', ' ', 'a', ':'], [' ', 'r', 'u', 'l', 'e', '\r'],
        ['=', '=', '\t', '\'', '#', '\'', ' ']]
      [['#'], ['r', 'u', 'l', 'e', ' ', 'a', ':'], [], [' ', 'r', 'u', 'l', 'e', '\r'],
        ['\t', '#', '!'], ['=', '=', '\t', '\'', '#', '\'', ' ']] :=
    .filler (@Filler.comment [] [] (by simp) (by simp)) (.line (.filler (.blank (by simp))
      (.line (.filler (@Filler.comment ['\t'] ['!'] (by simp; rfl) (by simp)) (.line .nil)))))
  have hbook : String.ofList (List.intercalate ['\n']
      [['#'], ['r', 'u', 'l', 'e', ' ', 'a', ':'], [], [' ', 'r', 'u', 'l', 'e', '\r'],
        ['\t', '#', '!'], ['=', '=', '\t', '\'', '#', '\'', ' ']]) =
      "#\nrule a:\n\n rule\r\n\t#!\n==\t'#' " := by
    decide
  obtain ⟨-, hparse, hlines⟩ := parse_of_laidOut (.cons hlaid .nil) hdoc
  obtain ⟨rules, hrules, hgives⟩ := hparse (by simp)
  obtain ⟨rule, rest, hrule, hrest, rfl⟩ := List.forall₂_cons_left_iff.1 hgives
  obtain rfl := List.forall₂_nil_left_iff.1 hrest
  rw [hbook] at hrules
  exact ⟨rule, hrules, hrule.name_eq, hrule.expr_eq,
    (hlines _ List.mem_cons_self _ (List.mem_cons_self)).1⟩

/-- A book needs an entry: a document without headers is refused. -/
theorem not_parse_of_no_entries : parse "" = .error .noRules ∧
    ¬∀ (entries : List Entry) (texts doc : List (List Char)),
      List.Forall₂ LaidOut entries texts → Interspersed (texts.flatMap splitLines) doc →
        ∃ rules, parse (String.ofList (List.intercalate ['\n'] doc)) = .ok rules ∧
          List.Forall₂ Entry.Gives entries rules := by
  have hempty : parse "" = .error .noRules := by decide
  refine ⟨hempty, fun hall => ?_⟩
  obtain ⟨rules, hparse, -⟩ := hall [] [] [] .nil .nil
  rw [List.intercalate_nil, String.ofList_nil, hempty] at hparse
  cases hparse

end RuleBook

end Eligibility
