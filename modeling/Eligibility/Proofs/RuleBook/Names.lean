import Eligibility.Proofs.Rule.Invariant
import Eligibility.Proofs.RuleBook.Sections

/-!
# The names in a rule book

The name in a header and the words of a text are runs of the same characters.  In a text such a run
is a word only where a letter or an underscore stands, since a digit starts a numeral; but in a
header nothing looks at the first character, and the name may start with a digit.  So headers have
the names that the language has for fields, and those that start with a digit besides.

## Main definitions

* `Token.IsIdentifier name` : a letter or an underscore, and then letters, digits and underscores.
* `Token.StartsWithDigit name` : the first character is a digit.
* `RuleBook.HeaderWith kind line` : the line is a header with a name of this kind.
* `RuleBook.headerNames lines` : the names in the headers among the lines.

## Main results

* `Token.isIdentifier_iff_cut` : **identifiers are the words that are cut off a text.**
* `RuleBook.map_name_of_parse` : the rules of a document have the names in its headers, in order.
* `RuleBook.identifiers_iff_no_leading_digit` : **which lines and which documents keep to
  identifiers.**
* `RuleBook.parse_of_leading_digit` : a document that does not.
-/

namespace Eligibility

/-! ### Identifiers -/

namespace Token

/-- An identifier of the language: a letter or an underscore, and then letters, digits and
underscores. -/
def IsIdentifier : List Char → Prop
  | [] => False
  | c :: cs => isWordStart c = true ∧ cs.all isWordChar = true

/-- A name whose first character is a digit. -/
def StartsWithDigit : List Char → Prop
  | [] => False
  | c :: _ => c.isDigit = true

instance : DecidablePred IsIdentifier
  | [] => inferInstanceAs (Decidable False)
  | c :: cs => inferInstanceAs (Decidable (isWordStart c = true ∧ cs.all isWordChar = true))

variable {c : Char} {cs name : List Char}

theorem isWordChar_eq (c : Char) : isWordChar c = (isWordStart c || c.isDigit) := by
  rw [isWordChar, isWordStart, Char.isAlphanum, Bool.or_assoc, Bool.or_assoc,
    Bool.or_comm c.isDigit]

/-- A run of the characters of words is an identifier, or else it starts with a digit. -/
theorem isIdentifier_iff (hne : name ≠ []) (hword : name.all isWordChar = true) :
    IsIdentifier name ↔ ¬StartsWithDigit name := by
  obtain ⟨c, cs, rfl⟩ := List.exists_cons_of_ne_nil hne
  rw [List.all_cons, Bool.and_eq_true, isWordChar_eq, Bool.or_eq_true] at hword
  constructor
  · rintro ⟨hstart, -⟩ hdigit
    rw [StartsWithDigit, isDigit_of_isWordStart hstart] at hdigit
    cases hdigit
  · intro hdigit
    exact ⟨hword.1.resolve_right hdigit, hword.2⟩

/-- **Identifiers are the words that are cut off a text** as a whole. -/
theorem isIdentifier_iff_cut :
    IsIdentifier (c :: cs) ↔ Lexeme.cut c cs = .ok (⟨c :: cs, ofWord (c :: cs)⟩, []) := by
  constructor
  · rintro ⟨hc, hcs⟩
    have hstands : Lexeme.Stands ⟨c :: cs, ofWord (c :: cs)⟩ [] := .word hc hcs nofun
    exact Lexeme.cut_eq_ok_iff.2 ⟨List.append_nil _, hstands⟩
  · intro h
    obtain ⟨-, hstands⟩ := Lexeme.cut_eq_ok_iff.1 h
    generalize hlexeme : (⟨c :: cs, ofWord (c :: cs)⟩ : Lexeme) = l at hstands
    obtain ⟨htext, htoken⟩ := Lexeme.mk.inj hlexeme
    cases hstands with
    | word hc hcs _ =>
      obtain ⟨rfl, rfl⟩ := List.cons.inj htext
      exact ⟨hc, hcs⟩
    | lparen | rparen | quoted | number | operator =>
      -- a word denotes a connective or a field name, and none of these
      rcases ofWord_cases (c :: cs) with hword | hword | hword | hword <;>
        cases hword.symm.trans htoken

end Token

namespace RuleBook

variable {kind : List Char → Prop} {line : List Char} {lines : List (List Char)}
  {name document : String} {body : List Char} {rules : List Rule}

/-! ### Headers -/

/-- The line is a header with a name of this kind: the word `rule`, spaces or tabs, the name, maybe
spaces or tabs, and a colon. -/
def HeaderWith (kind : List Char → Prop) (line : List Char) : Prop :=
  ∃ name front body, kind name ∧ Heads name front ∧ line = front ++ ':' :: body

theorem headerWith_iff :
    HeaderWith kind line ↔ ∃ name body, header? line = some (name, body) ∧ kind name.toList := by
  constructor
  · rintro ⟨name, front, body, hkind, hfront, rfl⟩
    refine ⟨String.ofList name, body, hfront.header?_eq body, ?_⟩
    rwa [String.toList_ofList]
  · rintro ⟨name, body, hheader, hkind⟩
    obtain ⟨front, hfront, hline⟩ := header?_eq_some_iff.1 hheader
    exact ⟨name.toList, front, body, hkind, hfront, hline⟩

/-- A header has one name only. -/
theorem headerWith_iff_of_header? (h : header? line = some (name, body)) :
    HeaderWith kind line ↔ kind name.toList := by
  simp [headerWith_iff, h]

/-- The name in a header is a run of the characters of words. -/
theorem run_of_header? (h : header? line = some (name, body)) :
    name.toList ≠ [] ∧ name.toList.all Token.isWordChar = true := by
  obtain ⟨front, hfront, -⟩ := header?_eq_some_iff.1 h
  cases hfront with
  | mk _ _ hname hword _ => exact ⟨hname, hword⟩

/-- A header with an identifier is taken as one, and so is no other line but those with a leading
digit in the name. -/
theorem isSome_header?_iff_iff (line : List Char) :
    ((header? line).isSome = true ↔ HeaderWith Token.IsIdentifier line) ↔
      ¬HeaderWith Token.StartsWithDigit line := by
  cases h : header? line with
  | none => simp [headerWith_iff, h]
  | some header =>
    obtain ⟨hne, hword⟩ := run_of_header? h
    rw [headerWith_iff_of_header? h, headerWith_iff_of_header? h,
      Token.isIdentifier_iff hne hword]
    simp

/-! ### The names of the rules -/

/-- The names in the headers among the lines. -/
def headerNames (lines : List (List Char)) : List String :=
  lines.filterMap fun line => (header? line).map Prod.fst

theorem mem_headerNames_iff :
    name ∈ headerNames lines ↔ ∃ line ∈ lines, ∃ body, header? line = some (name, body) := by
  simp [headerNames]

/-- Each header starts a draft, and nothing else does. -/
theorem map_name_segment (lines : List (Nat × List Char)) :
    (segment lines).2.map Draft.name = headerNames (lines.map Prod.snd) := by
  induction lines with
  | nil => rfl
  | cons line lines ih =>
    simp only [segment, List.foldr_cons, headerNames, List.map_cons, List.filterMap_cons] at ih ⊢
    cases header? line.2 with
    | none => exact ih
    | some header => exact congrArg (header.1 :: ·) ih

/-- A rule has the name of the draft that it is made from. -/
theorem map_name_of_forall₂ {drafts : List Draft}
    (h : List.Forall₂ (fun d rule => Rule.ofSource d.name d.source {} = .ok rule) drafts rules) :
    rules.map Rule.name = drafts.map Draft.name := by
  induction h with
  | nil => rfl
  | cons hrule _ ih =>
    obtain ⟨-, -, hname, -⟩ := Rule.ofSource_eq_ok_iff.1 hrule
    rw [List.map_cons, List.map_cons, hname, ih]

/-- **The rules of a document have the names in its headers**, in order. -/
theorem map_name_of_parse (h : parse document = .ok rules) :
    rules.map Rule.name = headerNames (counted (splitLines document.toList)) := by
  obtain ⟨drafts, hsegment, -, hrules⟩ := exists_segment_of_parse h
  have hnames := map_name_segment (numberedLines document)
  rw [map_snd_numberedLines, hsegment] at hnames
  exact (map_name_of_forall₂ hrules).trans hnames

/-- All names in the headers are identifiers exactly if no header has a name with a leading
digit. -/
theorem forall_isIdentifier_headerNames_iff :
    (∀ name ∈ headerNames lines, Token.IsIdentifier name.toList) ↔
      ∀ line ∈ lines, ¬HeaderWith Token.StartsWithDigit line := by
  constructor
  · intro h line hline hdigit
    obtain ⟨name, body, hheader, hkind⟩ := headerWith_iff.1 hdigit
    have hname := h name (mem_headerNames_iff.2 ⟨line, hline, body, hheader⟩)
    obtain ⟨hne, hword⟩ := run_of_header? hheader
    exact (Token.isIdentifier_iff hne hword).1 hname hkind
  · intro h name hname
    obtain ⟨line, hline, body, hheader⟩ := mem_headerNames_iff.1 hname
    obtain ⟨hne, hword⟩ := run_of_header? hheader
    refine (Token.isIdentifier_iff hne hword).2 fun hkind => h line hline ?_
    exact headerWith_iff.2 ⟨name, body, hheader, hkind⟩

/-! ### Which documents keep to identifiers -/

/-- **Headers have identifiers for names, except where a name starts with a digit.**  A line is a
header exactly if it is one with an identifier, unless it is one with a leading digit in the name.
The rules of a document have the names in the headers, in order; these are runs of letters,
underscores and digits, and they are identifiers exactly if none starts with a digit. -/
theorem identifiers_iff_no_leading_digit (document : String) :
    (∀ line, ((header? line).isSome = true ↔ HeaderWith Token.IsIdentifier line) ↔
      ¬HeaderWith Token.StartsWithDigit line) ∧
    ∀ rules, parse document = .ok rules →
      rules.map Rule.name = headerNames (counted (document.toList.splitOn '\n')) ∧
      (∀ rule ∈ rules, rule.name ≠ "" ∧ rule.name.toList.all Token.isWordChar = true) ∧
      ((∀ rule ∈ rules, Token.IsIdentifier rule.name.toList) ↔
        ∀ line ∈ counted (document.toList.splitOn '\n'),
          ¬HeaderWith Token.StartsWithDigit line) := by
  refine ⟨isSome_header?_iff_iff, fun rules hparse => ?_⟩
  have hnames := map_name_of_parse hparse
  rw [splitLines_eq_splitOn] at hnames
  refine ⟨hnames, fun rule hrule => ?_, ?_⟩
  · have hname : rule.name ∈ headerNames (counted (document.toList.splitOn '\n')) := by
      rw [← hnames]
      exact List.mem_map_of_mem hrule
    obtain ⟨line, -, body, hheader⟩ := mem_headerNames_iff.1 hname
    obtain ⟨hne, hword⟩ := run_of_header? hheader
    exact ⟨fun hempty => hne (by rw [hempty, String.toList_empty]), hword⟩
  · rw [← forall_isIdentifier_headerNames_iff, ← hnames, List.forall_mem_map]

/-- A document of two rules, whose names are identifiers: a digit may stand after an underscore or a
letter. -/
theorem identifiers_of_two_rules : ∃ rules,
    parse "rule _1: a < 1\nrule b2 : a<1" = .ok rules ∧ rules.map Rule.name = ["_1", "b2"] ∧
    ∀ line ∈ counted ("rule _1: a < 1\nrule b2 : a<1".toList.splitOn '\n'),
      ¬HeaderWith Token.StartsWithDigit line := by
  let document := "rule _1: a < 1\nrule b2 : a<1"
  let condition : Expr := .compare "a" .lt (.number ⟨0x3FF0000000000000⟩)
  let rules : List Rule := [⟨"_1", "a < 1", condition, {}⟩, ⟨"b2", "a<1", condition, {}⟩]
  have hparse : parse document = .ok rules := by decide +kernel
  obtain ⟨-, -, hkeeps⟩ := (identifiers_iff_no_leading_digit document).2 rules hparse
  exact ⟨rules, hparse, rfl, hkeeps.1 (by decide)⟩

/-- A document of one rule, whose name starts with a digit.  Its line is no header with an
identifier, and yet it is taken as a header. -/
theorem parse_of_leading_digit :
    header? "rule 1a: x > 1".toList = some ("1a", " x > 1".toList) ∧
    ¬HeaderWith Token.IsIdentifier "rule 1a: x > 1".toList ∧
    parse "rule 1a: x > 1" =
      .ok [⟨"1a", "x > 1", .compare "x" .gt (.number ⟨0x3FF0000000000000⟩), {}⟩] ∧
    ¬Token.IsIdentifier "1a".toList := by
  have hheader : header? "rule 1a: x > 1".toList = some ("1a", " x > 1".toList) := by decide
  have hname : ¬Token.IsIdentifier "1a".toList := by decide
  have hline : ¬HeaderWith Token.IsIdentifier "rule 1a: x > 1".toList := by
    rwa [headerWith_iff_of_header? hheader]
  exact ⟨hheader, hline, by decide +kernel, hname⟩

end RuleBook

end Eligibility
