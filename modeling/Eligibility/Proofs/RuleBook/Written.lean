import Eligibility.Proofs.Rule.Invariant
import Eligibility.Proofs.RuleBook.Sections

/-!
# Writing a rule book

Rules are written into a rule book one to a line, each as its name and its text.  A text may hold
whatever the language admits, also colons, quotes, marks of comments and what looks like a header,
as long as it stands on one line and trimming leaves it alone: only the front of a line is looked
at.

## Main definitions

* `RuleBook.Writable rule` : a rule that can be written on a line.
* `RuleBook.write rules` : the rule book with each rule on a line of its own.

## Main results

* `RuleBook.parse_write` : **a rule book gives the rules back that were written into it.**
-/

namespace Eligibility

namespace RuleBook

variable {rule : Rule} {rules : List Rule}

/-- A rule that can be written on a line of a rule book: it has the default limits, its name is one
that a header can have, and its text is on one line and trimmed. -/
structure Writable (rule : Rule) : Prop where
  obtainable : rule.Obtainable
  limits_eq : rule.limits = {}
  name_ne : rule.name ≠ ""
  name_run : rule.name.toList.all Token.isWordChar = true
  feed_notMem : '\n' ∉ rule.source.toList
  trim_eq : Text.trim rule.source = rule.source

/-- The line of a rule. -/
def line (rule : Rule) : String :=
  "rule " ++ rule.render

/-- The rule book with each rule on a line of its own. -/
def write (rules : List Rule) : String :=
  "\n".intercalate (rules.map line)

/-- What stands before the colon on the line of a rule. -/
def lineFront (rule : Rule) : List Char :=
  'r' :: 'u' :: 'l' :: 'e' :: ([' '] ++ (rule.name.toList ++ []))

theorem toList_line (rule : Rule) :
    (line rule).toList = lineFront rule ++ ':' :: ' ' :: rule.source.toList := by
  simp [line, lineFront, Rule.render]

/-- The section of a line, which is that line alone. -/
def lineSection (rule : Rule) : List (List Char) :=
  [lineFront rule ++ ':' :: (' ' :: rule.source.toList).rdropWhile Text.isBlank]

/-- The draft of a line. -/
def lineDraft (rule : Rule) : Draft :=
  ⟨rule.name, [(' ' :: rule.source.toList).rdropWhile Text.isBlank]⟩

namespace Writable

theorem heads (h : Writable rule) : Heads rule.name.toList (lineFront rule) := by
  have hname : rule.name.toList ≠ [] := by
    rw [Ne, String.toList_eq_nil_iff]
    exact h.name_ne
  exact .mk (by simp) rfl hname h.name_run rfl

theorem feed_notMem_line (h : Writable rule) : '\n' ∉ (line rule).toList := by
  have hname : '\n' ∉ rule.name.toList := fun hmem =>
    absurd (List.all_eq_true.1 h.name_run _ hmem) (by decide)
  simp [toList_line, lineFront, hname, h.feed_notMem]

/-- The line counts, and trimming takes nothing off it but blanks behind the text. -/
theorem counted_line (h : Writable rule) : counted [(line rule).toList] = lineSection rule := by
  have hindent : ∀ c ∈ [], Text.isBlank c = true := by simp
  rw [toList_line]
  exact h.heads.counted_eq hindent _

theorem section_line (h : Writable rule) : Section (lineDraft rule) (lineSection rule) := by
  have hheader := h.heads.header?_eq ((' ' :: rule.source.toList).rdropWhile Text.isBlank)
  rw [String.ofList_toList] at hheader
  exact .mk hheader fun line hline => absurd hline List.not_mem_nil

/-- The text of the draft is the text of the rule: what is taken off is the space behind the
colon. -/
theorem source_lineDraft (h : Writable rule) : (lineDraft rule).source = rule.source := by
  have hspace : Text.trimChars (' ' :: rule.source.toList) = Text.trimChars rule.source.toList := by
    rw [← Text.trimChars_dropWhile, List.dropWhile_cons_of_pos rfl, Text.trimChars_dropWhile]
  rw [lineDraft, Draft.source_singleton, Text.trimChars_rdropWhile, hspace]
  exact h.trim_eq

theorem ofSource_lineDraft (h : Writable rule) :
    Rule.ofSource (lineDraft rule).name (lineDraft rule).source {} = .ok rule := by
  have hrule := h.obtainable.wellFormed
  have hname : ¬Text.IsBlank rule.name := fun hblank =>
    hrule.name_ne ((Text.trim_eq_empty_iff rule.name).2 hblank)
  have hparse := hrule.parse_eq
  rw [h.limits_eq] at hparse
  rw [h.source_lineDraft, Rule.ofSource_eq_ok_iff]
  exact ⟨hname, hparse, rfl, rfl, h.limits_eq⟩

end Writable

/-! ### The whole book -/

theorem counted_splitLines_write (hrules : ∀ rule ∈ rules, Writable rule) :
    counted (splitLines (write rules).toList) = (rules.map lineSection).flatten := by
  have hfeed : ∀ cs ∈ (rules.map line).map String.toList, '\n' ∉ cs := by
    rw [List.map_map, List.forall_mem_map]
    exact fun rule hrule => (hrules rule hrule).feed_notMem_line
  rw [write, String.toList_intercalate]
  show counted (splitLines (List.intercalate ['\n'] _)) = _
  rw [counted_splitLines_intercalate hfeed]
  clear hfeed
  induction rules with
  | nil => rfl
  | cons rule rules ih =>
    rw [List.forall_mem_cons] at hrules
    rw [List.map_cons, List.map_cons, List.map_cons, List.flatten_cons, counted_cons,
      hrules.1.counted_line, ih hrules.2]

/-- A line feed at the end of the book makes no difference. -/
theorem counted_splitLines_write_append (hrules : ∀ rule ∈ rules, Writable rule) {ending : String}
    (hending : ending = "" ∨ ending = "\n") :
    counted (splitLines (write rules ++ ending).toList) = (rules.map lineSection).flatten := by
  rw [← counted_splitLines_write hrules, String.toList_append]
  rcases hending with rfl | rfl
  · rw [String.toList_empty, List.append_nil]
  · show counted (splitLines ((write rules).toList ++ ['\n'])) = _
    rw [splitLines_concat_newline, counted_append]
    exact List.append_nil _

/-- **A rule book gives the rules back that were written into it**, whether its last line ends with
a line feed or not, and the set that it defines is the set of these rules, all of which have to
hold. -/
theorem parse_write (hne : rules ≠ []) (hrules : ∀ rule ∈ rules, Writable rule) {ending : String}
    (hending : ending = "" ∨ ending = "\n") : parse (write rules ++ ending) = .ok rules ∧
      RuleSet.ofBook (write rules ++ ending) = .ok ⟨rules, .all⟩ := by
  have hsections : List.Forall₂ Section (rules.map lineDraft) (rules.map lineSection) := by
    rw [List.forall₂_map_left_iff, List.forall₂_map_right_iff, List.forall₂_same]
    exact fun rule hrule => (hrules rule hrule).section_line
  have hmade : List.Forall₂ (fun d rule => Rule.ofSource d.name d.source {} = .ok rule)
      (rules.map lineDraft) rules := by
    rw [List.forall₂_map_left_iff, List.forall₂_same]
    exact fun rule hrule => (hrules rule hrule).ofSource_lineDraft
  have hparse : parse (write rules ++ ending) = .ok rules :=
    parse_eq_ok_of_sections (counted_splitLines_write_append hrules hending) hsections
      (by simpa using hne) hmade
  refine ⟨hparse, ?_⟩
  rw [RuleSet.ofBook, hparse]
  rfl

/-- Two rules of one name, with texts that hold what looks like a header and a comment. -/
theorem parse_write_of_misleading_texts : ∃ first second : Rule,
    first.source = "note == 'rule b: \r#1'" ∧ second.source = "rule <= -3 OR (x != \"it's: #\")" ∧
    write [first, second] ++ "\n" =
      "rule a_1: note == 'rule b: \r#1'\nrule a_1: rule <= -3 OR (x != \"it's: #\")\n" ∧
    parse (write [first, second] ++ "\n") = .ok [first, second] ∧
    RuleSet.ofBook (write [first, second] ++ "\n") = .ok ⟨[first, second], .all⟩ := by
  let first : Rule :=
    ⟨"a_1", "note == 'rule b: \r#1'", .compare "note" .eq (.text "rule b: \r#1"), {}⟩
  let second : Rule := ⟨"a_1", "rule <= -3 OR (x != \"it's: #\")",
    .or (.compare "rule" .le (.number ⟨0xC008000000000000⟩))
      (.compare "x" .ne (.text "it's: #")), {}⟩
  have hfirst : Rule.ofSource "a_1" "note == 'rule b: \r#1'" {} = .ok first := by
    decide +kernel
  have hsecond : Rule.ofSource "a_1" "rule <= -3 OR (x != \"it's: #\")" {} = .ok second := by
    decide +kernel
  have hrules : ∀ rule ∈ [first, second], Writable rule := by
    intro rule hrule
    rcases List.mem_pair.1 hrule with rfl | rfl
    · exact ⟨.ofSource hfirst, rfl, by decide, by decide, by decide, by decide⟩
    · exact ⟨.ofSource hsecond, rfl, by decide, by decide, by decide, by decide⟩
  obtain ⟨hparse, hset⟩ := parse_write (by simp) hrules (.inr rfl)
  exact ⟨first, second, rfl, rfl, by decide, hparse, hset⟩

end RuleBook

end Eligibility
