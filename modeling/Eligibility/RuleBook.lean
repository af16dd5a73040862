import Eligibility.Rule

/-!
# Rule books

A rule book is a document of several rules.  A line `rule <name>:` starts a rule, and the rest of
that line and the lines up to the next such header make up the text of the rule.  Blank lines, and
lines that start with `#`, are no part of it.

## Main definitions

* `RuleBook.header?` : the name and the rest of a header line.
* `RuleBook.numberedLines` : the lines of a document that count, trimmed, with their numbers.
* `RuleBook.segment` : the lines before the first header, and the drafts of rules after it.
* `RuleBook.parse` : the rules of a document.
-/

namespace Eligibility

namespace RuleBook

/-- The characters between the parts of a header. -/
def isSpace (c : Char) : Bool :=
  c == ' ' || c == '\t'

/-- The name in a header line and the text after its colon. -/
def header? : List Char → Option (String × List Char)
  | 'r' :: 'u' :: 'l' :: 'e' :: rest =>
    let named := rest.dropWhile isSpace
    let name := named.takeWhile Token.isWordChar
    match (named.dropWhile Token.isWordChar).dropWhile isSpace with
    | ':' :: body =>
      if rest.takeWhile isSpace = [] ∨ name = [] then none else some (String.ofList name, body)
    | _ => none
  | _ => none

/-- The lines of a document, without their line feeds. -/
def splitLines (cs : List Char) : List (List Char) :=
  cs.foldr
    (fun c lines =>
      if c = '\n' then [] :: lines
      else
        match lines with
        | [] => [[c]]
        | line :: lines => (c :: line) :: lines)
    [[]]

/-- Whether a trimmed line is part of a rule. -/
def counts (line : List Char) : Bool :=
  match line with
  | [] => false
  | c :: _ => c != '#'

/-- The lines of a document that count, trimmed, each with its number counted from one. -/
def numberedLines (document : String) : List (Nat × List Char) :=
  let lines := (splitLines document.toList).map Text.trimChars
  ((List.range' 1 lines.length).zip lines).filter fun line => counts line.2

/-- A rule whose text is still in pieces. -/
structure Draft where
  /-- The name. -/
  name : String
  /-- The rest of the header line and the lines after it. -/
  pieces : List (List Char)

namespace Draft

/-- The text of a draft: the pieces, trimmed, with single spaces between those not empty. -/
def source (d : Draft) : String :=
  let pieces := (d.pieces.map Text.trimChars).filter fun piece => !piece.isEmpty
  String.ofList (List.intercalate [' '] pieces)

/-- The rule of a draft. -/
def toRule (d : Draft) : Except RuleError Rule :=
  match Rule.ofSource d.name d.source {} with
  | .error (.parse e) => .error (.inRule d.name e)
  | result => result

end Draft

/-- The lines before the first header, and a draft for each header. -/
def segment (lines : List (Nat × List Char)) : List (Nat × List Char) × List Draft :=
  lines.foldr
    (fun line (stray, drafts) =>
      match header? line.2 with
      | some (name, body) => ([], ⟨name, body :: stray.map Prod.snd⟩ :: drafts)
      | none => (line :: stray, drafts))
    ([], [])

/-- The rules of a document. -/
def parse (document : String) : Except RuleError (List Rule) :=
  match segment (numberedLines document) with
  | ((number, _) :: _, _) => .error (.missingHeader number)
  | ([], []) => .error .noRules
  | ([], drafts) => drafts.mapM Draft.toRule

@[simp] theorem splitLines_nil : splitLines [] = [[]] := rfl

theorem splitLines_cons_newline (cs : List Char) :
    splitLines ('\n' :: cs) = [] :: splitLines cs := rfl

@[simp] theorem segment_nil : segment [] = ([], []) := rfl

end RuleBook

end Eligibility
