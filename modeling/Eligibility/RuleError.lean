import Eligibility.ParseError
import Eligibility.Schema

/-!
# Errors of making rules and sets of rules

## Main definitions

* `RuleError` : the causes.
* `RuleError.message` : their wording.
-/

namespace Eligibility

/-- Why a rule, a rule book or a set of rules cannot be made. -/
inductive RuleError
  /-- The source of a rule is no expression. -/
  | parse (e : ParseError)
  /-- The schema of a set objects to a rule. -/
  | schema (rule : String) (e : SchemaError)
  /-- The source of a rule in a book is no expression. -/
  | inRule (rule : String) (e : ParseError)
  /-- A line of a book, counted from one, stands before the first header. -/
  | missingHeader (line : Nat)
  /-- The name of a rule is blank. -/
  | blankName
  /-- There are no rules. -/
  | noRules
  /-- The expression given for a rule is not what its source says. -/
  | sourceMismatch (rule : String)
  deriving DecidableEq

/-- The wording of an error. -/
def RuleError.message : RuleError → String
  | parse e => e.message
  | schema rule e => "rule '" ++ rule ++ "': " ++ e.message
  | inRule rule e => "rule '" ++ rule ++ "': " ++ e.message
  | missingHeader line =>
    "rule book line " ++ toString line ++ ": expected a rule header ('rule <name>:')"
  | blankName => "rule name must not be empty"
  | noRules => "rule set contains no rules"
  | sourceMismatch rule => "rule '" ++ rule ++ "': expression does not match its source text"

end Eligibility
