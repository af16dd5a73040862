import Eligibility.RuleBook

/-!
# Sets of rules

## Main definitions

* `Combine` : whether all rules have to hold, or any one of them.
* `RuleSet` : rules in order and how their verdicts combine.
* `RuleSet.evaluate` : the verdict, which leaves out the rules after the deciding one.
* `RuleSet.get?` : the first rule of a name.
-/

namespace Eligibility

/-- How the verdicts of several rules make up one. -/
inductive Combine
  /-- All rules have to hold. -/
  | all
  /-- One rule has to hold. -/
  | any
  deriving DecidableEq

namespace Combine

/-- The name of a way to combine. -/
def name : Combine → String
  | all => "all"
  | any => "any"

/-- The way to combine of a name. -/
def ofName? (s : String) : Option Combine :=
  [all, any].find? fun c => c.name == s

@[simp] theorem ofName?_name (c : Combine) : ofName? c.name = some c := by
  cases c <;> decide

end Combine

/-- Rules that are evaluated together. -/
structure RuleSet where
  /-- The rules, in the order of evaluation. -/
  rules : List Rule
  /-- How their verdicts combine. -/
  combine : Combine
  deriving DecidableEq

namespace RuleSet

/-- The verdict of the rules one after the other, up to the one that decides. -/
def evaluate (s : RuleSet) (record : Record) : Except EvalError Bool :=
  match s.combine with
  | .all => s.rules.allM (·.evaluate record)
  | .any => s.rules.anyM (·.evaluate record)

/-- The first rule with the given name. -/
def get? (s : RuleSet) (name : String) : Option Rule :=
  s.rules.find? fun rule => rule.name == name

/-- Whether two sets have the same rules, number literals being compared by value. -/
def same (s t : RuleSet) : Bool :=
  s.combine == t.combine && s.rules.length == t.rules.length &&
    (s.rules.zip t.rules).all fun (a, b) =>
      a.name == b.name && a.source == b.source && a.expr.same b.expr && a.limits == b.limits

/-- A short description. -/
def describe (s : RuleSet) : String :=
  "RuleSet(" ++ toString s.rules.length ++ " rules, " ++ s.combine.name ++ ")"

end RuleSet

end Eligibility
