import Eligibility.RuleSet.Basic

/-!
# Detailed reports

A report evaluates every rule of a set.  A rule that cannot be evaluated counts as not satisfied.

## Main definitions

* `Outcome`, `Outcome.passed`, `Outcome.error?` : the verdict of one rule.
* `Report`, `RuleSet.report` : the verdicts of all rules.
* `Report.eligible` : the verdict over all.
* `Report.passed`, `Report.errors` : the rules that hold, and those without a verdict.
* `Report.render` : the report in one line.
-/

namespace Eligibility

/-- The verdict of one rule. -/
structure Outcome where
  /-- The name of the rule. -/
  name : String
  /-- Its verdict. -/
  result : Except EvalError Bool

namespace Outcome

/-- Whether the rule holds. -/
def passed (o : Outcome) : Bool :=
  match o.result with
  | .ok verdict => verdict
  | .error _ => false

/-- Why the rule has no verdict. -/
def error? (o : Outcome) : Option EvalError :=
  match o.result with
  | .ok _ => none
  | .error e => some e

end Outcome

/-- The verdicts of all rules of a set. -/
structure Report where
  /-- How the verdicts combine. -/
  combine : Combine
  /-- The verdicts, in the order of the rules. -/
  outcomes : List Outcome

namespace Report

/-- The verdict over all rules. -/
def eligible (r : Report) : Bool :=
  match r.combine with
  | .all => r.outcomes.all Outcome.passed
  | .any => r.outcomes.any Outcome.passed

/-- The names of the rules that hold. -/
def passed (r : Report) : List String :=
  (r.outcomes.filter Outcome.passed).map Outcome.name

/-- The names of the rules without a verdict, with the reasons. -/
def errors (r : Report) : List (String × EvalError) :=
  r.outcomes.filterMap fun o => o.error?.map (o.name, ·)

/-- The report in one line; errors are named only if there are some. -/
def render (r : Report) : String :=
  let errors := r.errors.map fun (name, e) => name ++ ": " ++ e.message
  "eligible: " ++ toString r.eligible ++ ", passed: [" ++ String.intercalate ", " r.passed ++ "]" ++
    if errors.isEmpty then "" else ", errors: [" ++ String.intercalate "; " errors ++ "]"

end Report

/-- The verdicts of all rules of a set on a record. -/
def RuleSet.report (s : RuleSet) (record : Record) : Report :=
  ⟨s.combine, s.rules.map fun rule => ⟨rule.name, rule.evaluate record⟩⟩

end Eligibility
