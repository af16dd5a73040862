import Eligibility.Expr.Evaluation
import Eligibility.Expr.Parser
import Eligibility.RuleError

/-!
# Rules

A rule is a name and a text, together with the expression that the text says under the rule's
limits.

## Main definitions

* `Rule` : a rule.
* `Rule.ofSource` : the rule of a name and a text.
* `Rule.restore` : the rule of stored parts, if the stored expression is what the text says.
* `Rule.evaluate`, `Rule.check`, `Rule.render` : its verdict, its check and its text.

## Main results

* `Rule.ofSource_eq_ok_iff` : when a text makes a rule, and which.
-/

namespace Eligibility

/-- A named expression with the text it was read from. -/
structure Rule where
  /-- The name. -/
  name : String
  /-- The text. -/
  source : String
  /-- What the text says. -/
  expr : Expr
  /-- The limits under which the text was read. -/
  limits : Limits
  deriving DecidableEq

namespace Rule

/-- The rule of a name and a text. -/
def ofSource (name source : String) (limits : Limits) : Except RuleError Rule :=
  if Text.IsBlank name then .error .blankName
  else
    match Expr.parse limits source with
    | .ok expr => .ok { name, source, expr, limits }
    | .error e => .error (.parse e)

/-- The rule of stored parts.  Its expression is the one that the text says, which may differ from
the stored one in the sign of a zero. -/
def restore (name source : String) (expr : Expr) (limits : Limits) : Except RuleError Rule := do
  let rule ← ofSource name source limits
  if rule.expr.same expr then return rule else throw (.sourceMismatch name)

/-- The verdict of a rule on a record. -/
def evaluate (rule : Rule) (record : Record) : Except EvalError Bool :=
  rule.expr.evaluate record

/-- The check of a rule against a schema. -/
def check (rule : Rule) (schema : Schema) : Except SchemaError Unit :=
  schema.check rule.expr

/-- The name and the text of a rule, as they stand in a rule book. -/
def render (rule : Rule) : String :=
  rule.name ++ ": " ++ rule.source

theorem ofSource_eq_ok_iff {name source : String} {limits : Limits} {rule : Rule} :
    ofSource name source limits = .ok rule ↔
      ¬Text.IsBlank name ∧ Expr.parse limits source = .ok rule.expr ∧
        rule.name = name ∧ rule.source = source ∧ rule.limits = limits := by
  unfold ofSource
  by_cases hname : Text.IsBlank name
  · simp [hname]
  · rw [if_neg hname]
    cases hparse : Expr.parse limits source with
    | error e => simp
    | ok expr =>
      constructor
      · intro h
        obtain rfl := Except.ok.inj h
        exact ⟨hname, rfl, rfl, rfl, rfl⟩
      · rintro ⟨-, h, rfl, rfl, rfl⟩
        obtain rfl := Except.ok.inj h
        rfl

end Rule

end Eligibility
