import Eligibility.Json.Basic
import Eligibility.Json.Form
import Eligibility.RuleSet.Basic

/-!
# Writing as JSON

An expression is an object whose `type` names its outermost connective, a value is a bare number or
string, records and schemas are plain objects, and operators, kinds and ways to combine are the
strings that spell them.

## Main definitions

* `Value.toJson`, `Expr.toJson`, `Record.toJson`, `Schema.toJson`, `Limits.toJson`, `Rule.toJson`
* `CompareOp.toJson`, `Kind.toJson`, `Combine.toJson`
-/

namespace Eligibility

/-- A value as a bare number or string. -/
def Value.toJson : Value → Json
  | number x => .ofNumber x
  | text s => .string s

/-- An operator as its symbol. -/
def CompareOp.toJson (op : CompareOp) : Json :=
  .string op.symbol

/-- A kind as its name. -/
def Kind.toJson (k : Kind) : Json :=
  .string k.name

/-- A way to combine as its name. -/
def Combine.toJson (c : Combine) : Json :=
  .string c.name

/-- An expression as an object that names its outermost connective. -/
def Expr.toJson : Expr → Json
  | compare field op literal =>
    .object [("type", .string Form.compare.name), ("field", .string field), ("op", op.toJson),
      ("literal", literal.toJson)]
  | and left right =>
    .object [("type", .string Form.and.name), ("left", left.toJson), ("right", right.toJson)]
  | or left right =>
    .object [("type", .string Form.or.name), ("left", left.toJson), ("right", right.toJson)]
  | not operand => .object [("type", .string Form.not.name), ("operand", operand.toJson)]

/-- A record as an object. -/
def Record.toJson (r : Record) : Json :=
  .object (r.toList.map fun (field, v) => (field, v.toJson))

/-- A schema as an object. -/
def Schema.toJson (s : Schema) : Json :=
  .object (s.toList.map fun (field, k) => (field, k.toJson))

/-- Limits as an object. -/
def Limits.toJson (l : Limits) : Json :=
  .object [("max_depth", .int l.maxDepth.toNat), ("max_height", .int l.maxHeight.toNat)]

/-- A rule as an object of its parts. -/
def Rule.toJson (r : Rule) : Json :=
  .object [("name", .string r.name), ("source", .string r.source), ("expr", r.expr.toJson),
    ("options", r.limits.toJson)]

end Eligibility
