import Eligibility.RuleSet.Basic

/-!
# Building a set of rules

Rules are collected as texts or ready-made, and the settings may change until the set is built: the
texts are read only then, under the limits that are set by that time.

## Main definitions

* `RuleSet.Item` : a rule to be.
* `RuleSet.Builder` : the items and the settings so far.
* `RuleSet.Builder.build` : the set, or the first fault.
* `RuleSet.ofBook` : the set of all rules of a rule book.
-/

namespace Eligibility

namespace RuleSet

/-- A rule to be. -/
inductive Item
  /-- A rule given as a name and a text. -/
  | source (name text : String)
  /-- A rule that is already made and keeps its own limits. -/
  | ready (rule : Rule)

/-- The items and the settings collected so far. -/
structure Builder where
  /-- The rules to be, in order. -/
  items : Array Item := #[]
  /-- How their verdicts will combine. -/
  combine : Combine := .all
  /-- The schema that all rules have to satisfy. -/
  schema : Option Schema := none
  /-- The limits for rules given as texts. -/
  limits : Limits := {}

namespace Builder

/-- One more rule given as a name and a text. -/
def addSource (b : Builder) (name text : String) : Builder :=
  { b with items := b.items.push (.source name text) }

/-- One more rule that is already made. -/
def addRule (b : Builder) (rule : Rule) : Builder :=
  { b with items := b.items.push (.ready rule) }

/-- Another way to combine the verdicts. -/
def setCombine (b : Builder) (combine : Combine) : Builder :=
  { b with combine }

/-- Another schema to satisfy. -/
def setSchema (b : Builder) (schema : Schema) : Builder :=
  { b with schema := some schema }

/-- Other limits for rules given as texts. -/
def setLimits (b : Builder) (limits : Limits) : Builder :=
  { b with limits }

/-- The rule of an item. -/
def make (limits : Limits) : Item → Except RuleError Rule
  | .source name text => Rule.ofSource name text limits
  | .ready rule => .ok rule

/-- The rule itself, unless a schema is given and objects to it. -/
def checked (schema : Option Schema) (rule : Rule) : Except RuleError Rule :=
  match schema with
  | none => .ok rule
  | some schema =>
    match rule.check schema with
    | .ok () => .ok rule
    | .error e => .error (.schema rule.name e)

/-- The set of the collected rules, or the first fault among them. -/
def build (b : Builder) : Except RuleError RuleSet :=
  if b.items.isEmpty then .error .noRules
  else do
    let rules ← b.items.toList.mapM fun item => do checked b.schema (← make b.limits item)
    return { rules, combine := b.combine }

end Builder

/-- The set of all rules of a rule book, each of which has to hold. -/
def ofBook (document : String) : Except RuleError RuleSet := do
  return { rules := ← RuleBook.parse document, combine := .all }

end RuleSet

end Eligibility
