import Eligibility.Proofs.LastSetting
import Eligibility.Proofs.RuleSet.Built

/-!
# The calls on a builder

Rules and settings come to a builder in any order, and nothing is read before the set is built.  So
a setting acts on the rules that were given before it as well, and of several settings of one kind
only the last one counts.  The rules are made one after the other, and the first that cannot be made
or that the schema objects to is reported.

## Main definitions

* `RuleSet.Call`, `RuleSet.Builder.ofCalls` : the calls on a builder, and the builder after them.
* `RuleSet.Call.item?` and the like : what a call gives or sets.
* `RuleSet.Item.Yields`, `RuleSet.Item.Fails` : the rule of an item, and why it has none.

## Main results

* `RuleSet.Builder.ofCalls_eq` : the builder after any calls.
* `RuleSet.Builder.build_eq_error_iff` : which fault is reported.
* `RuleSet.Builder.build_ofCalls` : **the set depends on the items and the last settings only, and
  the first item that fails is reported.**
-/

namespace Eligibility

namespace RuleSet

/-! ### Calls -/

/-- A call on a builder. -/
inductive Call
  /-- One more rule, as a name and a text. -/
  | source (name text : String)
  /-- One more rule that is already made. -/
  | ready (rule : Rule)
  /-- A way to combine the verdicts. -/
  | combine (combine : Combine)
  /-- A schema to satisfy. -/
  | schema (schema : Schema)
  /-- Limits for rules given as texts. -/
  | limits (limits : Limits)

namespace Call

/-- The item that a call adds. -/
def item? : Call → Option Item
  | source name text => some (.source name text)
  | ready rule => some (.ready rule)
  | _ => none

/-- The way to combine that a call sets. -/
def combine? : Call → Option Combine
  | combine c => some c
  | _ => none

/-- The schema that a call sets. -/
def schema? : Call → Option Schema
  | schema s => some s
  | _ => none

/-- The limits that a call sets. -/
def limits? : Call → Option Limits
  | limits l => some l
  | _ => none

end Call

namespace Builder

/-- The builder after a call. -/
def perform (b : Builder) : Call → Builder
  | .source name text => b.addSource name text
  | .ready rule => b.addRule rule
  | .combine c => b.setCombine c
  | .schema s => b.setSchema s
  | .limits l => b.setLimits l

/-- The builder after some calls on a new one. -/
def ofCalls (calls : List Call) : Builder :=
  calls.foldl perform {}

/-- A call adds its item behind the others. -/
theorem toList_items_perform (b : Builder) (call : Call) :
    (b.perform call).items.toList = b.items.toList ++ call.item?.toList := by
  cases call <;> simp [perform, addSource, addRule, setCombine, setSchema, setLimits, Call.item?]

theorem toList_items_foldl_perform (calls : List Call) (b : Builder) :
    (calls.foldl perform b).items.toList = b.items.toList ++ calls.filterMap Call.item? := by
  induction calls generalizing b with
  | nil => simp
  | cons call calls ih =>
    rw [List.foldl_cons, ih, toList_items_perform, List.append_assoc, List.filterMap_cons]
    cases call.item? <;> rfl

/-- The builder after some calls has their items, and of each kind of setting the last one. -/
theorem ofCalls_eq (calls : List Call) :
    ofCalls calls =
      { items := (calls.filterMap Call.item?).toArray
        combine := (calls.filterMap Call.combine?).getLast?.getD .all
        schema := (calls.filterMap Call.schema?).getLast?
        limits := (calls.filterMap Call.limits?).getLast?.getD {} } := by
  have hitems : (ofCalls calls).items = (calls.filterMap Call.item?).toArray := by
    have hlist : (ofCalls calls).items.toList = calls.filterMap Call.item? :=
      toList_items_foldl_perform calls {}
    rw [← hlist, Array.toArray_toList]
  have hcombine : (ofCalls calls).combine = (calls.filterMap Call.combine?).getLast?.getD .all :=
    foldl_part Call.combine? combine (fun b call => by cases call <;> rfl) calls {}
  have hlimits : (ofCalls calls).limits = (calls.filterMap Call.limits?).getLast?.getD {} :=
    foldl_part Call.limits? limits (fun b call => by cases call <;> rfl) calls {}
  have hschema : (ofCalls calls).schema = (calls.filterMap Call.schema?).getLast? :=
    (foldl_part? Call.schema? schema (fun b call => by cases call <;> rfl) calls {}).trans
      (Option.or_none)
  rw [← hitems, ← hcombine, ← hschema, ← hlimits]

end Builder

/-! ### Items -/

namespace Item

/-- The rule of an item: read under the limits, or as it was made, and the schema, if there is one,
does not object to it. -/
inductive Yields (limits : Limits) (schema? : Option Schema) : Item → Rule → Prop
  /-- A name that is not blank, and a text that says an expression under the limits. -/
  | source {name text : String} {expr : Expr} : ¬Text.IsBlank name →
    Expr.parse limits text = .ok expr →
    (∀ schema, schema? = some schema → schema.check expr = .ok ()) →
      Yields limits schema? (.source name text) ⟨name, text, expr, limits⟩
  /-- A rule that is already made, with limits of its own. -/
  | ready {rule : Rule} : (∀ schema, schema? = some schema → schema.check rule.expr = .ok ()) →
      Yields limits schema? (.ready rule) rule

/-- Why an item has no rule. -/
inductive Fails (limits : Limits) (schema? : Option Schema) : Item → RuleError → Prop
  /-- The name is blank, whatever the text is. -/
  | blankName {name text : String} : Text.IsBlank name →
      Fails limits schema? (.source name text) .blankName
  /-- The text says no expression under the limits. -/
  | parse {name text : String} {e : ParseError} : ¬Text.IsBlank name →
    Expr.parse limits text = .error e → Fails limits schema? (.source name text) (.parse e)
  /-- The schema objects to what the text says. -/
  | sourceSchema {name text : String} {expr : Expr} {schema : Schema} {e : SchemaError} :
    ¬Text.IsBlank name → Expr.parse limits text = .ok expr → schema? = some schema →
    schema.check expr = .error e → Fails limits schema? (.source name text) (.schema name e)
  /-- The schema objects to a rule that is already made. -/
  | readySchema {rule : Rule} {schema : Schema} {e : SchemaError} : schema? = some schema →
    schema.check rule.expr = .error e → Fails limits schema? (.ready rule) (.schema rule.name e)

end Item

namespace Builder

variable {b : Builder} {limits : Limits} {schema? : Option Schema} {item : Item} {rule : Rule}
  {err : RuleError}

/-- What is made of an item is its rule. -/
theorem gives_iff_yields : b.Gives item rule ↔ item.Yields b.limits b.schema rule := by
  constructor
  · rintro ⟨hmake, hcheck⟩
    cases item with
    | source name text =>
      obtain ⟨hname, hparse, rfl, rfl, hlimits⟩ := Rule.ofSource_eq_ok_iff.1 hmake
      obtain ⟨name, source, expr, limits⟩ := rule
      obtain rfl : limits = b.limits := hlimits
      exact .source hname hparse hcheck
    | ready rule' =>
      obtain rfl := Except.ok.inj hmake
      exact .ready hcheck
  · intro h
    cases h with
    | source hname hparse hcheck =>
      exact ⟨Rule.ofSource_eq_ok_iff.2 ⟨hname, hparse, rfl, rfl, rfl⟩, hcheck⟩
    | ready hcheck => exact ⟨rfl, hcheck⟩

/-- A schema refuses a rule with its objection to the expression. -/
theorem checked_eq_error_iff : checked schema? rule = .error err ↔
    ∃ schema e, schema? = some schema ∧ schema.check rule.expr = .error e ∧
      err = .schema rule.name e := by
  cases schema? with
  | none => simp [checked]
  | some schema =>
    rw [checked, Rule.check]
    cases hcheck : schema.check rule.expr with
    | ok u => simp [hcheck]
    | error e => simp [hcheck, eq_comm]

/-- A rule is not made of a text if the name is blank, or else if the text says no expression. -/
theorem ofSource_eq_error_iff {name text : String} : Rule.ofSource name text limits = .error err ↔
    Text.IsBlank name ∧ err = .blankName ∨
      ¬Text.IsBlank name ∧ ∃ e, Expr.parse limits text = .error e ∧ err = .parse e := by
  unfold Rule.ofSource
  by_cases hname : Text.IsBlank name
  · simp [hname, eq_comm]
  · rw [if_neg hname]
    cases Expr.parse limits text <;> simp [hname, eq_comm]

/-- What goes wrong with an item is why it has no rule. -/
theorem make_bind_checked_eq_error_iff :
    (make limits item >>= checked schema?) = .error err ↔ item.Fails limits schema? err := by
  show (make limits item).bind (checked schema?) = .error err ↔ item.Fails limits schema? err
  rw [Except.bind_eq_error_iff]
  simp only [checked_eq_error_iff]
  constructor
  · intro h
    cases item with
    | source name text =>
      rcases h with hmake | ⟨rule, hmake, schema, e, hschema, hcheck, rfl⟩
      · rcases ofSource_eq_error_iff.1 hmake with ⟨hname, rfl⟩ | ⟨hname, e, hparse, rfl⟩
        · exact .blankName hname
        · exact .parse hname hparse
      · obtain ⟨hname, hparse, rfl, rfl, -⟩ := Rule.ofSource_eq_ok_iff.1 hmake
        exact .sourceSchema hname hparse hschema hcheck
    | ready rule' =>
      rcases h with hmake | ⟨rule, hmake, schema, e, hschema, hcheck, rfl⟩
      · cases hmake
      · obtain rfl := Except.ok.inj hmake
        exact .readySchema hschema hcheck
  · intro h
    cases h with
    | blankName hname => exact .inl (ofSource_eq_error_iff.2 (.inl ⟨hname, rfl⟩))
    | parse hname hparse => exact .inl (ofSource_eq_error_iff.2 (.inr ⟨hname, _, hparse, rfl⟩))
    | @sourceSchema name text expr schema e hname hparse hschema hcheck =>
      exact .inr ⟨⟨name, text, expr, limits⟩,
        Rule.ofSource_eq_ok_iff.2 ⟨hname, hparse, rfl, rfl, rfl⟩, schema, e, hschema, hcheck, rfl⟩
    | @readySchema rule schema e hschema hcheck =>
      exact .inr ⟨rule, rfl, schema, e, hschema, hcheck, rfl⟩

/-! ### Building -/

/-- **The first item without a rule is reported**, or that there are no items. -/
theorem build_eq_error_iff : b.build = .error err ↔
    b.items.toList = [] ∧ err = .noRules ∨
      ∃ before item after, b.items.toList = before ++ item :: after ∧
        (∀ earlier ∈ before, ∃ rule, earlier.Yields b.limits b.schema rule) ∧
        item.Fails b.limits b.schema err := by
  have hempty : b.items.isEmpty = true ↔ b.items.toList = [] := by
    rw [Array.isEmpty_iff, Array.toList_eq_nil_iff]
  have hpass : ((b.items.toList.mapM fun item => make b.limits item >>= checked b.schema) =
      .error err) ↔ ∃ before item after, b.items.toList = before ++ item :: after ∧
        (∀ earlier ∈ before, ∃ rule, earlier.Yields b.limits b.schema rule) ∧
        item.Fails b.limits b.schema err := by
    rw [Except.mapM_eq_error_iff]
    simp only [make_bind_checked_eq_error_iff, ← gives_iff, gives_iff_yields]
  unfold build
  by_cases hitems : b.items.toList = []
  · rw [if_pos (hempty.2 hitems)]
    simp [hitems, eq_comm]
  · rw [if_neg (mt hempty.1 hitems), ← hpass]
    simp only [hitems, false_and, false_or]
    exact Except.map_eq_error_iff

/-- **The set depends on the items and the last settings only.**  There is none if no rule was
given; otherwise the first item without a rule is reported, be it that its name is blank, that its
text says nothing under the last limits or that the last schema objects; and if each item has a rule
the set has these rules in the order of the calls, the ready ones with their own limits. -/
theorem build_ofCalls (calls : List Call) :
    let items := calls.filterMap Call.item?
    let combine := (calls.filterMap Call.combine?).getLast?.getD .all
    let schema? := (calls.filterMap Call.schema?).getLast?
    let limits := (calls.filterMap Call.limits?).getLast?.getD {}
    (ofCalls calls).build = build ⟨items.toArray, combine, schema?, limits⟩ ∧
    ((ofCalls calls).build = .error .noRules ↔ ∀ call ∈ calls, call.item? = none) ∧
    (∀ err, (ofCalls calls).build = .error err ↔ items = [] ∧ err = .noRules ∨
      ∃ before item after, items = before ++ item :: after ∧
        (∀ earlier ∈ before, ∃ rule, earlier.Yields limits schema? rule) ∧
        item.Fails limits schema? err) ∧
    ∀ s, (ofCalls calls).build = .ok s ↔ items ≠ [] ∧
      List.Forall₂ (Item.Yields limits schema?) items s.rules ∧ s.combine = combine := by
  intro items combine schema? limits
  have hbuilder : ofCalls calls = ⟨items.toArray, combine, schema?, limits⟩ := ofCalls_eq calls
  have herror : ∀ err, (ofCalls calls).build = .error err ↔ items = [] ∧ err = .noRules ∨
      ∃ before item after, items = before ++ item :: after ∧
        (∀ earlier ∈ before, ∃ rule, earlier.Yields limits schema? rule) ∧
        item.Fails limits schema? err := by
    intro err
    rw [hbuilder]
    exact build_eq_error_iff
  refine ⟨congrArg build hbuilder, ?_, herror, fun s => ?_⟩
  · rw [herror, ← List.filterMap_eq_nil_iff]
    constructor
    · rintro (⟨hitems, -⟩ | ⟨before, item, after, -, -, hfails⟩)
      · exact hitems
      · cases hfails
    · exact fun hitems => .inl ⟨hitems, rfl⟩
  · rw [hbuilder, build_eq_ok_iff]
    have hgives : Gives ⟨items.toArray, combine, schema?, limits⟩ = Item.Yields limits schema? := by
      funext item rule
      exact propext gives_iff_yields
    rw [hgives]

/-- Limits, a schema and a way to combine that come after the rules, or twice. -/
example :
    let rule : Rule := ⟨"kept", "b == 1", .compare "b" .eq (.number ⟨0x3FF0000000000000⟩), ⟨7, 7⟩⟩
    build (ofCalls [.limits ⟨0, 0⟩, .source "read" "(a == 'x')", .combine .any, .ready rule,
      .schema (.ofList []), .limits ⟨1, 1⟩, .schema (.ofList [("a", .text), ("b", .number)])]) =
        .ok ⟨[⟨"read", "(a == 'x')", .compare "a" .eq (.text "x"), ⟨1, 1⟩⟩, rule], .any⟩ := by
  decide +kernel

end Builder

end RuleSet

end Eligibility
