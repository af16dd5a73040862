import Eligibility.Proofs.Expr.Comparisons
import Eligibility.Proofs.RuleSet.Built
import Eligibility.Proofs.RuleSet.Detailed

/-!
# What a checked set of rules can fail on

A schema objects to every comparison that some value of the declared kind cannot decide.  What is
left to fail is the record: it may lack a declared field, or hold a value there that cannot be read
as the declared kind.  Whichever rules and operands are reached, an error names such a field.

## Main definitions

* `Value.ReadableAs` : a value can be read as one of a kind.
* `Record.Provides` : a record has a readable value for each field of a schema.
* `EvalError.Blames` : an error names a field of a schema for which a record has no readable value.

## Main results

* `Expr.blames_of_check` : an expression that a schema has no objection to fails only in this way.
* `RuleSet.evaluate_eq_eligible` : without errors, the verdict and the report agree.
* `RuleSet.Builder.blames_of_build` : **a set that was built with a schema fails only in this way.**
-/

namespace Eligibility

/-- A value that can be read as one of the kind. -/
def Value.ReadableAs (v : Value) : Kind → Prop
  | .number => v.asNumber? ≠ none
  | .text => v.asText? ≠ none

instance (v : Value) : (kind : Kind) → Decidable (v.ReadableAs kind)
  | .number => inferInstanceAs (Decidable (v.asNumber? ≠ none))
  | .text => inferInstanceAs (Decidable (v.asText? ≠ none))

/-- A record that has a readable value for each field of the schema. -/
def Record.Provides (record : Record) (schema : Schema) : Prop :=
  ∀ field kind, schema.kindOf? field = some kind →
    ∃ v, record.get? field = some v ∧ v.ReadableAs kind

/-- An error that names a field of the schema for which the record has no readable value. -/
inductive EvalError.Blames (schema : Schema) (record : Record) : EvalError → Prop
  /-- The record lacks the field. -/
  | missing {field : String} {kind : Kind} :
    schema.kindOf? field = some kind → record.get? field = none →
      Blames schema record (.unknownField field)
  /-- The value of the field cannot be read as the declared kind. -/
  | unreadable {field : String} {kind : Kind} {v : Value} :
    schema.kindOf? field = some kind → record.get? field = some v → ¬v.ReadableAs kind →
      Blames schema record (.typeMismatch field kind)

variable {schema : Schema} {record : Record}

/-- A record that provides all fields is not to blame. -/
theorem Record.Provides.not_blames {err : EvalError} (h : record.Provides schema) :
    ¬err.Blames schema record := by
  intro hblames
  cases hblames with
  | missing hkind hget =>
    obtain ⟨v, hv, -⟩ := h _ _ hkind
    rw [hget] at hv
    cases hv
  | unreadable hkind hget hread =>
    obtain ⟨v, hv, hreadable⟩ := h _ _ hkind
    rw [hget] at hv
    obtain rfl := Option.some.inj hv
    exact hread hreadable

/-! ### Expressions -/

/-- The comparisons that a schema has no objection to: the literal is of the declared kind, and a
text is not asked which of two is larger. -/
theorem Schema.checkComparison_eq_ok_iff {field : String} {op : CompareOp} {literal : Value} :
    schema.checkComparison field op literal = .ok () ↔
      schema.kindOf? field = some literal.kind ∧
        (literal.kind = .text → op.isOrdering = false) := by
  unfold checkComparison
  cases hkind : schema.kindOf? field with
  | none => simp
  | some declared =>
    by_cases heq : declared = literal.kind
    · subst heq
      simp
    · simp [heq]

/-- The right operand is checked if there is no objection to the left one. -/
theorem Schema.check_join (schema : Schema) (c : Connective) (l r : Expr) :
    schema.check (c.join l r) = schema.check l >>= fun _ => schema.check r := by
  cases c <;> rfl

/-- A schema has no objection to two operands if it has none to either. -/
theorem Schema.check_join_eq_ok_iff {c : Connective} {l r : Expr} :
    schema.check (c.join l r) = .ok () ↔ schema.check l = .ok () ∧ schema.check r = .ok () := by
  rw [check_join, Except.bind_eq_ok_iff]
  exact ⟨fun ⟨_, hl, hr⟩ => ⟨hl, hr⟩, fun ⟨hl, hr⟩ => ⟨(), hl, hr⟩⟩

namespace Expr

/-- A comparison that a schema has no objection to fails only on the value of its field. -/
theorem blames_of_checkComparison {field : String} {op : CompareOp} {literal : Value}
    {err : EvalError} (hcheck : schema.checkComparison field op literal = .ok ())
    (h : verdict record field op literal = .error err) : err.Blames schema record := by
  obtain ⟨hkind, htext⟩ := Schema.checkComparison_eq_ok_iff.1 hcheck
  have hfails : Comparison.Fails record ⟨field, op, literal⟩ err :=
    Comparison.verdict_eq_error_iff.1 h
  cases hfails with
  | missing hget => exact .missing hkind hget
  | noNumber hliteral hget hread =>
    obtain rfl : literal = _ := hliteral
    exact .unreadable hkind hget fun hreadable => hreadable hread
  | ordering hliteral _ hop =>
    obtain rfl : literal = _ := hliteral
    rw [htext rfl] at hop
    cases hop
  | noText hliteral hget _ =>
    obtain rfl : literal = _ := hliteral
    exact .unreadable hkind hget fun hreadable => hreadable rfl

/-- **An expression that a schema has no objection to fails only on the record**, whichever of its
comparisons are reached. -/
theorem blames_of_check {e : Expr} {err : EvalError} (hcheck : schema.check e = .ok ())
    (h : e.evaluate record = .error err) : err.Blames schema record := by
  induction e using induction_join with
  | compare field op literal => exact blames_of_checkComparison hcheck h
  | join c l r hl hr =>
    obtain ⟨hcl, hcr⟩ := Schema.check_join_eq_ok_iff.1 hcheck
    rw [evaluate_join, Connective.inTurn_eq_error_iff] at h
    rcases h with h | ⟨-, h⟩
    · exact hl hcl h
    · exact hr hcr h
  | not e he =>
    rw [evaluate_not, Except.map_eq_error_iff] at h
    exact he hcheck h

end Expr

/-! ### Sets of rules -/

namespace RuleSet

/-- The error of a set is the error of one of its rules. -/
theorem exists_of_evaluate_eq_error {s : RuleSet} {err : EvalError}
    (h : s.evaluate record = .error err) : ∃ rule ∈ s.rules, rule.evaluate record = .error err := by
  obtain ⟨rules, combine⟩ := s
  induction rules with
  | nil =>
    rw [evaluate_nil] at h
    cases h
  | cons rule rules ih =>
    rw [evaluate_cons, Connective.inTurn_eq_error_iff] at h
    rcases h with h | ⟨-, h⟩
    · exact ⟨rule, List.mem_cons_self, h⟩
    · obtain ⟨rule', hmem, herror⟩ := ih h
      exact ⟨rule', List.mem_cons_of_mem rule hmem, herror⟩

/-- **Without errors, the verdict of a set is the one of its report.** -/
theorem evaluate_eq_eligible {s : RuleSet}
    (h : ∀ rule ∈ s.rules, ∃ v, rule.evaluate record = .ok v) :
    s.evaluate record = .ok (s.report record).eligible := by
  cases hv : s.evaluate record with
  | error err =>
    obtain ⟨rule, hmem, herror⟩ := exists_of_evaluate_eq_error hv
    obtain ⟨v, hok⟩ := h rule hmem
    rw [hok] at herror
    cases herror
  | ok v => rw [eligible_of_evaluate hv]

theorem errors_report_eq_nil {s : RuleSet}
    (h : ∀ rule ∈ s.rules, ∃ v, rule.evaluate record = .ok v) : (s.report record).errors = [] := by
  refine List.filterMap_eq_nil_iff.2 fun o ho => ?_
  obtain ⟨rule, hmem, rfl⟩ := List.mem_map.1 ho
  obtain ⟨v, hv⟩ := h rule hmem
  rw [hv]
  rfl

namespace Builder

variable {b : Builder} {s : RuleSet}

/-- The schema of a builder has no objection to any rule of the set, whether it was given as a text
or ready-made. -/
theorem check_of_build (hschema : b.schema = some schema) (hbuild : b.build = .ok s) :
    ∀ rule ∈ s.rules, schema.check rule.expr = .ok () := by
  intro rule hmem
  obtain ⟨-, hgives, -⟩ := build_eq_ok_iff.1 hbuild
  obtain ⟨item, -, hrule⟩ := exists_of_mem_forall₂ hgives hmem
  exact hrule.check_eq schema hschema

/-- **A set that was built with a schema fails only on the record.**  Each error of the set and each
error in a report names a field of the schema that the record lacks, or whose value in the record
cannot be read as the declared kind; and on a record with a readable value for each declared field
the set has a verdict, and its report has no errors and the same verdict. -/
theorem blames_of_build (hschema : b.schema = some schema) (hbuild : b.build = .ok s)
    (record : Record) :
    (∀ err, s.evaluate record = .error err → err.Blames schema record) ∧
    (∀ o ∈ (s.report record).outcomes, ∀ err, o.result = .error err → err.Blames schema record) ∧
    (record.Provides schema → ∃ v, s.evaluate record = .ok v ∧
      (s.report record).errors = [] ∧ (s.report record).eligible = v) := by
  have hcheck := check_of_build hschema hbuild
  have hrule : ∀ rule ∈ s.rules, ∀ err, rule.evaluate record = .error err →
      err.Blames schema record :=
    fun rule hmem err herror => Expr.blames_of_check (hcheck rule hmem) herror
  refine ⟨fun err h => ?_, fun o ho err h => ?_, fun hprovides => ?_⟩
  · obtain ⟨rule, hmem, herror⟩ := exists_of_evaluate_eq_error h
    exact hrule rule hmem err herror
  · obtain ⟨rule, hmem, rfl⟩ := List.mem_map.1 ho
    exact hrule rule hmem err h
  · have hok : ∀ rule ∈ s.rules, ∃ v, rule.evaluate record = .ok v := by
      intro rule hmem
      cases hv : rule.evaluate record with
      | error err => exact absurd (hrule rule hmem err hv) hprovides.not_blames
      | ok v => exact ⟨v, rfl⟩
    exact ⟨_, evaluate_eq_eligible hok, errors_report_eq_nil hok, rfl⟩

/-- A rule given as a text and one that is ready-made, on a record with an unreadable value and on
one that provides both fields. -/
theorem blames_of_build_of_text_and_ready :
    ∃ s, build
        { items := #[.source "senior" "age > 30", .ready ⟨"sales", "department == 'Sales'",
            .compare "department" .eq (.text "Sales"), {}⟩]
          schema := some (.ofList [("age", .number), ("department", .text)]) } = .ok s ∧
      s.rules.length = 2 ∧
      s.evaluate (.ofList [("age", .text "n/a")]) = .error (.typeMismatch "age" .number) ∧
      (EvalError.typeMismatch "age" .number).Blames
        (.ofList [("age", .number), ("department", .text)]) (.ofList [("age", .text "n/a")]) ∧
      ∃ v, s.evaluate (.ofList [("age", .text " 35 "), ("department", .text "Sales")]) = .ok v := by
  let senior : Rule := ⟨"senior", "age > 30", .compare "age" .gt (.number ⟨0x403E000000000000⟩), {}⟩
  let sales : Rule :=
    ⟨"sales", "department == 'Sales'", .compare "department" .eq (.text "Sales"), {}⟩
  let schema : Schema := .ofList [("age", .number), ("department", .text)]
  let b : Builder :=
    { items := #[.source "senior" "age > 30", .ready sales], schema := some schema }
  have hbuild : b.build = .ok ⟨[senior, sales], .all⟩ := by decide +kernel
  have herror : evaluate ⟨[senior, sales], .all⟩ (.ofList [("age", .text "n/a")]) =
      .error (.typeMismatch "age" .number) := by decide +kernel
  have hprovides : Record.Provides (.ofList [("age", .text " 35 "), ("department", .text "Sales")])
      schema := by
    intro field kind hkind
    simp only [schema, Schema.ofList, List.foldl_cons, List.foldl_nil, Schema.kindOf?_declare,
      Schema.kindOf?_empty] at hkind
    split at hkind
    · subst field
      obtain rfl := Option.some.inj hkind
      exact ⟨.text "Sales", by decide +kernel, by decide +kernel⟩
    split at hkind
    · subst field
      obtain rfl := Option.some.inj hkind
      exact ⟨.text " 35 ", by decide +kernel, by decide +kernel⟩
    · cases hkind
  have hmain := blames_of_build (b := b) rfl hbuild
  obtain ⟨v, hv, -⟩ := (hmain _).2.2 hprovides
  exact ⟨_, hbuild, rfl, herror, (hmain _).1 _ herror, v, hv⟩

end Builder

end RuleSet

end Eligibility
