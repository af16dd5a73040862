import Eligibility.Proofs.Expr.Comparisons
import Eligibility.Proofs.RuleSet.Checked

/-!
# What the check of a schema says about records

A schema speaks of records: they have exactly the declared fields, each with a value of the declared
kind.  Its check only looks at the comparisons of an expression.  What it lets through has a verdict
on all these records, and every comparison that it objects to fails on one of them.  A single record
is enough for that: it has the number zero and the empty text, which is no numeral.

## Main definitions

* `Record.ConformsTo` : a record has exactly the declared fields, with values of the declared kinds.
* `Comparison.DecidedUnder` : a comparison has a verdict on every record that conforms to a schema.
* `Schema.plainRecord` : the conforming record on which every other comparison fails.

## Main results

* `Comparison.exists_verdict_iff` : which comparisons have a verdict on a record.
* `Schema.check_toExpr_eq_ok_iff` : **the check of a comparison is exact.**
* `Schema.check_eq_forM` : the check of an expression is a pass over its comparisons.
* `Schema.check_eq_ok_iff_and_eq_error_iff` : **the check of an expression is exact, and reports the
  leftmost fault.**
-/

namespace Eligibility

/-! ### Records and schemas -/

/-- The record has exactly the declared fields, each with a value of the declared kind. -/
def Record.ConformsTo (record : Record) (schema : Schema) : Prop :=
  ∀ field, (record.get? field).map Value.kind = schema.kindOf? field

theorem Value.readableAs_kind (v : Value) : v.ReadableAs v.kind := by
  cases v <;> exact Option.some_ne_none _

/-- A value of the kind that cannot be read as one of the other kind. -/
def Kind.plain : Kind → Value
  | number => .number ⟨0⟩
  | text => .text ""

@[simp] theorem Kind.kind_plain (k : Kind) : k.plain.kind = k := by
  cases k <;> rfl

theorem Kind.readableAs_plain_iff {k k' : Kind} : k.plain.ReadableAs k' ↔ k = k' := by
  cases k <;> cases k' <;> decide +kernel

/-- The record with a plain value in each declared field. -/
def Schema.plainRecord (schema : Schema) : Record :=
  ⟨schema.kinds.map fun _ k => k.plain⟩

variable {schema : Schema} {record : Record}

theorem Schema.get?_plainRecord (field : String) :
    schema.plainRecord.get? field = (schema.kindOf? field).map Kind.plain := by
  rw [Record.get?, plainRecord, Std.TreeMap.getElem?_map]
  rfl

theorem Schema.conformsTo_plainRecord (schema : Schema) : schema.plainRecord.ConformsTo schema := by
  intro field
  rw [get?_plainRecord, Option.map_map]
  cases schema.kindOf? field with
  | none => rfl
  | some k => exact congrArg some k.kind_plain

/-! ### Comparisons -/

/-- A comparison of a value has a verdict if the value is readable as the kind of the literal and
texts are not ordered. -/
theorem Expr.exists_verdictOn_iff {field : String} {op : CompareOp} {actual literal : Value} :
    (∃ v, verdictOn field op actual literal = .ok v) ↔
      actual.ReadableAs literal.kind ∧ (literal.kind = .text → op.isOrdering = false) := by
  cases literal with
  | number x =>
    show _ ↔ actual.asNumber? ≠ none ∧ _
    cases hread : actual.asNumber? <;> simp [verdictOn, hread]
  | text s =>
    show _ ↔ actual.asText? ≠ none ∧ _
    cases hop : op.isOrdering <;> cases hread : actual.asText? <;> simp [verdictOn, hop, hread]

namespace Comparison

variable {c : Comparison}

/-- A comparison has a verdict on a record if the field is there, and readable as the kind of the
literal, and texts are not ordered. -/
theorem exists_verdict_iff : (∃ v, c.verdict record = .ok v) ↔
    (∃ actual, record.get? c.field = some actual ∧ actual.ReadableAs c.literal.kind) ∧
      (c.literal.kind = .text → c.op.isOrdering = false) := by
  unfold verdict Expr.verdict
  cases record.get? c.field with
  | none => simp
  | some actual =>
    refine Expr.exists_verdictOn_iff.trans (and_congr_left' ?_)
    simp

/-- The comparison as an expression. -/
def toExpr (c : Comparison) : Expr :=
  .compare c.field c.op c.literal

/-- The comparison has a verdict on every record that conforms to the schema. -/
def DecidedUnder (c : Comparison) (schema : Schema) : Prop :=
  ∀ record : Record, record.ConformsTo schema → ∃ v, c.verdict record = .ok v

end Comparison

namespace Schema

/-- **The check of a comparison is exact**: there is no objection to it if and only if it has a
verdict on every conforming record. -/
theorem check_toExpr_eq_ok_iff {c : Comparison} :
    schema.check c.toExpr = .ok () ↔ c.DecidedUnder schema := by
  show schema.checkComparison c.field c.op c.literal = .ok () ↔ _
  rw [checkComparison_eq_ok_iff]
  constructor
  · rintro ⟨hkind, hop⟩ record hrecord
    refine Comparison.exists_verdict_iff.2 ⟨?_, hop⟩
    have hfield := hrecord c.field
    rw [hkind, Option.map_eq_some_iff] at hfield
    obtain ⟨actual, hactual, hkind⟩ := hfield
    rw [← hkind]
    exact ⟨actual, hactual, actual.readableAs_kind⟩
  · intro h
    -- on the plain record a value is readable as no kind but the declared one
    obtain ⟨⟨actual, hactual, hread⟩, hop⟩ :=
      Comparison.exists_verdict_iff.1 (h _ schema.conformsTo_plainRecord)
    rw [get?_plainRecord, Option.map_eq_some_iff] at hactual
    obtain ⟨k, hk, rfl⟩ := hactual
    rw [Kind.readableAs_plain_iff.1 hread] at hk
    exact ⟨hk, hop⟩

/-! ### Expressions -/

/-- The check of an expression is a pass over its comparisons, from left to right. -/
theorem check_eq_forM (schema : Schema) (e : Expr) :
    schema.check e = e.comparisons.forM fun c => schema.check c.toExpr := by
  induction e using Expr.induction_join with
  | compare field op literal =>
    show schema.checkComparison field op literal =
      (schema.checkComparison field op literal >>= fun _ => .ok ())
    cases schema.checkComparison field op literal <;> rfl
  | join c l r hl hr =>
    rw [check_join, hl, hr, Expr.comparisons_join]
    exact List.forM_append.symm
  | not e he => exact he

/-- **The check of an expression is exact, and reports the leftmost fault.**  There is no objection
to an expression if and only if each of its comparisons has a verdict on every record with exactly
the declared fields and values of the declared kinds.  Otherwise the objection is the one to the
first comparison that fails on such a record, whatever stands to its right. -/
theorem check_eq_ok_iff_and_eq_error_iff (schema : Schema) (e : Expr) :
    (schema.check e = .ok () ↔ ∀ record : Record, record.ConformsTo schema →
      ∀ c ∈ e.comparisons, ∃ v, c.verdict record = .ok v) ∧
    ∀ err, schema.check e = .error err ↔ ∃ before c after, e.comparisons = before ++ c :: after ∧
      (∀ b ∈ before, b.DecidedUnder schema) ∧ ¬c.DecidedUnder schema ∧
        schema.check c.toExpr = .error err := by
  constructor
  · rw [check_eq_forM, Except.forM_eq_ok_iff]
    simp only [check_toExpr_eq_ok_iff]
    exact ⟨fun h record hrecord c hc => h c hc record hrecord,
      fun h c hc record hrecord => h record hrecord c hc⟩
  · intro err
    rw [check_eq_forM, Except.forM_eq_error_iff]
    simp only [check_toExpr_eq_ok_iff]
    constructor
    · rintro ⟨before, c, after, hsplit, hbefore, hc⟩
      refine ⟨before, c, after, hsplit, hbefore, fun hdecided => ?_, hc⟩
      rw [← check_toExpr_eq_ok_iff, hc] at hdecided
      cases hdecided
    · rintro ⟨before, c, after, hsplit, hbefore, -, hc⟩
      exact ⟨before, c, after, hsplit, hbefore, hc⟩

/-- An order of texts with a number counts as a fault in the kind, and hides what comes later. -/
example : eligibility.check (.or (.not (.compare "department" .gt (.number ⟨0⟩)))
    (.compare "rank" .eq (.text "a"))) = .error (.kindMismatch "department" .text .number) := by
  decide +kernel

end Schema

end Eligibility
