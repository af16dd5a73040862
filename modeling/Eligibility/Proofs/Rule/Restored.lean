import Eligibility.Json.Encode
import Eligibility.Proofs.Expr.Views
import Eligibility.Proofs.Rule.Invariant
import Eligibility.Proofs.RuleSet.Checked

/-!
# A restored rule and the expression it was stored with

A rule is restored if its text says the stored expression, where numbers are compared by value, and
what it keeps is the expression of the text.  The two need not be the same: one may say zero where
the other says minus zero.  But a comparison does not tell such numbers apart, a schema only asks
for the kind of a literal, and no other part of an expression may differ at all.

## Main definitions

* `Expr.Alike` : two expressions differ at most in literals that no comparison tells apart.
* `Rule.BehavesAs` : a rule cannot be told from one with a given expression.

## Main results

* `Expr.alike_of_same` : expressions that are equal by value are alike.
* `Expr.Alike.evaluate_eq`, `Expr.Alike.check_eq`, `Expr.Alike.fields_eq` : what alike expressions
  have in common.
* `Rule.behavesAs_of_restored` : **a restored rule behaves as the expression that it was checked
  against**, wherever that came from.
-/

namespace Eligibility

/-! ### Literals -/

theorem Value.alike_of_same {v w : Value} (h : v.same w = true) : v.Alike w := by
  cases v with
  | number x =>
    cases w with
    | number y => exact .number (.inr h)
    | text t => cases h
  | text s =>
    cases w with
    | number y => cases h
    | text t =>
      obtain rfl : s = t := eq_of_beq h
      exact .text s

theorem Value.Alike.kind_eq {v w : Value} (h : v.Alike w) : v.kind = w.kind := by
  cases h <;> rfl

namespace Expr

/-- A comparison does not tell alike literals apart, whatever the value is. -/
theorem verdictOn_of_alike_literal {v w : Value} (h : v.Alike w) (field : String) (op : CompareOp)
    (actual : Value) : verdictOn field op actual v = verdictOn field op actual w := by
  cases h with
  | text s => rfl
  | number hxy =>
    simp only [verdictOn]
    cases actual.asNumber? with
    | none => rfl
    | some y => exact congrArg Except.ok (op.holds_of_alike (.refl y) hxy)

/-! ### Expressions -/

/-- Two expressions differ at most in literals that no comparison tells apart. -/
inductive Alike : Expr → Expr → Prop
  /-- Comparisons with alike literals. -/
  | compare (field : String) (op : CompareOp) {v w : Value} :
    v.Alike w → Alike (.compare field op v) (.compare field op w)
  /-- Alike operands under the same connective. -/
  | join (c : Connective) {l l' r r' : Expr} :
    Alike l l' → Alike r r' → Alike (c.join l r) (c.join l' r')
  /-- Alike operands under a negation. -/
  | not {e e' : Expr} : Alike e e' → Alike (.not e) (.not e')

variable {e e' : Expr}

/-- Expressions that are equal by value are alike. -/
theorem alike_of_same (h : e.same e' = true) : e.Alike e' := by
  fun_induction same e e' with
  | case1 field op v field' op' w =>
    simp only [Bool.and_eq_true, beq_iff_eq] at h
    obtain ⟨⟨rfl, rfl⟩, hliteral⟩ := h
    exact .compare field op (Value.alike_of_same hliteral)
  | case2 l r l' r' ihl ihr =>
    rw [Bool.and_eq_true] at h
    exact .join .and (ihl h.1) (ihr h.2)
  | case3 l r l' r' ihl ihr =>
    rw [Bool.and_eq_true] at h
    exact .join .or (ihl h.1) (ihr h.2)
  | case4 e e' ih => exact .not (ih h)
  | case5 => cases h

namespace Alike

/-- Alike expressions have the same verdict or the same error on every record. -/
theorem evaluate_eq (h : e.Alike e') (record : Record) :
    e.evaluate record = e'.evaluate record := by
  induction h with
  | compare field op hliteral =>
    rw [evaluate_compare, evaluate_compare, verdict, verdict]
    cases record.get? field with
    | none => rfl
    | some actual => exact verdictOn_of_alike_literal hliteral field op actual
  | join c _ _ hl hr => rw [evaluate_join, evaluate_join, hl, hr]
  | not _ he => rw [evaluate_not, evaluate_not, he]

/-- Every schema makes the same of alike expressions. -/
theorem check_eq (h : e.Alike e') (schema : Schema) : schema.check e = schema.check e' := by
  induction h with
  | compare field op hliteral =>
    show schema.checkComparison field op _ = schema.checkComparison field op _
    rw [Schema.checkComparison, Schema.checkComparison, hliteral.kind_eq]
  | join c _ _ hl hr => rw [Schema.check_join, Schema.check_join, hl, hr]
  | not _ he => exact he

/-- Alike expressions compare the same fields in the same order. -/
theorem fields_eq (h : e.Alike e') : e.fields = e'.fields := by
  induction h with
  | compare field op _ => rfl
  | join c _ _ hl hr => rw [fields_join, fields_join, hl, hr]
  | not _ he => exact he

end Alike

end Expr

/-! ### Rules -/

/-- The rule cannot be told from one with the given expression. -/
structure Rule.BehavesAs (rule : Rule) (e : Expr) : Prop where
  evaluate_eq : ∀ record, rule.evaluate record = e.evaluate record
  check_eq : ∀ schema, rule.check schema = schema.check e
  fields_eq : rule.expr.fields = e.fields
  height_eq : rule.expr.height = e.height

namespace Rule

theorem behavesAs_of_restore {name source : String} {expr : Expr} {limits : Limits} {rule : Rule}
    (h : restore name source expr limits = .ok rule) : rule.BehavesAs expr := by
  obtain ⟨-, hsame⟩ := restore_eq_ok_iff.1 h
  have halike := Expr.alike_of_same hsame
  exact ⟨halike.evaluate_eq, halike.check_eq, halike.fields_eq, Expr.height_eq_of_same hsame⟩

/-- **A restored rule behaves as the expression that it was checked against**: as the one it was
made of, as the one in the JSON object or array that it was read from, and as the one that the
stored condition says if it was loaded from bytes. -/
theorem behavesAs_of_restored :
    (∀ (name source : String) (expr : Expr) (limits : Limits) (rule : Rule),
      restore name source expr limits = .ok rule → rule.BehavesAs expr) ∧
    (∀ (j : Json) (rule : Rule), ofJson j = .ok rule → ∃ fields tree expr,
      j.fieldsUnder keys = some fields ∧ fields.lookup "expr" = some tree ∧
        Expr.ofJson tree = .ok expr ∧ rule.BehavesAs expr) ∧
    ∀ (bytes : List UInt8) (s : RuleSet), RuleSet.ofBytes bytes = .ok s →
      ∃ stored, StoredSet.Decodes (Header.statedPayload bytes) stored ∧
        List.Forall₂
          (fun (r : StoredRule) rule =>
            ∃ expr, r.condition.toExpr? = some expr ∧ rule.BehavesAs expr)
          stored.rules s.rules := by
  refine ⟨fun name source expr limits rule => behavesAs_of_restore, fun j rule h => ?_,
    fun bytes s h => ?_⟩
  · obtain ⟨fields, tree, name, source, expr, limits, hfields, htree, hread, hrestore⟩ :=
      exists_restore_of_ofJson h
    exact ⟨fields, tree, expr, hfields, htree, hread, behavesAs_of_restore hrestore⟩
  · have hagrees := RuleSet.ofBytes_agrees bytes
    rw [h] at hagrees
    obtain ⟨-, stored, hdecodes, hadmits⟩ := hagrees
    refine ⟨stored, hdecodes, hadmits.restores.imp fun r rule hrule => ?_⟩
    obtain ⟨expr, hexpr, hrestore⟩ := hrule
    exact ⟨expr, hexpr, behavesAs_of_restore hrestore⟩

/-- Parts, an object, an array and bytes that say minus zero where the text says zero. -/
theorem behavesAs_of_restored_minus_zero :
    let given : Expr := .compare "a" .le (.number ⟨0x8000000000000000⟩)
    let rule : Rule := ⟨"none", "a <= 0", .compare "a" .le (.number ⟨0⟩), {}⟩
    let object : Json := .object
      [("expr", given.toJson), ("name", .string "none"), ("source", .string "a <= 0")]
    let array : Json := .array [.string "none", .string "a <= 0", .array [.string "compare",
      .string "a", .string "<=", .number ⟨0x8000000000000000⟩], .array [.int 64]]
    let payload := StoredSet.write ⟨1, .any, [⟨"none", "a <= 0", {}, .ofExpr given⟩]⟩
    let bytes := (Header.ofPayload payload).write ++ payload
    rule.expr ≠ given ∧ rule.BehavesAs given ∧
      (ofJson object = .ok rule ∧ ∃ e, Expr.ofJson given.toJson = .ok e ∧ rule.BehavesAs e) ∧
      (ofJson array = .ok rule ∧ ∃ fields tree e, array.fieldsUnder keys = some fields ∧
        fields.lookup "expr" = some tree ∧ Expr.ofJson tree = .ok e ∧ rule.BehavesAs e) ∧
      RuleSet.ofBytes bytes = .ok ⟨[rule], .any⟩ ∧
      ∃ stored, StoredSet.Decodes (Header.statedPayload bytes) stored ∧
        stored.rules.length = 1 := by
  intro given rule object array payload bytes
  have hrestore : restore "none" "a <= 0" given {} = .ok rule := by decide +kernel
  have hjson : ofJson object = .ok rule := by decide +kernel
  have harray : ofJson array = .ok rule := by decide +kernel
  have hbytes : RuleSet.ofBytes bytes = .ok ⟨[rule], .any⟩ := by decide +kernel
  obtain ⟨hparts, hread, hload⟩ := behavesAs_of_restored
  obtain ⟨fields, tree, e, hfields, htree, htreeRead, hbehaves⟩ := hread object rule hjson
  obtain rfl := Option.some.inj hfields
  obtain rfl : given.toJson = tree := Option.some.inj htree
  obtain ⟨stored, hdecodes, hrules⟩ := hload bytes _ hbytes
  exact ⟨by decide, hparts _ _ given _ rule hrestore, ⟨hjson, e, htreeRead, hbehaves⟩,
    ⟨harray, hread array rule harray⟩, hbytes, stored, hdecodes, hrules.length_eq⟩

end Rule

end Eligibility
