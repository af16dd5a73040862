import Eligibility.Proofs.Json.Lossless
import Eligibility.Proofs.Rule.Invariant
import Eligibility.Proofs.Stored.RoundTrip

/-!
# Parts of a rule that nobody vouches for

A name, a text, an expression and limits may come as a JSON object or out of a stored set, and
anybody may have written them.  The two readers look for different faults before they make a rule:
JSON has no form for numbers that are not finite, and storage is searched for blank names, nameless
fields and such numbers.  None of this matters in the end, since making the rule reads its text
again, and no text says any of it.

## Main definitions

* `Json.HoldsRule` : the fields of an object that hold given parts of a rule.

## Main results

* `Rule.ofJson_eq_ok_iff_restore`, `StoredSet.admits_single_iff` : what the two readers make of the
  same parts.
* `Rule.restored_alike` : **both readers make a rule of the same parts, and the same one.**
-/

namespace Eligibility

/-- The fields of an object hold these parts of a rule, in any order and among any others.  Default
limits may be left out. -/
structure Json.HoldsRule (fields : List (String × Json)) (name source : String) (expr : Expr)
    (limits : Limits) : Prop where
  name_eq : fields.lookup "name" = some (.string name)
  source_eq : fields.lookup "source" = some (.string source)
  expr_eq : fields.lookup "expr" = some expr.toJson
  limits_eq : fields.lookup "options" = some limits.toJson ∨
    fields.lookup "options" = none ∧ limits = {}

theorem Rule.holdsRule_toJson (r : Rule) :
    ∃ fields, r.toJson = .object fields ∧
      Json.HoldsRule fields r.name r.source r.expr r.limits :=
  ⟨_, rfl, rfl, rfl, rfl, .inl rfl⟩

variable {name source : String} {expr : Expr} {limits : Limits} {rule : Rule}

/-! ### Out of JSON -/

theorem Expr.Representable.finiteNumbers {e : Expr} (h : e.Representable) : e.FiniteNumbers := by
  induction e with
  | compare f op v =>
    cases v with
    | number x => exact h.2
    | text s => trivial
  | and l r hl hr => exact ⟨hl h.1, hr h.2⟩
  | or l r hl hr => exact ⟨hl h.1, hr h.2⟩
  | not e he => exact he h

/-- The limits of a rule are the given ones, or the default ones if none are given. -/
theorem Json.HoldsRule.part_limits {fields : List (String × Json)}
    (h : HoldsRule fields name source expr limits) :
    ∃ limits?, part fields "options" Limits.ofJson = .ok limits? ∧ limits?.getD {} = limits := by
  rcases h.limits_eq with hsome | ⟨hnone, rfl⟩
  · refine ⟨some limits, ?_, rfl⟩
    rw [part_of_lookup hsome, Limits.ofJson_toJson]
    rfl
  · exact ⟨none, part_of_lookup_none hnone, rfl⟩

namespace Rule

/-- The parts in an object are read, and then the rule is made of them. -/
theorem ofJson_object {fields : List (String × Json)}
    (h : Json.HoldsRule fields name source expr limits) :
    ofJson (.object fields) = Expr.ofJson expr.toJson >>= fun e =>
      (restore name source e limits).mapError .rule := by
  obtain ⟨limits?, hlimits, rfl⟩ := h.part_limits
  simp only [ofJson, Json.asString, hlimits, Json.part_of_lookup h.expr_eq,
    Json.part_of_lookup h.name_eq, Json.part_of_lookup h.source_eq, Except.ok_bind]
  cases Expr.ofJson expr.toJson <;> rfl

/-- A text says no numbers that are not finite. -/
theorem finiteNumbers_of_restore (h : restore name source expr limits = .ok rule) :
    expr.FiniteNumbers := by
  obtain ⟨hsource, hsame⟩ := restore_eq_ok_iff.1 h
  have hwellFormed := wellFormed_of_ofSource hsource
  exact (Expr.representable_of_same hsame hwellFormed.representable).finiteNumbers

/-- **A rule is read from JSON exactly if it is made of the parts.** -/
theorem ofJson_eq_ok_iff_restore {fields : List (String × Json)}
    (h : Json.HoldsRule fields name source expr limits) :
    ofJson (.object fields) = .ok rule ↔ restore name source expr limits = .ok rule := by
  rw [ofJson_object h, Except.bind_eq_ok_iff]
  simp only [Expr.ofJson, Expr.readJson_toJson_eq_ok_iff]
  constructor
  · rintro ⟨e, ⟨-, rfl⟩, hrestore⟩
    exact Except.eq_ok_of_mapError hrestore
  · intro hrestore
    refine ⟨expr, ⟨finiteNumbers_of_restore hrestore, rfl⟩, ?_⟩
    rw [hrestore]
    rfl

end Rule

/-! ### Out of storage -/

/-- **One stored rule is restored exactly if it is made of the parts.** -/
theorem StoredSet.admits_single_iff {combine : Combine} {s : RuleSet} :
    Admits ⟨1, combine, [⟨name, source, limits, .ofExpr expr⟩]⟩ s ↔
      ∃ rule, Rule.restore name source expr limits = .ok rule ∧ s = ⟨[rule], combine⟩ := by
  have hrestores : ∀ rule, StoredRule.Restores ⟨name, source, limits, .ofExpr expr⟩ rule ↔
      Rule.restore name source expr limits = .ok rule := by
    intro rule
    simp [StoredRule.Restores]
  constructor
  · rintro ⟨-, -, hrules, hcombine⟩
    obtain ⟨rules, combine'⟩ := s
    obtain ⟨rule, rules', hrule, hrest, rfl⟩ := List.forall₂_cons_left_iff.1 hrules
    obtain rfl := List.forall₂_nil_left_iff.1 hrest
    obtain rfl : combine' = combine := hcombine
    exact ⟨rule, (hrestores rule).1 hrule, rfl⟩
  · rintro ⟨rule, hrule, rfl⟩
    exact ⟨rfl, Nat.le_refl 1, .cons ((hrestores rule).2 hrule) .nil, rfl⟩

/-! ### Both -/

/-- **Both readers make a rule of the same parts, and the same one.**  From an object that holds the
parts, from the bytes of a set with that one rule and from the parts themselves a rule is made in
the same cases; its expression is what its text says and not the one that was given.  So a rule is
read back from the JSON that is written for it. -/
theorem Rule.restored_alike (name source : String) (expr : Expr) (limits : Limits) :
    (∀ fields, Json.HoldsRule fields name source expr limits → ∀ rule,
      ofJson (.object fields) = .ok rule ↔ restore name source expr limits = .ok rule) ∧
    (∀ (combine : Combine) (payload : List UInt8),
      payload = StoredSet.write ⟨1, combine, [⟨name, source, limits, .ofExpr expr⟩]⟩ →
      payload.length < UInt32.size → ∀ s,
      RuleSet.ofBytes ((Header.ofPayload payload).write ++ payload) = .ok s ↔
        ∃ rule, restore name source expr limits = .ok rule ∧ s = ⟨[rule], combine⟩) ∧
    (∀ rule, restore name source expr limits = .ok rule →
      rule.name = name ∧ rule.source = source ∧ rule.limits = limits ∧
        Expr.parse limits source = .ok rule.expr) ∧
    ∀ rule : Rule, rule.Obtainable → ofJson rule.toJson = .ok rule := by
  refine ⟨fun fields h rule => ofJson_eq_ok_iff_restore h, ?_, ?_, ?_⟩
  · rintro combine _ rfl hsize s
    have hcount : 1 < UInt64.size := by decide
    rw [RuleSet.ofBytes_eq_ok_iff_admits (RuleSet.payloadOf_append hsize) hcount
      (Nat.lt_trans hsize (by decide))]
    exact StoredSet.admits_single_iff
  · intro rule hrule
    obtain ⟨-, hparse, hname, hsource, hlimits⟩ := ofSource_eq_ok_iff.1 (ofSource_of_restore hrule)
    exact ⟨hname, hsource, hlimits, hparse⟩
  · intro rule hrule
    obtain ⟨fields, hfields, hholds⟩ := rule.holdsRule_toJson
    rw [hfields]
    exact (ofJson_eq_ok_iff_restore hholds).2 hrule.wellFormed.restore_eq

/-- Parts whose expression says minus zero where the text says zero. -/
theorem Rule.restored_alike_signed_zero :
    let given : Expr := .compare "a" .eq (.number ⟨0x8000000000000000⟩)
    let rule : Rule := ⟨"none", "a == 0", .compare "a" .eq (.number ⟨0⟩), ⟨0, 1⟩⟩
    let payload := StoredSet.write ⟨1, .any, [⟨"none", "a == 0", ⟨0, 1⟩, .ofExpr given⟩]⟩
    ofJson (.object [("expr", given.toJson), ("name", .string "none"),
        ("options", Limits.toJson ⟨0, 1⟩), ("source", .string "a == 0")]) = .ok rule ∧
      RuleSet.ofBytes ((Header.ofPayload payload).write ++ payload) = .ok ⟨[rule], .any⟩ ∧
      ofJson rule.toJson = .ok rule := by
  intro given rule payload
  have hrestore : restore "none" "a == 0" given ⟨0, 1⟩ = .ok rule := by decide +kernel
  obtain ⟨hjson, hbytes, -, hback⟩ := restored_alike "none" "a == 0" given ⟨0, 1⟩
  refine ⟨(hjson _ ⟨rfl, rfl, rfl, .inl rfl⟩ rule).2 hrestore, ?_, hback rule (.restore hrestore)⟩
  exact (hbytes .any payload rfl (by decide +kernel) _).2 ⟨rule, hrestore, rfl⟩

end Eligibility
