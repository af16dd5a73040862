import Eligibility.Proofs.Rule.Promise
import Eligibility.Stored.Payload

/-!
# Which stored sets are restored

A stored set is checked before its rules are made, and making a rule reads its text again.  The
check of names, fields and numbers only finds what the second reading would have found as well: a
condition that agrees with a text has field names and finite numbers, since no text has others.

## Main definitions

* `StoredRule.Restores r rule` : the parts of a stored rule make up a rule.
* `StoredSet.Admits stored s` : what a stored set has to be like to be restored as `s`.

## Main results

* `StoredSet.validateCondition_of_toExpr?` : a condition of what can be written down passes its
  check.
* `StoredSet.restore_eq_ok_iff` : **a stored set is restored exactly if its count is right, it is
  not empty and the parts of all its rules make up rules.**
-/

namespace Eligibility

/-- The parts of a stored rule make up a rule: no chain of its condition is empty, and the
expression of the condition is what the text says within the stored limits. -/
def StoredRule.Restores (r : StoredRule) (rule : Rule) : Prop :=
  ∃ e, r.condition.toExpr? = some e ∧ Rule.restore r.name r.source e r.limits = .ok rule

/-- What a stored set has to be like to be restored as `s`. -/
structure StoredSet.Admits (stored : StoredSet) (s : RuleSet) : Prop where
  count_eq : stored.ruleCount = stored.rules.length
  count_pos : 1 ≤ stored.rules.length
  restores : List.Forall₂ StoredRule.Restores stored.rules s.rules
  combine_eq : s.combine = stored.combine

/-- The text of a rule is read again, so the rule keeps its promise. -/
theorem StoredRule.Restores.wellFormed {r : StoredRule} {rule : Rule} (h : r.Restores rule) :
    rule.WellFormed := by
  obtain ⟨e, -, hrestore⟩ := h
  exact Rule.wellFormed_of_ofSource (Rule.ofSource_of_restore hrestore)

theorem StoredSet.Admits.wellFormed {stored : StoredSet} {s : RuleSet} (h : stored.Admits s) :
    s.WellFormed := by
  have hne : stored.rules ≠ [] := List.length_pos_iff.1 h.count_pos
  exact RuleSet.wellFormed_of_forall₂ h.restores hne fun r _ rule hrule => hrule.wellFormed

theorem Connective.representable_join {k : Connective} {l r : Expr} :
    (k.join l r).Representable ↔ l.Representable ∧ r.Representable := by
  cases k <;> exact Iff.rfl

theorem Token.IsWord.ne_empty {name : String} (h : IsWord name) : name ≠ "" := by
  obtain ⟨c, cs, hname, -⟩ := h
  rintro rfl
  cases hname

namespace StoredSet

/-! ### The check finds nothing in what can be written down -/

theorem validateComparison_of_representable {field : String} {literal : Value}
    (hfield : Token.IsWord field) (hliteral : literal.Representable) :
    validateComparison field literal = .ok () := by
  cases literal with
  | number x =>
    have hfinite : x.isFinite = true := hliteral
    rw [validateComparison, if_neg hfield.ne_empty, if_pos hfinite]
  | text s => rw [validateComparison, if_neg hfield.ne_empty]

mutual

/-- **A condition of an expression that can be written down passes its check.** -/
theorem validateCondition_of_toExpr? : ∀ {c : Condition} {e : Expr}, c.toExpr? = some e →
    e.Representable → validateCondition c = .ok ()
  | .compare field op literal, e, h, he => by
    rw [Condition.toExpr?] at h
    obtain rfl := Option.some.inj h
    rw [validateCondition]
    exact validateComparison_of_representable he.1 he.2
  | .and cs, e, h, he => by
    rw [Condition.toExpr?] at h
    rw [validateCondition]
    exact validateChain_of_chain? h he
  | .or cs, e, h, he => by
    rw [Condition.toExpr?] at h
    rw [validateCondition]
    exact validateChain_of_chain? h he
  | .not c, e, h, he => by
    rw [Condition.toExpr?] at h
    obtain ⟨e', he', rfl⟩ := Option.map_eq_some_iff.1 h
    rw [validateCondition]
    exact validateCondition_of_toExpr? he' he

theorem validateChain_of_chain? {k : Connective} : ∀ {cs : List Condition} {e : Expr},
    Condition.chain? k cs = some e → e.Representable → validateChain cs = .ok ()
  | [], e, h, he => by
    rw [Condition.chain?] at h
    cases h
  | c :: cs, e, h, he => by
    rw [Condition.chain?] at h
    obtain ⟨first, hfirst, hrest⟩ := Option.bind_eq_some_iff.1 h
    obtain ⟨hrepresentable, hcs⟩ := validateConditions_of_extend? hrest he
    rw [validateChain, validateCondition_of_toExpr? hfirst hrepresentable]
    exact hcs

theorem validateConditions_of_extend? {k : Connective} : ∀ {cs : List Condition} {left e : Expr},
    Condition.extend? k left cs = some e → e.Representable →
      left.Representable ∧ validateConditions cs = .ok ()
  | [], left, e, h, he => by
    rw [Condition.extend?] at h
    obtain rfl := Option.some.inj h
    exact ⟨he, by rw [validateConditions]⟩
  | c :: cs, left, e, h, he => by
    rw [Condition.extend?] at h
    obtain ⟨right, hright, hrest⟩ := Option.bind_eq_some_iff.1 h
    obtain ⟨hjoin, hcs⟩ := validateConditions_of_extend? hrest he
    obtain ⟨hleft, hrepresentable⟩ := Connective.representable_join.1 hjoin
    rw [validateConditions, validateCondition_of_toExpr? hright hrepresentable]
    exact ⟨hleft, hcs⟩

end

/-- **The check of a rule finds nothing that making it would not have found.** -/
theorem validateRule_of_restores {r : StoredRule} {rule : Rule} (h : r.Restores rule) :
    validateRule r = .ok () := by
  have hread := h.wellFormed.representable
  obtain ⟨e, he, hrestore⟩ := h
  obtain ⟨hsource, hsame⟩ := Rule.restore_eq_ok_iff.1 hrestore
  have hname : ¬Text.IsBlank r.name := (Rule.ofSource_eq_ok_iff.1 hsource).1
  rw [validateRule, if_neg hname]
  exact validateCondition_of_toExpr? he (Expr.representable_of_same hsame hread)

/-! ### Restoring -/

theorem restoreRule_eq_ok_iff {r : StoredRule} {rule : Rule} :
    restoreRule r = .ok rule ↔ r.Restores rule := by
  unfold restoreRule
  constructor
  · intro h
    split at h
    · cases h
    rename_i e he
    split at h
    · rename_i hrestore
      obtain rfl := Except.ok.inj h
      exact ⟨e, he, hrestore⟩
    · cases h
  · rintro ⟨e, he, hrestore⟩
    simp only [he, hrestore]

theorem validate_eq_ok_iff {stored : StoredSet} :
    stored.validate = .ok () ↔ stored.ruleCount = stored.rules.length ∧
      1 ≤ stored.rules.length ∧ ∀ r ∈ stored.rules, validateRule r = .ok () := by
  unfold validate
  by_cases hcount : stored.ruleCount = stored.rules.length
  · rw [if_neg (not_not.2 hcount)]
    by_cases hempty : stored.rules.isEmpty = true
    · simp [hcount, List.isEmpty_iff.1 hempty]
    · have hpos : 1 ≤ stored.rules.length := by
        rw [List.isEmpty_iff, ← List.length_eq_zero_iff] at hempty
        omega
      rw [if_neg hempty, Except.forM_eq_ok_iff]
      simp only [hcount, hpos, true_and]
  · simp [hcount]

/-- **A stored set is restored exactly if its count is right, it is not empty and the parts of all
its rules make up rules.** -/
theorem restore_eq_ok_iff {stored : StoredSet} {s : RuleSet} :
    stored.restore = .ok s ↔ stored.Admits s := by
  unfold restore
  rw [Except.bind_eq_ok_iff]
  constructor
  · rintro ⟨_, hvalid, h⟩
    obtain ⟨rules, hrules, h⟩ := Except.bind_eq_ok_iff.1 h
    obtain rfl := Except.ok.inj h
    obtain ⟨hcount, hpos, -⟩ := validate_eq_ok_iff.1 hvalid
    refine ⟨hcount, hpos, ?_, rfl⟩
    exact (Except.mapM_eq_ok_iff.1 hrules).imp fun r rule => restoreRule_eq_ok_iff.1
  · intro h
    have hrules : stored.rules.mapM restoreRule = .ok s.rules :=
      Except.mapM_eq_ok_iff.2 (h.restores.imp fun r rule => restoreRule_eq_ok_iff.2)
    have hchecked := h.restores.imp fun r rule hrule =>
      And.intro (validateRule_of_restores hrule) hrule
    have hvalid : stored.validate = .ok () :=
      validate_eq_ok_iff.2 ⟨h.count_eq, h.count_pos, ((List.forall₂_and_left _ _).1 hchecked).1⟩
    refine ⟨(), hvalid, Except.bind_eq_ok_iff.2 ⟨s.rules, hrules, ?_⟩⟩
    rw [← h.combine_eq]
    rfl

theorem Admits.unique {stored : StoredSet} {s s' : RuleSet} (h : stored.Admits s)
    (h' : stored.Admits s') : s = s' :=
  Except.ok.inj ((restore_eq_ok_iff.2 h).symm.trans (restore_eq_ok_iff.2 h'))

end StoredSet

end Eligibility
