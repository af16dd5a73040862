import Eligibility.Proofs.Except
import Eligibility.Proofs.Expr.Same
import Eligibility.Proofs.Parser.Exact
import Eligibility.Proofs.Token.Writable
import Eligibility.RuleSet.Basic

/-!
# What a rule promises

A rule is made of a name and a text.  Where an expression is given as well it is only compared with
what the text says, so a rule made of parts promises no less than one made of a text.

## Main definitions

* `Rule.WellFormed`, `RuleSet.WellFormed` : the promise of a rule, and of a set of rules.

## Main results

* `Rule.wellFormed_of_ofSource` : **a rule that is made of a text keeps its promise.**
* `Rule.restore_eq_ok_iff` : which parts make up a rule.
* `Rule.WellFormed.restore_eq` : such a rule is restored from its own parts.
* `RuleSet.wellFormed_of_forall₂` : a set with one such rule for each of some things is such a set.
-/

namespace Eligibility

/-- What a rule promises: it has a name, its expression is what its text says under its limits, and
that expression is within the limits and can be written down. -/
structure Rule.WellFormed (rule : Rule) : Prop where
  name_ne : Text.trim rule.name ≠ ""
  parse_eq : Expr.parse rule.limits rule.source = .ok rule.expr
  height_le : rule.expr.height ≤ rule.limits.maxHeight.toNat
  representable : rule.expr.Representable

/-- What a set promises: it has a rule, and all its rules keep their promise. -/
structure RuleSet.WellFormed (s : RuleSet) : Prop where
  rules_ne : s.rules ≠ []
  rules : ∀ rule ∈ s.rules, rule.WellFormed

namespace Rule

variable {name source : String} {expr : Expr} {limits : Limits} {rule : Rule}

/-- Whatever a text is read as lies within the limits and can be written down. -/
theorem wellFormed_of_ofSource (h : ofSource name source limits = .ok rule) : rule.WellFormed := by
  obtain ⟨hname, hparse, rfl, rfl, rfl⟩ := ofSource_eq_ok_iff.1 h
  obtain ⟨ts, n, hscan, hder, -, hheight⟩ := Expr.parse_eq_ok_iff.1 hparse
  refine ⟨fun hblank => ?_, hparse, hheight, hder.representable (Token.writable_of_scan hscan)⟩
  exact hname ((Text.trim_eq_empty_iff _).1 hblank)

/-- Parts are restored if the text says the expression, up to the signs of zeros. -/
theorem restore_eq_ok_iff : restore name source expr limits = .ok rule ↔
    ofSource name source limits = .ok rule ∧ rule.expr.same expr = true := by
  unfold restore
  rw [Except.bind_eq_ok_iff]
  constructor
  · rintro ⟨rule', hsource, h⟩
    split at h
    · rename_i hsame
      obtain rfl := Except.ok.inj h
      exact ⟨hsource, hsame⟩
    · cases h
  · rintro ⟨hsource, hsame⟩
    exact ⟨rule, hsource, if_pos hsame⟩

theorem ofSource_of_restore (h : restore name source expr limits = .ok rule) :
    ofSource name source limits = .ok rule :=
  (restore_eq_ok_iff.1 h).1

/-- **A rule that keeps its promise is restored from its own parts.** -/
theorem WellFormed.restore_eq (h : rule.WellFormed) :
    restore rule.name rule.source rule.expr rule.limits = .ok rule := by
  have hname : ¬Text.IsBlank rule.name := by
    rw [← Text.trim_eq_empty_iff]
    exact h.name_ne
  have hsource : ofSource rule.name rule.source rule.limits = .ok rule :=
    ofSource_eq_ok_iff.2 ⟨hname, h.parse_eq, rfl, rfl, rfl⟩
  exact restore_eq_ok_iff.2 ⟨hsource, Expr.same_self h.representable⟩

end Rule

/-- A set whose rules come one by one of a list that is not empty keeps its promise if they do. -/
theorem RuleSet.wellFormed_of_forall₂ {α : Type} {Gives : α → Rule → Prop} {as : List α}
    {s : RuleSet} (h : List.Forall₂ Gives as s.rules) (hne : as ≠ [])
    (hgives : ∀ a ∈ as, ∀ rule, Gives a rule → rule.WellFormed) : s.WellFormed := by
  constructor
  · intro hnil
    rw [hnil, List.forall₂_nil_right_iff] at h
    exact hne h
  · intro rule hrule
    obtain ⟨a, ha, hrule⟩ := exists_of_mem_forall₂ h hrule
    exact hgives a ha rule hrule

end Eligibility
