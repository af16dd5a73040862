import Eligibility.Proofs.Except
import Eligibility.RuleSet.Builder

/-!
# What a builder gives

A builder makes the rule of each item and shows it to the schema, if there is one.  It gives a set
only if there are items and all of this succeeds, and then the set has one rule for each item.

## Main definitions

* `RuleSet.Builder.Gives b item rule` : the builder has this rule for the item.

## Main results

* `RuleSet.Builder.build_eq_ok_iff` : **a set is built exactly if there are items and the builder
  has a rule for each.**
-/

namespace Eligibility

namespace RuleSet.Builder

/-- The builder has this rule for the item: it can be made, and the schema does not object to it. -/
structure Gives (b : Builder) (item : Item) (rule : Rule) : Prop where
  make_eq : make b.limits item = .ok rule
  check_eq : ∀ schema, b.schema = some schema → rule.check schema = .ok ()

/-- A schema lets a rule through as it is, or not at all. -/
theorem checked_eq_ok_iff {schema? : Option Schema} {rule rule' : Rule} :
    checked schema? rule = .ok rule' ↔
      rule = rule' ∧ ∀ schema, schema? = some schema → rule.check schema = .ok () := by
  cases schema? with
  | none =>
    rw [checked, Except.ok.injEq]
    exact ⟨fun h => ⟨h, nofun⟩, And.left⟩
  | some schema =>
    rw [checked]
    constructor
    · intro h
      split at h
      · rename_i hcheck
        refine ⟨Except.ok.inj h, fun schema' hschema => ?_⟩
        obtain rfl := Option.some.inj hschema
        exact hcheck
      · cases h
    · rintro ⟨rfl, hcheck⟩
      rw [hcheck schema rfl]

theorem gives_iff {b : Builder} {item : Item} {rule : Rule} :
    b.Gives item rule ↔ (make b.limits item >>= checked b.schema) = .ok rule := by
  rw [Except.bind_eq_ok_iff]
  constructor
  · intro h
    exact ⟨rule, h.make_eq, checked_eq_ok_iff.2 ⟨rfl, h.check_eq⟩⟩
  · rintro ⟨made, hmake, hchecked⟩
    obtain ⟨rfl, hcheck⟩ := checked_eq_ok_iff.1 hchecked
    exact ⟨hmake, hcheck⟩

/-- **A set is built exactly if there are items and the builder has a rule for each**, and then it
has these rules in order. -/
theorem build_eq_ok_iff {b : Builder} {s : RuleSet} :
    b.build = .ok s ↔ b.items.toList ≠ [] ∧ List.Forall₂ b.Gives b.items.toList s.rules ∧
      s.combine = b.combine := by
  have hmap : ∀ rules, (b.items.toList.mapM fun item => make b.limits item >>= checked b.schema) =
      .ok rules ↔ List.Forall₂ b.Gives b.items.toList rules := by
    intro rules
    rw [Except.mapM_eq_ok_iff]
    simp only [← gives_iff]
  have hempty : b.items.isEmpty = true ↔ b.items.toList = [] := by
    rw [Array.isEmpty_iff, Array.toList_eq_nil_iff]
  unfold build
  by_cases hitems : b.items.toList = []
  · rw [if_pos (hempty.2 hitems)]
    exact iff_of_false nofun fun h => h.1 hitems
  · rw [if_neg (mt hempty.1 hitems), Except.bind_eq_ok_iff]
    constructor
    · rintro ⟨rules, hrules, hset⟩
      obtain rfl := Except.ok.inj hset
      exact ⟨hitems, (hmap rules).1 hrules, rfl⟩
    · rintro ⟨-, hgives, hcombine⟩
      refine ⟨s.rules, (hmap s.rules).2 hgives, ?_⟩
      rw [← hcombine]
      rfl

end RuleSet.Builder

end Eligibility
