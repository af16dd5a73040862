import Eligibility.Expr.Grammar

/-!
# Equality by value

Expressions are compared with their numbers by value, so that the two zeros are equal and a NaN
equals nothing.  For expressions that can be written down this is no loss: they hold no NaN.

## Main results

* `Expr.same_self` : an expression that can be written down equals itself.
* `Expr.representable_of_same`, `Expr.height_eq_of_same` : what equal expressions have in common.
-/

namespace Eligibility

namespace Binary64

theorem natAbs_key (x : Binary64) : x.key.natAbs = x.magnitude := by
  unfold key
  split <;> omega

theorem isFinite_of_same {x y : Binary64} (h : x.same y = true) (hx : x.isFinite = true) :
    y.isFinite = true := by
  simp only [same, Bool.and_eq_true, beq_iff_eq] at h
  have hmagnitude : x.magnitude = y.magnitude := by
    rw [← natAbs_key, ← natAbs_key, h.2]
  rwa [isFinite, ← hmagnitude]

end Binary64

theorem Value.representable_of_same {v w : Value} (h : v.same w = true) (hv : v.Representable) :
    w.Representable := by
  cases v with
  | number x =>
    cases w with
    | number y => exact Binary64.isFinite_of_same h hv
    | text t => cases h
  | text s =>
    cases w with
    | number y => cases h
    | text t =>
      obtain rfl : s = t := eq_of_beq h
      exact hv

theorem Value.Representable.same_self {v : Value} (h : v.Representable) : v.same v = true := by
  cases v with
  | number x =>
    have hnan := Binary64.isNaN_eq_false_of_isFinite h
    rw [Value.same_number, Binary64.same_self, hnan]
    rfl
  | text s => rw [Value.same_text, beq_self_eq_true]

namespace Expr

variable {e e' : Expr}

/-- An expression that can be written down holds no NaN, so it equals itself. -/
theorem same_self (h : e.Representable) : e.same e = true := by
  induction e with
  | compare f op v => rw [same, beq_self_eq_true, beq_self_eq_true, h.2.same_self]; rfl
  | and l r hl hr => rw [same, hl h.1, hr h.2]; rfl
  | or l r hl hr => rw [same, hl h.1, hr h.2]; rfl
  | not e he => exact he h

theorem representable_of_same (h : e'.same e = true) (he' : e'.Representable) :
    e.Representable := by
  fun_induction same e' e with
  | case1 f op v g op' w =>
    simp only [Bool.and_eq_true, beq_iff_eq] at h
    obtain ⟨⟨rfl, -⟩, hvalue⟩ := h
    exact ⟨he'.1, Value.representable_of_same hvalue he'.2⟩
  | case2 l r l' r' ihl ihr | case3 l r l' r' ihl ihr =>
    rw [Bool.and_eq_true] at h
    exact ⟨ihl h.1 he'.1, ihr h.2 he'.2⟩
  | case4 e e' ih => exact ih h he'
  | case5 => cases h

theorem height_eq_of_same (h : e'.same e = true) : e'.height = e.height := by
  fun_induction same e' e with
  | case1 f op v g op' w => rw [height_compare, height_compare]
  | case2 l r l' r' ihl ihr =>
    rw [Bool.and_eq_true] at h
    rw [height_and, height_and, ihl h.1, ihr h.2]
  | case3 l r l' r' ihl ihr =>
    rw [Bool.and_eq_true] at h
    rw [height_or, height_or, ihl h.1, ihr h.2]
  | case4 e e' ih => rw [height_not, height_not, ih h]
  | case5 => cases h

end Expr

end Eligibility
