import Mathlib.Data.List.Basic

/-!
# The last setting counts

Much is built up step by step, and each step either sets a part of what is there or leaves the part
as it is.  What the part is in the end is then told by the last step that sets it, whatever else
happens before and after.

## Main results

* `foldl_part?`, `foldl_part` : **a part is what the last step that sets it says**, or what it was
  at the beginning; the first one is for parts that may be missing.
-/

namespace Eligibility

variable {σ κ α : Type} {step : σ → κ → σ} (setting? : κ → Option α)

/-- **A part that may be missing is what the last step that sets it says.** -/
theorem foldl_part? (part? : σ → Option α)
    (hpart : ∀ s k, part? (step s k) = (setting? k).or (part? s)) (ks : List κ) (s : σ) :
    part? (ks.foldl step s) = (ks.filterMap setting?).getLast?.or (part? s) := by
  induction ks generalizing s with
  | nil => rfl
  | cons k ks ih =>
    rw [List.foldl_cons, ih, hpart, List.filterMap_cons]
    cases setting? k with
    | none => rfl
    | some a =>
      rw [List.getLast?_cons]
      cases (ks.filterMap setting?).getLast? <;> rfl

/-- **A part is what the last step that sets it says.** -/
theorem foldl_part (part : σ → α)
    (hpart : ∀ s k, part (step s k) = (setting? k).getD (part s)) (ks : List κ) (s : σ) :
    part (ks.foldl step s) = (ks.filterMap setting?).getLast?.getD (part s) := by
  have hsome : ∀ s k, some (part (step s k)) = (setting? k).or (some (part s)) := by
    intro s k
    rw [hpart]
    cases setting? k <;> rfl
  have hlast := foldl_part? setting? (fun s => some (part s)) hsome ks s
  cases h : (ks.filterMap setting?).getLast? <;> rw [h] at hlast <;> exact Option.some.inj hlast

end Eligibility
