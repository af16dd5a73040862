import Eligibility.Proofs.Expr.Same
import Eligibility.Proofs.Parser.Exact
import Eligibility.Proofs.Render.Tokens
import Eligibility.Proofs.Token.Writable

/-!
# Reading back what is rendered

The text of an expression is read as that expression exactly if its names and literals can be
written down and it is within the limits.  That nothing else can come back equal needs no look at
what its text is cut into: whatever is read from a text can be written down, and equality of
expressions carries that over.

## Main results

* `Expr.parse_render_of_representable` : reading back succeeds within the limits.
* `Expr.parse_render_iff` : **reading back succeeds for the expressions that can be written down
  within the limits, and for no others.**
-/

namespace Eligibility

namespace Expr

variable {e e' : Expr} {limits : Limits}

/-- What the tokens of a rendered expression say is that expression, with its nesting. -/
theorem eq_of_derives_render {ts : List Located} {n : Nat} (h : e.Representable)
    (hscan : Token.scanText e.render = .ok ts)
    (hder : Derives .disjunction (ts.map Located.token) e' n) : e' = e ∧ n = e.nesting := by
  obtain ⟨us, hus, hrender⟩ := (scans_render h).scanText_eq
  obtain rfl : us = ts := Except.ok.inj (hrender.symm.trans hscan)
  rw [hus] at hder
  exact hder.unique (derives_disjunction (derives_tokens e))

/-- **The text of an expression is read as that expression**, if its names and literals can be
written down and it is within the limits. -/
theorem parse_render_of_representable (h : e.Representable)
    (hheight : e.height ≤ limits.maxHeight.toNat) (hnesting : e.nesting ≤ limits.maxDepth.toNat) :
    parse limits e.render = .ok e := by
  obtain ⟨us, hus, hscan⟩ := (scans_render h).scanText_eq
  have hder := derives_disjunction (derives_tokens e)
  rw [← hus] at hder
  exact parse_eq_ok_iff.2 ⟨us, e.nesting, hscan, hder, hnesting, hheight⟩

/-- **Reading back what is rendered succeeds for the expressions that can be written down within the
limits, and for no others.**  The text of an expression is read as an expression equal to it exactly
if each of its fields is a name other than a keyword, each number is finite and each text leaves one
of the quotes free, and neither its height nor its nesting exceeds the limits. -/
theorem parse_render_iff (limits : Limits) (e : Expr) :
    (∃ e', parse limits e.render = .ok e' ∧ e'.same e = true) ↔
      e.Representable ∧ e.height ≤ limits.maxHeight.toNat ∧
        e.nesting ≤ limits.maxDepth.toNat := by
  constructor
  · rintro ⟨e', hparse, hsame⟩
    obtain ⟨ts, n, hscan, hder, hn, hheight⟩ := parse_eq_ok_iff.1 hparse
    have hread := hder.representable (Token.writable_of_scan hscan)
    have h := representable_of_same hsame hread
    obtain ⟨-, rfl⟩ := eq_of_derives_render h hscan hder
    rw [height_eq_of_same hsame] at hheight
    exact ⟨h, hheight, hn⟩
  · rintro ⟨h, hheight, hnesting⟩
    exact ⟨e, parse_render_of_representable h hheight hnesting, same_self h⟩

end Expr

end Eligibility
