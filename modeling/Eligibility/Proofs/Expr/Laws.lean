import Eligibility.Proofs.Except
import Eligibility.Proofs.RuleSet.Chain
import Mathlib.Logic.Relation

/-!
# Boolean laws with errors

An operand has one of three results: it decides, it leaves the matter to the next operand, or it
fails.  Most laws of Boolean algebra hold of such results, errors included, as long as the operand
that is evaluated first stays the first one.  Each law is proved for results, with one of the two
connectives and its dual; from there it is carried to subexpressions, and along any number of
rewritings in either direction.

## Main definitions

* `Connective.dual` : the other connective.
* `Expr.Law` : one law, from its left side to its right side.
* `Expr.Rewrites` : one law at one place of an expression.
* `Expr.Convertible` : any number of laws at any places, in either direction.

## Main results

* `Connective.inTurn_self`, `Connective.inTurn_absorb`, `Connective.inTurn_distrib`,
  `Connective.map_not_inTurn` : the laws of two operands in turn.
* `Expr.Convertible.join`, `Expr.Convertible.not` : operands may be rewritten at the same time.
* `Expr.evaluate_eq_of_convertible` : **the laws hold in every context, errors included.**
-/

namespace Eligibility

/-! ### Results -/

namespace Connective

/-- The other connective. -/
def dual : Connective → Connective
  | and => or
  | or => and

variable (c : Connective) (x y z : Except EvalError Bool)

theorem decisive_dual : c.dual.decisive = !c.decisive := by
  cases c <;> rfl

/-- What decides one connective leaves the other one open. -/
@[simp] theorem inTurn_dual_decisive : c.dual.inTurn (.ok c.decisive) y = y := by
  refine inTurn_of_ne y ?_
  rw [decisive_dual]
  exact c.not_decisive_ne.symm

/-- What leaves one connective open decides the other one. -/
@[simp] theorem inTurn_dual_not_decisive :
    c.dual.inTurn (.ok !c.decisive) y = .ok !c.decisive := by
  rw [← decisive_dual, inTurn_decisive]

/-- A result is an error, or decides, or leaves the matter open. -/
theorem result_cases {motive : Except EvalError Bool → Prop}
    (error : ∀ err, motive (.error err)) (decides : motive (.ok c.decisive))
    (leaves : motive (.ok !c.decisive)) : motive x := by
  cases x with
  | error err => exact error err
  | ok v =>
    by_cases hv : v = c.decisive
    · rw [hv]
      exact decides
    · rw [Bool.eq_not.2 hv]
      exact leaves

theorem inTurn_self : c.inTurn x x = x := by
  cases x using c.result_cases with
  | error err => rfl
  | decides => rw [inTurn_decisive]
  | leaves => rw [inTurn_not_decisive]

theorem inTurn_absorb : c.inTurn x (c.dual.inTurn x y) = x := by
  cases x using c.result_cases with
  | error err => rfl
  | decides => rw [inTurn_decisive]
  | leaves => rw [inTurn_dual_not_decisive, inTurn_not_decisive]

theorem inTurn_distrib : c.inTurn x (c.dual.inTurn y z) =
    c.dual.inTurn (c.inTurn x y) (c.inTurn x z) := by
  cases x using c.result_cases with
  | error err => rfl
  | decides => simp only [inTurn_decisive, inTurn_dual_decisive]
  | leaves => simp only [inTurn_of_ne _ c.not_decisive_ne]

theorem map_not_inTurn : (c.inTurn x y).map (!·) = c.dual.inTurn (x.map (!·)) (y.map (!·)) := by
  cases x using c.result_cases with
  | error err => rfl
  | decides =>
    rw [inTurn_decisive]
    exact (c.inTurn_dual_not_decisive _).symm
  | leaves =>
    have hnot : (Except.ok !c.decisive : Except EvalError Bool).map (!·) = .ok c.decisive := by
      simp [Except.map]
    rw [inTurn_of_ne _ c.not_decisive_ne, hnot, inTurn_dual_decisive]

theorem map_not_map_not : (x.map (!·)).map (!·) = x := by
  cases x <;> simp [Except.map]

end Connective

/-! ### Expressions -/

namespace Expr

/-- One law, from its left side to its right side. -/
inductive Law : Expr → Expr → Prop
  /-- Three operands may be grouped from either end. -/
  | assoc (c : Connective) (a b d : Expr) : Law (c.join (c.join a b) d) (c.join a (c.join b d))
  /-- Two negations cancel. -/
  | not_not (a : Expr) : Law (.not (.not a)) a
  /-- A negation goes inside, and the operands keep their order. -/
  | not_join (c : Connective) (a b : Expr) : Law (.not (c.join a b)) (c.dual.join (.not a) (.not b))
  /-- The first operand goes to both operands of the second one. -/
  | distrib (c : Connective) (a b d : Expr) :
    Law (c.join a (c.dual.join b d)) (c.dual.join (c.join a b) (c.join a d))
  /-- An operand need not be repeated. -/
  | self (c : Connective) (a : Expr) : Law (c.join a a) a
  /-- The first operand absorbs a second one that starts with it. -/
  | absorb (c : Connective) (a b : Expr) : Law (c.join a (c.dual.join a b)) a

/-- One law at one place of an expression. -/
inductive Rewrites : Expr → Expr → Prop
  /-- At the root. -/
  | root {e e' : Expr} : Law e e' → Rewrites e e'
  /-- In a negated expression. -/
  | not {e e' : Expr} : Rewrites e e' → Rewrites (.not e) (.not e')
  /-- In a left operand. -/
  | left (c : Connective) {l l' : Expr} (r : Expr) : Rewrites l l' →
    Rewrites (c.join l r) (c.join l' r)
  /-- In a right operand. -/
  | right (c : Connective) (l : Expr) {r r' : Expr} : Rewrites r r' →
    Rewrites (c.join l r) (c.join l r')

/-- Any number of laws at any places, in either direction. -/
def Convertible : Expr → Expr → Prop :=
  Relation.EqvGen Rewrites

namespace Convertible

variable {e e' l l' r r' : Expr}

theorem refl (e : Expr) : e.Convertible e :=
  Relation.EqvGen.refl e

theorem law (h : Law e e') : e.Convertible e' :=
  Relation.EqvGen.rel e e' (.root h)

theorem trans {e'' : Expr} (h : e.Convertible e') (h' : e'.Convertible e'') : e.Convertible e'' :=
  Relation.EqvGen.trans e e' e'' h h'

theorem symm (h : e.Convertible e') : e'.Convertible e :=
  Relation.EqvGen.symm e e' h

/-- A context in which single rewritings can be made can take all of them. -/
theorem lift {f : Expr → Expr} (hf : ∀ e e', Rewrites e e' → Rewrites (f e) (f e'))
    (h : e.Convertible e') : (f e).Convertible (f e') := by
  induction h with
  | rel e e' hstep => exact .rel _ _ (hf e e' hstep)
  | refl e => exact .refl _
  | symm e e' _ ih => exact ih.symm
  | trans e e' e'' _ _ ih ih' => exact ih.trans ih'

protected theorem not (h : e.Convertible e') : (Expr.not e).Convertible (.not e') :=
  h.lift fun _ _ => .not

/-- Both operands may be rewritten. -/
theorem join (c : Connective) (hl : l.Convertible l') (hr : r.Convertible r') :
    (c.join l r).Convertible (c.join l' r') :=
  (hl.lift (f := fun e => c.join e r) fun _ _ => .left c r).trans
    (hr.lift fun _ _ => .right c l')

end Convertible

variable {e e' : Expr}

/-- The two sides of a law have the same result. -/
theorem Law.evaluate_eq (h : Law e e') (record : Record) :
    e.evaluate record = e'.evaluate record := by
  cases h with
  | assoc c a b d => simp only [evaluate_join, Connective.inTurn_assoc]
  | not_not => rw [evaluate_not, evaluate_not, Connective.map_not_map_not]
  | not_join c a b => simp only [evaluate_not, evaluate_join, Connective.map_not_inTurn]
  | distrib c a b d => simp only [evaluate_join, Connective.inTurn_distrib]
  | self c => rw [evaluate_join, Connective.inTurn_self]
  | absorb c a b => rw [evaluate_join, evaluate_join, Connective.inTurn_absorb]

/-- A law at any place of an expression leaves its result. -/
theorem Rewrites.evaluate_eq (h : Rewrites e e') (record : Record) :
    e.evaluate record = e'.evaluate record := by
  induction h with
  | root hlaw => exact hlaw.evaluate_eq record
  | not _ ih => rw [evaluate_not, evaluate_not, ih]
  | left c r _ ih => rw [evaluate_join, evaluate_join, ih]
  | right c l _ ih => rw [evaluate_join, evaluate_join, ih]

/-- **The Boolean laws hold in every context, errors included.**  Expressions that become each other
by rewriting subexpressions, any number of times and in either direction, have the same verdict or
the same error on every record. -/
theorem evaluate_eq_of_convertible (h : e.Convertible e') (record : Record) :
    e.evaluate record = e'.evaluate record := by
  induction h with
  | rel e e' hstep => exact hstep.evaluate_eq record
  | refl e => rfl
  | symm e e' _ ih => exact ih.symm
  | trans e e' e'' _ _ ih ih' => exact ih.trans ih'

/-- A conjunction of disjunctions that start with the same operand, under a negation: distribution
backwards, two laws inside, and the negation goes inside at last.  The second operand fails, on both
sides if the first one leaves it to be asked, and on neither if not. -/
theorem evaluate_eq_of_factored :
    let paid : Expr := .compare "paid" .eq (.text "yes")
    let missing : Expr := .compare "missing" .eq (.text "x")
    let long : Expr := .not (.and (.or paid missing) (.or paid (.not (.not missing))))
    let short : Expr := .and (.not paid) (.not missing)
    long.Convertible short ∧
      long.evaluate (.ofList [("paid", .text "no")]) = .error (.unknownField "missing") ∧
      short.evaluate (.ofList [("paid", .text "no")]) = .error (.unknownField "missing") ∧
      long.evaluate (.ofList [("paid", .text "yes")]) = .ok false ∧
      short.evaluate (.ofList [("paid", .text "yes")]) = .ok false := by
  intro paid missing long short
  have hfactor : (Expr.and (.or paid missing) (.or paid (.not (.not missing)))).Convertible
      (.or paid (.and missing (.not (.not missing)))) :=
    (Convertible.law (.distrib .or paid missing (.not (.not missing)))).symm
  have hcancel : (Expr.and missing (.not (.not missing))).Convertible (.and missing missing) :=
    .join .and (.refl missing) (.law (.not_not missing))
  have hinner : (Expr.and missing (.not (.not missing))).Convertible missing :=
    hcancel.trans (.law (.self .and missing))
  have houter : (Expr.or paid (.and missing (.not (.not missing)))).Convertible
      (.or paid missing) := .join .or (.refl paid) hinner
  have hconvertible : long.Convertible short :=
    (hfactor.trans houter).not.trans (.law (.not_join .or paid missing))
  have herror : short.evaluate (.ofList [("paid", .text "no")]) =
      .error (.unknownField "missing") := by decide +kernel
  have hok : short.evaluate (.ofList [("paid", .text "yes")]) = .ok false := by decide +kernel
  have heq := evaluate_eq_of_convertible hconvertible
  exact ⟨hconvertible, (heq _).trans herror, herror, (heq _).trans hok, hok⟩

end Expr

end Eligibility
