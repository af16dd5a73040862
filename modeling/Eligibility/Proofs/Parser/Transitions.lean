import Eligibility.Proofs.Except
import Eligibility.Proofs.Parser.Run

/-!
# The transitions of the reader

## Main definitions

* `ParseState.Steps` : the transitions of the reader, one constructor for each.

## Main results

* `ParseState.steps_of_step` : the reader makes no other transitions.
* `ParseState.finish_eq_ok` : where it may end.
-/

namespace Eligibility

namespace ParseState

/-- The transitions of the reader. -/
inductive Steps (limits : Limits) : ParseState → Located → ParseState → Prop
  /-- A negation that waits for its operand. -/
  | not {outer : List Enclosing} {level : Level} {i : Nat} :
    (awaiting outer level).depth < limits.maxDepth.toNat →
    Steps limits (awaiting outer level) ⟨.not, i⟩
      (awaiting outer { level with negations := i :: level.negations })
  /-- A group opens. -/
  | lparen {outer : List Enclosing} {level : Level} {i : Nat} :
    (awaiting outer level).depth < limits.maxDepth.toNat →
    Steps limits (awaiting outer level) ⟨.lparen, i⟩ (awaiting (⟨level, i⟩ :: outer) {})
  /-- A comparison starts. -/
  | ident {outer : List Enclosing} {level : Level} {field : String} {i : Nat} :
    Steps limits (awaiting outer level) ⟨.ident field, i⟩ ⟨outer, level, .operator field i⟩
  /-- A comparison goes on. -/
  | op {outer : List Enclosing} {level : Level} {field : String} {i j : Nat} {o : CompareOp} :
    Steps limits ⟨outer, level, .operator field i⟩ ⟨.op o, j⟩ ⟨outer, level, .literal field i o⟩
  /-- A comparison with a number ends. -/
  | number {outer : List Enclosing} {level : Level} {field : String} {i j : Nat} {o : CompareOp}
    {x : Binary64} {s : ParseState} :
    complete limits outer level (.ofExpr (.compare field o (.number x))) = .ok s →
    Steps limits ⟨outer, level, .literal field i o⟩ ⟨.number x, j⟩ s
  /-- A comparison with a text ends. -/
  | text {outer : List Enclosing} {level : Level} {field : String} {i j : Nat} {o : CompareOp}
    {v : String} {s : ParseState} :
    complete limits outer level (.ofExpr (.compare field o (.text v))) = .ok s →
    Steps limits ⟨outer, level, .literal field i o⟩ ⟨.text v, j⟩ s
  /-- A conjunction goes on. -/
  | and {outer : List Enclosing} {level : Level} {t : Subtree} {i : Nat} :
    Steps limits (holding outer level t) ⟨.and, i⟩ (awaiting outer ⟨level.disjunction,
      some (.extend .and limits.maxHeight level.conjunction t i), level.negations⟩)
  /-- A disjunction goes on. -/
  | or {outer : List Enclosing} {level : Level} {t last : Subtree} {i : Nat} :
    Chain.close .and limits.maxHeight level.conjunction t = .ok last →
    Steps limits (holding outer level t) ⟨.or, i⟩ (awaiting outer
      ⟨some (.extend .or limits.maxHeight level.disjunction last i), none, []⟩)
  /-- A group ends. -/
  | rparen {enclosing : Enclosing} {outer : List Enclosing} {level : Level} {t whole : Subtree}
    {i : Nat} {s : ParseState} :
    level.close limits t = .ok whole → complete limits outer enclosing.level whole = .ok s →
    Steps limits (holding (enclosing :: outer) level t) ⟨.rparen, i⟩ s

variable {limits : Limits} {s s' : ParseState} {u : Located}

theorem completeComparison_eq_ok {field : String} {offset : Nat} {op : CompareOp} {v : Value}
    (h : s.completeComparison limits field offset op v = .ok s') :
    complete limits s.outer s.level (.ofExpr (.compare field op v)) = .ok s' := by
  unfold completeComparison at h
  split at h
  · exact h
  · cases h

/-- After a complete operand every token but a connective ends the level. -/
theorem steps_of_close {outer : List Enclosing} {level : Level} {t : Subtree} {token : Token}
    {i : Nat} (hand : token ≠ .and) (hor : token ≠ .or)
    (h : (holding outer level t).step limits ⟨token, i⟩ = .ok s') :
    Steps limits (holding outer level t) ⟨token, i⟩ s' := by
  cases token with
  | and => exact absurd rfl hand
  | or => exact absurd rfl hor
  | rparen =>
    obtain ⟨whole, hclose, h⟩ := Except.bind_eq_ok_iff.1 h
    cases outer with
    | nil => cases h
    | cons enclosing outer => exact .rparen hclose h
  | ident | number | text | op | not | lparen =>
    obtain ⟨whole, -, h⟩ := Except.bind_eq_ok_iff.1 h
    cases outer <;> cases h

/-- **The reader makes no other transitions.** -/
theorem steps_of_step (h : s.step limits u = .ok s') : Steps limits s u s' := by
  obtain ⟨outer, level, phase⟩ := s
  obtain ⟨token, i⟩ := u
  cases phase with
  | operand =>
    cases token with
    | not =>
      have h := (step_not outer level i).symm.trans h
      split at h
      · cases h
        exact .not ‹_›
      · cases h
    | lparen =>
      have h := (step_lparen outer level i).symm.trans h
      split at h
      · cases h
        exact .lparen ‹_›
      · cases h
    | ident field =>
      cases h
      exact .ident
    | number | text | op | and | or | rparen => cases h
  | operator field j =>
    cases token with
    | op o =>
      cases h
      exact .op
    | ident | number | text | and | or | not | lparen | rparen => cases h
  | literal field j o =>
    cases token with
    | number x => exact .number (completeComparison_eq_ok h)
    | text v => exact .text (completeComparison_eq_ok h)
    | ident | op | and | or | not | lparen | rparen => cases h
  | complete t =>
    cases token with
    | and =>
      cases h
      exact .and
    | or =>
      have h := (step_or outer level t i).symm.trans h
      obtain ⟨last, hclose, h⟩ := Except.bind_eq_ok_iff.1 h
      cases h
      exact .or hclose
    | ident | number | text | op | not | lparen | rparen =>
      exact steps_of_close Token.noConfusion Token.noConfusion h

/-- The reader may end where an operand is complete and no group is open. -/
theorem finish_eq_ok {stop : Nat} {e : Expr} (h : s.finish limits stop = .ok e) :
    ∃ level t whole, s = holding [] level t ∧ level.close limits t = .ok whole ∧
      whole.expr = e := by
  obtain ⟨outer, level, phase⟩ := s
  cases phase with
  | operand | operator | literal => cases h
  | complete t =>
    obtain ⟨whole, hclose, h⟩ := Except.bind_eq_ok_iff.1 h
    cases outer with
    | nil => exact ⟨level, t, whole, rfl, hclose, Except.ok.inj h⟩
    | cons => cases h

end ParseState

end Eligibility
