import Eligibility.Proofs.Except
import Eligibility.Proofs.Parser.Places

/-!
# Where reading fails

Reading fails at a token or at the end of the text.  What it reports is that token, the end, or a
place that the reader remembers; which of them it is depends on the kind of the error.

## Main definitions

* `ParseError.IsLimit` : the errors that report a limit.
* `ParseState.Fails` : the ways in which one more token fails, one constructor for each.
* `ParseError.PointsAt limits stop ts err` : the place in `err` is the right one in `ts`.

## Main results

* `ParseState.fails_of_step` : the reader fails in no other ways.
* `ofTokens_eq_error` : reading fails at no tokens, at a token, or at the end.
* `pointsAt_of_ofTokens` : **an error of reading points at what it names.**
-/

namespace Eligibility

/-- The error reports a limit. -/
def ParseError.IsLimit (err : ParseError) : Prop :=
  ∃ limit, err.kind = .nestingTooDeep limit ∨ err.kind = .treeTooDeep limit

namespace ParseState

/-! ### Failures at a token -/

/-- The ways in which one more token fails. -/
inductive Fails (limits : Limits) : ParseState → Located → ParseError → Prop
  /-- Too much is open already. -/
  | nesting {outer : List Enclosing} {level : Level} {u : Located} :
    u.token = .lparen ∨ u.token = .not →
    limits.maxDepth.toNat ≤ (awaiting outer level).depth →
    Fails limits (awaiting outer level) u ⟨.nestingTooDeep limits.maxDepth, u.offset⟩
  /-- Something else has to come next. -/
  | unexpected {s : ParseState} {u : Located} (expected : Expected) :
    Fails limits s u ⟨.unexpected expected u.token, u.offset⟩
  /-- A comparison is complete, and nothing is within the limit. -/
  | comparison {outer : List Enclosing} {level : Level} {field : String} {op : CompareOp}
    {literal : Value} {i : Nat} {u : Located} :
    Derives .operand [.ident field, .op op, u.token] (.compare field op literal) 0 →
    limits.maxHeight.toNat = 0 →
    Fails limits ⟨outer, level, .literal field i op⟩ u ⟨.treeTooDeep limits.maxHeight, i⟩
  /-- A comparison is complete, and a negation before it is too high. -/
  | negation {outer : List Enclosing} {level : Level} {field : String} {op : CompareOp}
    {literal : Value} {i : Nat} {u : Located} {err : ParseError} :
    Derives .operand [.ident field, .op op, u.token] (.compare field op literal) 0 →
    1 ≤ limits.maxHeight.toNat →
    Level.negate limits level.negations (.ofExpr (.compare field op literal)) = .error err →
    Fails limits ⟨outer, level, .literal field i op⟩ u err
  /-- A conjunction ends before a disjunction goes on, and is too high. -/
  | conjunction {outer : List Enclosing} {level : Level} {t : Subtree} {u : Located}
    {err : ParseError} : u.token = .or →
    Chain.close .and limits.maxHeight level.conjunction t = .error err →
    Fails limits (holding outer level t) u err
  /-- A level ends, and is too high. -/
  | level {outer : List Enclosing} {level : Level} {t : Subtree} {u : Located}
    {err : ParseError} : u.token ≠ .and → u.token ≠ .or → level.close limits t = .error err →
    Fails limits (holding outer level t) u err
  /-- A group ends, and a negation before it is too high. -/
  | group {enclosing : Enclosing} {outer : List Enclosing} {level : Level} {t whole : Subtree}
    {u : Located} {err : ParseError} : u.token = .rparen → level.close limits t = .ok whole →
    Level.negate limits enclosing.level.negations whole = .error err →
    Fails limits (holding (enclosing :: outer) level t) u err
  /-- A parenthesis closes no group. -/
  | unmatchedParen {s : ParseState} {u : Located} : u.token = .rparen →
    Fails limits s u ⟨.unmatchedParen, u.offset⟩
  /-- Something follows a complete expression. -/
  | trailing {s : ParseState} {u : Located} : Fails limits s u ⟨.trailing u.token, u.offset⟩

variable {limits : Limits} {s : ParseState} {u : Located} {err : ParseError}

theorem complete_eq_error {outer : List Enclosing} {level : Level} {t : Subtree}
    (h : complete limits outer level t = .error err) :
    Level.negate limits level.negations t = .error err := by
  rw [complete_eq] at h
  exact Except.map_eq_error_iff.1 h

theorem fails_of_completeComparison {outer : List Enclosing} {level : Level} {field : String}
    {op : CompareOp} {literal : Value} {i : Nat}
    (hder : Derives .operand [.ident field, .op op, u.token] (.compare field op literal) 0)
    (h : completeComparison limits ⟨outer, level, .literal field i op⟩ field i op literal =
      .error err) : Fails limits ⟨outer, level, .literal field i op⟩ u err := by
  unfold completeComparison at h
  split at h
  · exact .negation hder ‹_› (complete_eq_error h)
  · obtain rfl := Except.error.inj h
    exact .comparison hder (by omega)

/-- After a complete operand every token but a connective ends the level. -/
theorem fails_of_close {outer : List Enclosing} {level : Level} {t : Subtree} {token : Token}
    {i : Nat} (hand : token ≠ .and) (hor : token ≠ .or)
    (h : (holding outer level t).step limits ⟨token, i⟩ = .error err) :
    Fails limits (holding outer level t) ⟨token, i⟩ err := by
  cases token with
  | and => exact absurd rfl hand
  | or => exact absurd rfl hor
  | rparen =>
    rcases Except.bind_eq_error_iff.1 h with hclose | ⟨whole, hclose, h⟩
    · exact .level hand hor hclose
    · cases outer with
      | nil =>
        obtain rfl := Except.error.inj h
        exact .unmatchedParen rfl
      | cons enclosing outer => exact .group rfl hclose (complete_eq_error h)
  | ident | number | text | op | not | lparen =>
    rcases Except.bind_eq_error_iff.1 h with hclose | ⟨whole, -, h⟩
    · exact .level hand hor hclose
    · cases outer with
      | nil =>
        obtain rfl := Except.error.inj h
        exact .trailing
      | cons enclosing outer =>
        obtain rfl := Except.error.inj h
        exact .unexpected .rparen

/-- **The reader fails in no other ways.** -/
theorem fails_of_step (h : s.step limits u = .error err) : Fails limits s u err := by
  obtain ⟨outer, level, phase⟩ := s
  obtain ⟨token, i⟩ := u
  cases phase with
  | operand =>
    cases token with
    | not =>
      have h := (step_not outer level i).symm.trans h
      split at h
      · cases h
      · obtain rfl := Except.error.inj h
        exact .nesting (.inr rfl) (Nat.le_of_not_lt ‹_›)
    | lparen =>
      have h := (step_lparen outer level i).symm.trans h
      split at h
      · cases h
      · obtain rfl := Except.error.inj h
        exact .nesting (.inl rfl) (Nat.le_of_not_lt ‹_›)
    | ident field => cases h
    | number | text | op | and | or | rparen =>
      obtain rfl := Except.error.inj h
      exact .unexpected _
  | operator field j =>
    cases token with
    | op o => cases h
    | ident | number | text | and | or | not | lparen | rparen =>
      obtain rfl := Except.error.inj h
      exact .unexpected _
  | literal field j o =>
    cases token with
    | number x => exact fails_of_completeComparison (.number field o x) h
    | text v => exact fails_of_completeComparison (.text field o v) h
    | ident | op | and | or | not | lparen | rparen =>
      obtain rfl := Except.error.inj h
      exact .unexpected _
  | complete t =>
    cases token with
    | and => cases h
    | or =>
      have h := (step_or outer level t i).symm.trans h
      rcases Except.bind_eq_error_iff.1 h with hclose | ⟨last, -, h⟩
      · exact .conjunction rfl hclose
      · cases h
    | ident | number | text | op | not | lparen | rparen =>
      exact fails_of_close Token.noConfusion Token.noConfusion h

/-! ### Failures at the end -/

theorem finish_eq_error {stop : Nat} (h : s.finish limits stop = .error err) :
    (∃ expected, err = ⟨.missing expected, stop⟩) ∨
    (∃ t, s.phase = .complete t ∧ s.level.close limits t = .error err) ∨
    ∃ enclosing ∈ s.outer, err = ⟨.unmatchedParen, enclosing.offset⟩ := by
  obtain ⟨outer, level, phase⟩ := s
  cases phase with
  | operand | operator | literal => exact .inl ⟨_, (Except.error.inj h).symm⟩
  | complete t =>
    rcases Except.bind_eq_error_iff.1 h with hclose | ⟨whole, -, h⟩
    · exact .inr (.inl ⟨t, rfl, hclose⟩)
    · cases outer with
      | nil => cases h
      | cons enclosing outer =>
        exact .inr (.inr ⟨enclosing, List.mem_cons_self, (Except.error.inj h).symm⟩)

/-- A run that fails does so at one of its tokens. -/
theorem run_eq_error {us : List Located} (h : s.run limits us = .error err) :
    ∃ before u after s', us = before ++ u :: after ∧ s.run limits before = .ok s' ∧
      s'.step limits u = .error err := by
  induction us generalizing s with
  | nil => cases h
  | cons u us ih =>
    rw [run_cons] at h
    rcases Except.bind_eq_error_iff.1 h with hstep | ⟨s', hstep, hrun⟩
    · exact ⟨[], u, us, s, rfl, rfl, hstep⟩
    · obtain ⟨before, v, after, s'', rfl, hrun, hfails⟩ := ih hrun
      exact ⟨u :: before, v, after, s'', rfl, (run_step hstep before).trans hrun, hfails⟩

end ParseState

open ParseState

variable {limits : Limits} {stop : Nat} {ts : List Located} {err : ParseError}

/-- Reading fails at no tokens, at a token, or at the end. -/
theorem ofTokens_eq_error (h : Expr.ofTokens limits stop ts = .error err) :
    (ts = [] ∧ err = ⟨.empty, 0⟩) ∨
    (∃ before u after s, ts = before ++ u :: after ∧ run limits {} before = .ok s ∧
      s.step limits u = .error err) ∨
    ∃ s, run limits {} ts = .ok s ∧ s.finish limits stop = .error err := by
  by_cases hne : ts = []
  · subst hne
    exact .inl ⟨rfl, (Except.error.inj h).symm⟩
  · rw [Expr.ofTokens_of_ne_nil hne] at h
    rcases Except.bind_eq_error_iff.1 h with hrun | hfinish
    · exact .inr (.inl (run_eq_error hrun))
    · exact .inr (.inr hfinish)

/-! ### What errors point at -/

/-- The place in an error of reading the tokens `ts`, which end at `stop`, is the right one. -/
inductive ParseError.PointsAt (limits : Limits) (stop : Nat) (ts : List Located) : ParseError → Prop
  /-- There are no tokens. -/
  | empty : ts = [] → PointsAt limits stop ts ⟨.empty, 0⟩
  /-- Something is missing at the end. -/
  | missing (expected : Expected) : PointsAt limits stop ts ⟨.missing expected, stop⟩
  /-- The token that has been found stands there. -/
  | unexpected (expected : Expected) {t : Located} : t ∈ ts →
    PointsAt limits stop ts ⟨.unexpected expected t.token, t.offset⟩
  /-- The token that has been found stands there. -/
  | trailing {t : Located} : t ∈ ts → PointsAt limits stop ts ⟨.trailing t.token, t.offset⟩
  /-- A parenthesis stands there. -/
  | unmatchedParen {t : Located} : t ∈ ts → t.token = .lparen ∨ t.token = .rparen →
    PointsAt limits stop ts ⟨.unmatchedParen, t.offset⟩
  /-- An opening parenthesis or a negation stands there, and exactly as many are open before it as
  there may be. -/
  | nestingTooDeep {before after : List Located} {t : Located} : ts = before ++ t :: after →
    t.token = .lparen ∨ t.token = .not →
    (Token.openAfter (before.map Located.token)).length = limits.maxDepth.toNat →
    PointsAt limits stop ts ⟨.nestingTooDeep limits.maxDepth, t.offset⟩
  /-- The topmost token of a part stands there that is one level too high. -/
  | treeTooDeep {i : Nat} : Outgrows limits.maxHeight.toNat ts i →
    PointsAt limits stop ts ⟨.treeTooDeep limits.maxHeight, i⟩

/-- An error at a token points at it, or at a place before it that the reader remembers. -/
theorem pointsAt_of_fails {before after : List Located} {u : Located} {s : ParseState}
    (h : s.After limits before) (hfails : Fails limits s u err) :
    err.PointsAt limits stop (before ++ u :: after) := by
  have hmem : u ∈ before ++ u :: after := List.mem_append_right _ List.mem_cons_self
  obtain ⟨⟨us, ws, rfl, hus, hws⟩, hnegations⟩ := h
  cases hfails with
  | nesting htoken hdepth =>
    cases hws with
    | operand =>
      have hopen := Nat.le_antisymm hus.depth_le hdepth
      rw [← hus.length_openAfter, ← List.append_nil us] at hopen
      exact .nestingTooDeep rfl htoken hopen
  | unexpected expected => exact .unexpected expected hmem
  | @comparison _ _ field op literal i _ hder hlimit =>
    cases hws with
    | @literal _ _ _ j =>
      have hsplit : us ++ [⟨.ident field, i⟩, ⟨.op op, j⟩] ++ u :: after =
          us ++ ⟨.ident field, i⟩ :: ([⟨.op op, j⟩, u] ++ after) := List.append_assoc ..
      exact .treeTooDeep (.comparison hsplit (hus.opens_of_limit_eq_zero hlimit) hder hlimit)
  | @negation outer level field op literal i _ _ hder hle hnegate =>
    cases hws with
    | @literal _ _ _ j =>
      have hws : Derives .negation
          (List.map Located.token ([⟨.ident field, i⟩, ⟨.op op, j⟩] ++ [u]))
          (Subtree.ofExpr (.compare field op literal)).expr 0 := .operand hder
      rw [List.append_cons, List.append_assoc us]
      rcases hus.negate hws hle after with ⟨t', _, _, _, hok, -⟩ | ⟨k, hnegate', houtgrows⟩
      · cases hok.symm.trans hnegate
      · obtain rfl := Except.error.inj (hnegate'.symm.trans hnegate)
        exact .treeTooDeep houtgrows
  | @conjunction outer level t _ _ htoken hclose =>
    cases hws with
    | complete hder hle =>
      obtain ⟨disjunction, conjunction, offsets⟩ := level
      obtain rfl : offsets = [] := hnegations t rfl
      rcases Enters.closeConjunction hus hder hle (u :: after) with
        ⟨last, _, _, _, hok, -⟩ | ⟨i, hclose', houtgrows⟩
      · cases hok.symm.trans hclose
      · obtain rfl := Except.error.inj (hclose'.symm.trans hclose)
        exact .treeTooDeep houtgrows
  | @level outer level t _ _ hand hor hclose =>
    cases hws with
    | complete hder hle =>
      have hends : Tier.disjunction.Ends ((u :: after).map Located.token) :=
        ⟨fun h => hand (Option.some.inj h), fun h => hor (Option.some.inj h)⟩
      rcases Enters.close hus (hnegations t rfl) hder hle hends with
        ⟨whole, _, _, _, hok, -⟩ | ⟨i, hclose', houtgrows⟩
      · cases hok.symm.trans hclose
      · obtain rfl := Except.error.inj (hclose'.symm.trans hclose)
        exact .treeTooDeep houtgrows
  | @group enclosing outer level t whole _ _ htoken hclose hnegate =>
    cases hws with
    | complete hder hle =>
      have hends : Tier.disjunction.Ends ((u :: after).map Located.token) := by
        rw [List.map_cons, htoken]
        exact Tier.ends_rparen _
      rcases Enters.close hus (hnegations t rfl) hder hle hends with
        ⟨whole', us', ws', m, hclose', happ, hus', hder, hle⟩ | ⟨i, hclose', -⟩
      · obtain rfl := Except.ok.inj (hclose'.symm.trans hclose)
        obtain ⟨vs, rfl, hvs⟩ := hus'.of_lparen
        have hgroup : Derives .negation
            (List.map Located.token (⟨.lparen, enclosing.offset⟩ :: ws' ++ [u])) whole'.expr
            (m + 1) := by
          rw [List.map_append, List.map_singleton, htoken]
          exact .operand hder.group
        rcases hvs.negate hgroup hle after with ⟨t', _, _, _, hok, -⟩ | ⟨k, hnegate', houtgrows⟩
        · cases hok.symm.trans hnegate
        · obtain rfl := Except.error.inj (hnegate'.symm.trans hnegate)
          refine .treeTooDeep ?_
          rw [happ]
          simpa only [List.append_assoc, List.cons_append, List.nil_append] using houtgrows
      · cases hclose'.symm.trans hclose
  | unmatchedParen htoken => exact .unmatchedParen hmem (.inr htoken)
  | trailing => exact .trailing hmem

/-- An error at the end points at the end, or at a place that the reader remembers. -/
theorem pointsAt_of_finish {s : ParseState} (h : s.After limits ts)
    (hfinish : s.finish limits stop = .error err) : err.PointsAt limits stop ts := by
  obtain ⟨⟨us, ws, rfl, hus, hws⟩, hnegations⟩ := h
  rcases finish_eq_error hfinish with ⟨expected, rfl⟩ | ⟨t, hphase, hclose⟩ | ⟨enclosing, hmem, rfl⟩
  · exact .missing expected
  · rw [hphase] at hws
    cases hws with
    | complete hder hle =>
      have hends : Tier.disjunction.Ends (List.map Located.token []) := Tier.ends_nil _
      rcases hus.close (hnegations t hphase) hder hle hends with
        ⟨whole, _, _, _, hok, -⟩ | ⟨i, hclose', houtgrows⟩
      · cases hok.symm.trans hclose
      · obtain rfl := Except.error.inj (hclose'.symm.trans hclose)
        rw [List.append_nil] at houtgrows
        exact .treeTooDeep houtgrows
  · exact .unmatchedParen (List.mem_append_left _ (hus.lparen_mem enclosing hmem)) (.inl rfl)

/-- **An error of reading points at what it names.** -/
theorem pointsAt_of_ofTokens (h : Expr.ofTokens limits stop ts = .error err) :
    err.PointsAt limits stop ts := by
  rcases ofTokens_eq_error h with ⟨hnil, rfl⟩ | ⟨before, u, after, s, rfl, hrun, hstep⟩ |
    ⟨s, hrun, hfinish⟩
  · exact .empty hnil
  · exact pointsAt_of_fails (after_of_run hrun) (fails_of_step hstep)
  · exact pointsAt_of_finish (after_of_run hrun) hfinish

end Eligibility
