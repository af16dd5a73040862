import Eligibility.Expr.Parser
import Eligibility.Proofs.Grammar.Unambiguous

/-!
# Reading the tokens of a derivation

Tokens that say an expression are read to their end, unless a limit stands in the way, and then the
limit that is reported is one that the tokens really exceed.  The statement for each level of
precedence says what the tokens of a derivation do to a reader that waits for an operand of that
level: an operand or a negation is completed, while a chain is left open at its last operand,
because only the next token tells whether the chain goes on.

A chain that is too high is not refused before it ends, so an open chain may carry a fault; it
carries one exactly if its expression is too high.

## Main definitions

* `ParseState.run` : reading several tokens.
* `ParseError.Exceeds limits n h e` : `e` reports a limit that nesting `n` or height `h` exceeds.
* `Chain.Completes`, `Level.Completes` : what an open chain or level says with its last operand.
* `Reads limits tier ts e n` : what the tokens of a derivation do to the reader.

## Main results

* `Derives.reads` : the tokens of every derivation do that.
* `ofTokens_of_derives` : the outcome for a whole text.
-/

namespace Eligibility

/-! ### Reading several tokens -/

namespace ParseState

/-- The state after several tokens. -/
def run (limits : Limits) (s : ParseState) (ts : List Located) : Except ParseError ParseState :=
  ts.foldlM (step limits) s

@[simp] theorem run_nil (limits : Limits) (s : ParseState) : s.run limits [] = .ok s := rfl

@[simp] theorem run_cons (limits : Limits) (s : ParseState) (t : Located) (ts : List Located) :
    s.run limits (t :: ts) = (s.step limits t).bind fun s' => s'.run limits ts := rfl

theorem run_singleton (limits : Limits) (s : ParseState) (t : Located) :
    s.run limits [t] = s.step limits t := by
  rw [run_cons]
  cases s.step limits t <;> rfl

theorem run_append (limits : Limits) (s : ParseState) (ts us : List Located) :
    s.run limits (ts ++ us) = (s.run limits ts).bind fun s' => s'.run limits us :=
  List.foldlM_append

theorem run_append_of_error {limits : Limits} {s : ParseState} {ts : List Located}
    {err : ParseError} (h : s.run limits ts = .error err) (us : List Located) :
    s.run limits (ts ++ us) = .error err := by
  rw [run_append, h]
  rfl

theorem run_append_of_ok {limits : Limits} {s s' : ParseState} {ts : List Located}
    (h : s.run limits ts = .ok s') (us : List Located) :
    s.run limits (ts ++ us) = s'.run limits us := by
  rw [run_append, h]
  rfl

theorem run_step {limits : Limits} {s s' : ParseState} {t : Located}
    (h : s.step limits t = .ok s') (ts : List Located) :
    s.run limits (t :: ts) = s'.run limits ts := by
  rw [run_cons, h]
  rfl

end ParseState

theorem Expr.ofTokens_of_ne_nil {ts : List Located} (h : ts ≠ []) (limits : Limits) (stop : Nat) :
    ofTokens limits stop ts = (ParseState.run limits {} ts).bind (·.finish limits stop) := by
  rw [ofTokens, List.isEmpty_eq_false_iff.2 h]
  rfl

/-! ### Finished parts -/

/-- The finished part that holds an expression. -/
def Subtree.ofExpr (e : Expr) : Subtree := ⟨e, e.height, rfl⟩

namespace Subtree

@[simp] theorem expr_ofExpr (e : Expr) : (ofExpr e).expr = e := rfl

@[simp] theorem height_ofExpr (e : Expr) : (ofExpr e).height = e.height := rfl

@[simp] theorem not_ofExpr (e : Expr) : (ofExpr e).not = ofExpr (.not e) := rfl

@[simp] theorem join_ofExpr (c : Connective) (l r : Expr) :
    (ofExpr l).join c (ofExpr r) = ofExpr (c.join l r) := by
  cases c <;> rfl

end Subtree

/-! ### Limits that are exceeded -/

/-- The error reports a limit that a text with this nesting and this height exceeds. -/
inductive ParseError.Exceeds (limits : Limits) (nesting height : Nat) : ParseError → Prop
  /-- Too many parentheses and negations are open at once. -/
  | nesting (offset : Nat) : limits.maxDepth.toNat < nesting →
    Exceeds limits nesting height ⟨.nestingTooDeep limits.maxDepth, offset⟩
  /-- The expression is too high. -/
  | height (offset : Nat) : limits.maxHeight.toNat < height →
    Exceeds limits nesting height ⟨.treeTooDeep limits.maxHeight, offset⟩

theorem ParseError.Exceeds.mono {limits : Limits} {n n' h h' : Nat} {err : ParseError}
    (hex : err.Exceeds limits n h) (hn : n ≤ n') (hh : h ≤ h') : err.Exceeds limits n' h' := by
  cases hex with
  | nesting offset hlt => exact .nesting offset (Nat.lt_of_lt_of_le hlt hn)
  | height offset hlt => exact .height offset (Nat.lt_of_lt_of_le hlt hh)

/-! ### Open chains -/

/-- With its last operand the chain says `e`, and it has a fault exactly if `e` is too high. -/
def Chain.Completes (c : Connective) (limits : Limits) (chain : Option Chain) (t : Subtree)
    (e : Expr) : Prop :=
  (attach c limits.maxHeight chain t).1 = .ofExpr e ∧
    ((attach c limits.maxHeight chain t).2 = none ↔ e.height ≤ limits.maxHeight.toNat)

namespace Chain

variable {c : Connective} {limits : Limits} {chain : Option Chain} {t : Subtree} {e l : Expr}

theorem completes_none (h : e.height ≤ limits.maxHeight.toNat) :
    Completes c limits none (.ofExpr e) e :=
  ⟨rfl, fun _ => h, fun _ => rfl⟩

theorem extend_eq (c : Connective) (limit : UInt64) (chain : Option Chain) (t : Subtree)
    (offset : Nat) : extend c limit chain t offset =
      ⟨(attach c limit chain t).1, offset, (attach c limit chain t).2⟩ := rfl

theorem attach_some (c : Connective) (limit : UInt64) (chain : Chain) (t : Subtree) :
    attach c limit (some chain) t = (chain.left.join c t,
      chain.fault.or (if (chain.left.join c t).height ≤ limit.toNat then none
        else some chain.offset)) := rfl

theorem completes_extend (h : Completes c limits chain t l) (r : Expr) (offset : Nat) :
    Completes c limits (some (extend c limits.maxHeight chain t offset)) (.ofExpr r)
      (c.join l r) := by
  obtain ⟨hleft, hfault⟩ := h
  -- the new operand makes the chain higher, so a fault it had before is still right
  have hheight := c.height_join l r
  rw [Completes, extend_eq, attach_some, hleft, Subtree.join_ofExpr, Subtree.height_ofExpr,
    Option.or_eq_none_iff, hfault]
  refine ⟨rfl, ?_⟩
  split
  · simp only [and_true]
    omega
  · simp only [reduceCtorEq, and_false, false_iff]
    assumption

theorem close_of_le (h : Completes c limits chain t e) (hle : e.height ≤ limits.maxHeight.toNat) :
    close c limits.maxHeight chain t = .ok (.ofExpr e) := by
  rw [close_eq, h.2.2 hle, h.1]

theorem close_of_lt (h : Completes c limits chain t e) (hlt : limits.maxHeight.toNat < e.height) :
    ∃ offset,
      close c limits.maxHeight chain t = .error ⟨.treeTooDeep limits.maxHeight, offset⟩ := by
  rw [close_eq]
  cases hfault : (attach c limits.maxHeight chain t).2 with
  | none => exact absurd (h.2.1 hfault) (Nat.not_le_of_lt hlt)
  | some offset => exact ⟨offset, rfl⟩

end Chain

/-- With its last operand the level says `e`, which is the open disjunction with what the open
conjunction says. -/
def Level.Completes (limits : Limits) (level : Level) (t : Subtree) (e : Expr) : Prop :=
  level.negations = [] ∧ ∃ last, Chain.Completes .and limits level.conjunction t last ∧
    last.height ≤ e.height ∧
    (last.height ≤ limits.maxHeight.toNat →
      Chain.Completes .or limits level.disjunction (.ofExpr last) e)

namespace Level

variable {limits : Limits} {level : Level} {t : Subtree} {e : Expr}

theorem close_of_le (h : level.Completes limits t e) (hle : e.height ≤ limits.maxHeight.toNat) :
    level.close limits t = .ok (.ofExpr e) := by
  obtain ⟨-, last, hconj, hlast, hdisj⟩ := h
  have hlast := Nat.le_trans hlast hle
  rw [close, Chain.close_of_le hconj hlast]
  exact Chain.close_of_le (hdisj hlast) hle

theorem close_of_lt (h : level.Completes limits t e) (hlt : limits.maxHeight.toNat < e.height) :
    ∃ offset, level.close limits t = .error ⟨.treeTooDeep limits.maxHeight, offset⟩ := by
  obtain ⟨-, last, hconj, -, hdisj⟩ := h
  rw [close]
  by_cases hlast : last.height ≤ limits.maxHeight.toNat
  · rw [Chain.close_of_le hconj hlast]
    exact Chain.close_of_lt (hdisj hlast) hlt
  · obtain ⟨offset, hclose⟩ := Chain.close_of_lt hconj (Nat.lt_of_not_le hlast)
    rw [hclose]
    exact ⟨offset, rfl⟩

end Level

/-! ### What the tokens of a derivation do -/

namespace ParseState

/-- The state in which an operand has to start. -/
def awaiting (outer : List Enclosing) (level : Level) : ParseState := ⟨outer, level, .operand⟩

/-- The state in which an operand is complete. -/
def holding (outer : List Enclosing) (level : Level) (t : Subtree) : ParseState :=
  ⟨outer, level, .complete t⟩

/-- The tokens are not read to their end: a limit is in the way, and with `n` parentheses and
negations open at once in them, or with this height, they exceed it. -/
def Stops (limits : Limits) (s : ParseState) (us : List Located) (n height : Nat) : Prop :=
  ∃ err, s.run limits us = .error err ∧ err.Exceeds limits (s.depth + n) height

variable {limits : Limits} {us : List Located} {m n : Nat}

theorem Stops.append {s : ParseState} {height height' : Nat} (h : s.Stops limits us m height)
    (vs : List Located) (hn : m ≤ n) (hheight : height ≤ height') :
    s.Stops limits (us ++ vs) n height' := by
  obtain ⟨err, hrun, hex⟩ := h
  exact ⟨err, run_append_of_error hrun vs, hex.mono (Nat.add_le_add_left hn _) hheight⟩

theorem Stops.after {s s' : ParseState} {vs : List Located} {height height' : Nat}
    (h : s'.Stops limits vs m height) (hrun : s.run limits us = .ok s')
    (hdepth : s'.depth + m ≤ s.depth + n) (hheight : height ≤ height') :
    s.Stops limits (us ++ vs) n height' := by
  obtain ⟨err, hrun', hex⟩ := h
  rw [← run_append_of_ok hrun] at hrun'
  exact ⟨err, hrun', hex.mono hdepth hheight⟩

theorem stops_of_lt_height {s : ParseState} {height : Nat}
    (hrun : ∃ offset, s.run limits us = .error ⟨.treeTooDeep limits.maxHeight, offset⟩)
    (hlt : limits.maxHeight.toNat < height) : s.Stops limits us n height := by
  obtain ⟨offset, hrun⟩ := hrun
  exact ⟨_, hrun, .height offset hlt⟩

theorem complete_eq (limits : Limits) (outer : List Enclosing) (level : Level) (t : Subtree) :
    complete limits outer level t = (Level.negate limits level.negations t).map
      (holding outer { level with negations := [] }) := by
  rw [complete]
  cases Level.negate limits level.negations t <;> rfl

/-- An operand that is complete in a level without negations stays as it is. -/
theorem complete_without_negations (limits : Limits) (outer : List Enclosing)
    (disjunction conjunction : Option Chain) (t : Subtree) :
    complete limits outer { disjunction, conjunction } t =
      .ok (holding outer { disjunction, conjunction } t) := rfl

/-- An operand that is completed under one more negation is a negation, which may be too high. -/
theorem complete_not (limits : Limits) (outer : List Enclosing) (level : Level) (offset : Nat)
    (e : Expr) :
    complete limits outer { level with negations := offset :: level.negations } (.ofExpr e) =
      if (Expr.not e).height ≤ limits.maxHeight.toNat then
        complete limits outer level (.ofExpr (.not e))
      else .error ⟨.treeTooDeep limits.maxHeight, offset⟩ := by
  rw [complete_eq, complete_eq, Level.negate, Subtree.not_ofExpr, Subtree.height_ofExpr]
  split <;> rfl

end ParseState

open ParseState

/-- What tokens that say `e` on a level of precedence do to a reader that waits for them. -/
def Reads (limits : Limits) : Tier → List Located → Expr → Nat → Prop
  | .operand, us, e, n | .negation, us, e, n => ∀ outer level,
    (awaiting outer level).depth ≤ limits.maxDepth.toNat →
    ((awaiting outer level).run limits us = complete limits outer level (.ofExpr e) ∧
      (awaiting outer level).depth + n ≤ limits.maxDepth.toNat ∧
      e.height ≤ limits.maxHeight.toNat) ∨
    (awaiting outer level).Stops limits us n e.height
  | .conjunction, us, e, n => ∀ outer disjunction,
    (awaiting outer { disjunction }).depth ≤ limits.maxDepth.toNat →
    (∃ conjunction t,
      (awaiting outer { disjunction }).run limits us =
        .ok (holding outer { disjunction, conjunction } t) ∧
      (awaiting outer { disjunction }).depth + n ≤ limits.maxDepth.toNat ∧
      Chain.Completes .and limits conjunction t e) ∨
    (awaiting outer { disjunction }).Stops limits us n e.height
  | .disjunction, us, e, n => ∀ outer,
    (awaiting outer {}).depth ≤ limits.maxDepth.toNat →
    (∃ level t, (awaiting outer {}).run limits us = .ok (holding outer level t) ∧
      (awaiting outer {}).depth + n ≤ limits.maxDepth.toNat ∧ level.Completes limits t e) ∨
    (awaiting outer {}).Stops limits us n e.height

section

variable {limits : Limits} {us vs : List Located} {l r e : Expr} {m n : Nat}

/-! ### One token -/

theorem step_not (outer : List Enclosing) (level : Level) (offset : Nat) :
    (awaiting outer level).step limits ⟨.not, offset⟩ =
      if (awaiting outer level).depth < limits.maxDepth.toNat then
        .ok (awaiting outer { level with negations := offset :: level.negations })
      else .error ⟨.nestingTooDeep limits.maxDepth, offset⟩ := rfl

theorem step_lparen (outer : List Enclosing) (level : Level) (offset : Nat) :
    (awaiting outer level).step limits ⟨.lparen, offset⟩ =
      if (awaiting outer level).depth < limits.maxDepth.toNat then
        .ok (awaiting (⟨level, offset⟩ :: outer) {})
      else .error ⟨.nestingTooDeep limits.maxDepth, offset⟩ := rfl

theorem step_rparen (enclosing : Enclosing) (outer : List Enclosing) (level : Level)
    (t : Subtree) (offset : Nat) :
    (holding (enclosing :: outer) level t).step limits ⟨.rparen, offset⟩ =
      (level.close limits t).bind (complete limits outer enclosing.level) := rfl

theorem step_and (outer : List Enclosing) (level : Level) (t : Subtree) (offset : Nat) :
    (holding outer level t).step limits ⟨.and, offset⟩ =
      .ok (awaiting outer ⟨level.disjunction,
        some (Chain.extend .and limits.maxHeight level.conjunction t offset),
        level.negations⟩) := rfl

theorem step_or (outer : List Enclosing) (level : Level) (t : Subtree) (offset : Nat) :
    (holding outer level t).step limits ⟨.or, offset⟩ =
      (Chain.close .and limits.maxHeight level.conjunction t).bind fun conjunction =>
        .ok (awaiting outer
          ⟨some (Chain.extend .or limits.maxHeight level.disjunction conjunction offset),
            none, []⟩) := rfl

theorem depth_awaiting_nil : (awaiting [] {}).depth = 0 := rfl

theorem depth_awaiting_not (outer : List Enclosing) (level : Level) (offset : Nat) :
    (awaiting outer { level with negations := offset :: level.negations }).depth =
      (awaiting outer level).depth + 1 := rfl

theorem depth_awaiting_lparen (outer : List Enclosing) (level : Level) (offset : Nat) :
    (awaiting (⟨level, offset⟩ :: outer) {}).depth = (awaiting outer level).depth + 1 := by
  simp only [depth, awaiting, Enclosing.depth, List.length_nil]
  omega

/-! ### One lemma for each rule of the grammar -/

theorem reads_comparison {field : String} {op : CompareOp} {literal : Value} (offset : Nat)
    (h : ∀ outer level, (awaiting outer level).run limits us =
      (awaiting outer level).completeComparison limits field offset op literal) :
    Reads limits .operand us (.compare field op literal) 0 := by
  intro outer level hdepth
  rw [Expr.height_compare]
  by_cases hheight : 1 ≤ limits.maxHeight.toNat
  · refine .inl ⟨?_, hdepth, hheight⟩
    rw [h, completeComparison, if_pos hheight]
    rfl
  · refine .inr (stops_of_lt_height ⟨offset, ?_⟩ (Nat.lt_of_not_le hheight))
    rw [h, completeComparison, if_neg hheight]

theorem reads_group (h : Reads limits .disjunction us e n) (i j : Nat) :
    Reads limits .operand (⟨.lparen, i⟩ :: us ++ [⟨.rparen, j⟩]) e (n + 1) := by
  intro outer level hdepth
  have hinner := depth_awaiting_lparen outer level i
  by_cases hroom : (awaiting outer level).depth < limits.maxDepth.toNat
  · have hstep : (awaiting outer level).step limits ⟨.lparen, i⟩ =
        .ok (awaiting (⟨level, i⟩ :: outer) {}) := by
      rw [step_lparen, if_pos hroom]
    rcases h (⟨level, i⟩ :: outer) (by omega) with ⟨inside, t, hrun, hn, hcomp⟩ | hstop
    · have hclose : (awaiting outer level).run limits (⟨.lparen, i⟩ :: us ++ [⟨.rparen, j⟩]) =
          (inside.close limits t).bind (complete limits outer level) := by
        rw [List.cons_append, run_step hstep, run_append_of_ok hrun, run_singleton, step_rparen]
      by_cases hheight : e.height ≤ limits.maxHeight.toNat
      · refine .inl ⟨?_, by omega, hheight⟩
        rw [hclose, Level.close_of_le hcomp hheight]
        rfl
      · have hheight := Nat.lt_of_not_le hheight
        obtain ⟨offset, herr⟩ := Level.close_of_lt hcomp hheight
        refine .inr (stops_of_lt_height ⟨offset, ?_⟩ hheight)
        rw [hclose, herr]
        rfl
    · have hstop := hstop.after (n := n + 1) (run_step hstep []) (by omega) (Nat.le_refl _)
      exact .inr (hstop.append _ (Nat.le_refl _) (Nat.le_refl _))
  · refine .inr ⟨_, ?_, .nesting i (by omega)⟩
    rw [List.cons_append, run_cons, step_lparen, if_neg hroom]
    rfl

theorem reads_not (h : Reads limits .negation us e n) (i : Nat) :
    Reads limits .negation (⟨.not, i⟩ :: us) (.not e) (n + 1) := by
  intro outer level hdepth
  have hinner := depth_awaiting_not outer level i
  by_cases hroom : (awaiting outer level).depth < limits.maxDepth.toNat
  · have hstep : (awaiting outer level).step limits ⟨.not, i⟩ =
        .ok (awaiting outer { level with negations := i :: level.negations }) := by
      rw [step_not, if_pos hroom]
    rcases h outer { level with negations := i :: level.negations } (by omega) with
      ⟨hrun, hn, -⟩ | hstop
    · by_cases hheight : (Expr.not e).height ≤ limits.maxHeight.toNat
      · refine .inl ⟨?_, by omega, hheight⟩
        rw [run_step hstep, hrun, complete_not, if_pos hheight]
      · refine .inr (stops_of_lt_height ⟨i, ?_⟩ (Nat.lt_of_not_le hheight))
        rw [run_step hstep, hrun, complete_not, if_neg hheight]
    · refine .inr (hstop.after (n := n + 1) (run_step hstep []) (by omega) ?_)
      rw [Expr.height_not]
      exact Nat.le_add_left _ _
  · refine .inr ⟨_, ?_, .nesting i (by omega)⟩
    rw [run_cons, step_not, if_neg hroom]
    rfl

theorem reads_conjunction (h : Reads limits .negation us e n) :
    Reads limits .conjunction us e n := by
  intro outer disjunction hdepth
  rcases h outer { disjunction } hdepth with ⟨hrun, hn, hheight⟩ | hstop
  · refine .inl ⟨none, .ofExpr e, ?_, hn, Chain.completes_none hheight⟩
    rw [hrun, complete_without_negations]
  · exact .inr hstop

theorem reads_and (hl : Reads limits .conjunction us l m) (hr : Reads limits .negation vs r n)
    (i : Nat) : Reads limits .conjunction (us ++ ⟨.and, i⟩ :: vs) (.and l r) (max m n) := by
  intro outer disjunction hdepth
  have hheight := Expr.height_and l r
  rcases hl outer disjunction hdepth with ⟨conjunction, t, hrun, hm, hcomp⟩ | hstop
  · have hstep := run_append_of_ok hrun [⟨.and, i⟩]
    rw [run_singleton, step_and] at hstep
    rw [List.append_cons]
    rcases hr outer ⟨disjunction, some (.extend .and limits.maxHeight conjunction t i), []⟩
      hdepth with ⟨hrun', hn, -⟩ | hstop
    · have hn : (awaiting outer { disjunction }).depth + n ≤ limits.maxDepth.toNat := hn
      refine .inl ⟨_, _, ?_, by omega, Chain.completes_extend hcomp r i⟩
      rw [run_append_of_ok hstep]
      exact hrun'
    · exact .inr (hstop.after hstep (Nat.add_le_add_left (Nat.le_max_right m n) _) (by omega))
  · exact .inr (hstop.append _ (Nat.le_max_left m n) (by omega))

theorem reads_disjunction (h : Reads limits .conjunction us e n) :
    Reads limits .disjunction us e n := by
  intro outer hdepth
  rcases h outer none hdepth with ⟨conjunction, t, hrun, hn, hcomp⟩ | hstop
  · exact .inl ⟨_, t, hrun, hn, rfl, e, hcomp, Nat.le_refl _, Chain.completes_none⟩
  · exact .inr hstop

theorem reads_or (hl : Reads limits .disjunction us l m) (hr : Reads limits .conjunction vs r n)
    (i : Nat) : Reads limits .disjunction (us ++ ⟨.or, i⟩ :: vs) (.or l r) (max m n) := by
  intro outer hdepth
  have hheight := Expr.height_or l r
  rcases hl outer hdepth with ⟨level, t, hrun, hm, -, last, hconj, hlast, hdisj⟩ | hstop
  · have hstep := run_append_of_ok hrun [⟨.or, i⟩]
    rw [run_singleton, step_or] at hstep
    rw [List.append_cons]
    by_cases hle : last.height ≤ limits.maxHeight.toNat
    · rw [Chain.close_of_le hconj hle] at hstep
      rcases hr outer (some (.extend .or limits.maxHeight level.disjunction (.ofExpr last) i))
        hdepth with ⟨conjunction, t', hrun', hn, hcomp⟩ | hstop
      · have hn : (awaiting outer {}).depth + n ≤ limits.maxDepth.toNat := hn
        have hdisj := Chain.completes_extend (hdisj hle) r i
        refine .inl ⟨⟨_, conjunction, []⟩, t', ?_, by omega, rfl, r, hcomp, by omega,
          fun _ => hdisj⟩
        rw [run_append_of_ok hstep]
        exact hrun'
      · exact .inr (hstop.after hstep (Nat.add_le_add_left (Nat.le_max_right m n) _) (by omega))
    · -- the conjunction before the connective is already too high
      obtain ⟨offset, hclose⟩ := Chain.close_of_lt hconj (Nat.lt_of_not_le hle)
      rw [hclose] at hstep
      exact .inr (stops_of_lt_height ⟨offset, run_append_of_error hstep vs⟩ (by omega))
  · exact .inr (hstop.append _ (Nat.le_max_left m n) (by omega))

/-! ### Whole derivations -/

theorem map_token_eq_cons {t : Token} {ts : List Token}
    (h : us.map Located.token = t :: ts) :
    ∃ offset vs, us = ⟨t, offset⟩ :: vs ∧ vs.map Located.token = ts := by
  obtain ⟨⟨t', offset⟩, vs, rfl, rfl, rfl⟩ := List.map_eq_cons_iff.1 h
  exact ⟨offset, vs, rfl, rfl⟩

/-- **The tokens of a derivation are read to its end, unless a limit that they exceed is in the
way.** -/
theorem Derives.reads {tier : Tier} {ts : List Token} (h : Derives tier ts e n) :
    ∀ us : List Located, us.map Located.token = ts → Reads limits tier us e n := by
  induction h with
  | number field op x =>
    intro us hus
    obtain ⟨i, us₁, rfl, hus₁⟩ := map_token_eq_cons hus
    obtain ⟨j, us₂, rfl, hus₂⟩ := map_token_eq_cons hus₁
    obtain ⟨k, us₃, rfl, hus₃⟩ := map_token_eq_cons hus₂
    obtain rfl := List.map_eq_nil_iff.1 hus₃
    exact reads_comparison i fun outer level => run_singleton limits _ _
  | text field op s =>
    intro us hus
    obtain ⟨i, us₁, rfl, hus₁⟩ := map_token_eq_cons hus
    obtain ⟨j, us₂, rfl, hus₂⟩ := map_token_eq_cons hus₁
    obtain ⟨k, us₃, rfl, hus₃⟩ := map_token_eq_cons hus₂
    obtain rfl := List.map_eq_nil_iff.1 hus₃
    exact reads_comparison i fun outer level => run_singleton limits _ _
  | group _ ih =>
    intro us hus
    obtain ⟨ls, rs, rfl, hls, hrs⟩ := List.map_eq_append_iff.1 hus
    obtain ⟨i, us, rfl, hin⟩ := map_token_eq_cons hls
    obtain ⟨j, vs, rfl, hvs⟩ := map_token_eq_cons hrs
    obtain rfl := List.map_eq_nil_iff.1 hvs
    exact reads_group (ih us hin) i j
  | operand _ ih => exact ih
  | not _ ih =>
    intro us hus
    obtain ⟨i, vs, rfl, hvs⟩ := map_token_eq_cons hus
    exact reads_not (ih vs hvs) i
  | negation _ ih => exact fun us hus => reads_conjunction (ih us hus)
  | and _ _ ihl ihr =>
    intro us hus
    obtain ⟨ls, rs, rfl, hls, hrs⟩ := List.map_eq_append_iff.1 hus
    obtain ⟨i, vs, rfl, hvs⟩ := map_token_eq_cons hrs
    exact reads_and (ihl ls hls) (ihr vs hvs) i
  | conjunction _ ih => exact fun us hus => reads_disjunction (ih us hus)
  | or _ _ ihl ihr =>
    intro us hus
    obtain ⟨ls, rs, rfl, hls, hrs⟩ := List.map_eq_append_iff.1 hus
    obtain ⟨i, vs, rfl, hvs⟩ := map_token_eq_cons hrs
    exact reads_or (ihl ls hls) (ihr vs hvs) i

theorem finish_holding (level : Level) (t : Subtree) (stop : Nat) :
    (holding [] level t).finish limits stop = (level.close limits t).map Subtree.expr := by
  simp only [finish, holding]
  cases level.close limits t <;> rfl

/-- **Tokens that say an expression are read as that expression, unless they exceed a limit, which
is then reported.** -/
theorem ofTokens_of_derives (h : Derives .disjunction (us.map Located.token) e n)
    (limits : Limits) (stop : Nat) :
    (Expr.ofTokens limits stop us = .ok e ∧ n ≤ limits.maxDepth.toNat ∧
      e.height ≤ limits.maxHeight.toNat) ∨
    ∃ err, Expr.ofTokens limits stop us = .error err ∧ err.Exceeds limits n e.height := by
  have hne : us ≠ [] := fun hnil => h.ne_nil (by rw [hnil, List.map_nil])
  rw [Expr.ofTokens_of_ne_nil hne]
  rcases h.reads us rfl [] (Nat.zero_le _) with ⟨level, t, hrun, hn, hcomp⟩ | ⟨err, hrun, hex⟩
  · rw [show run limits {} us = _ from hrun, Except.bind, finish_holding]
    rw [depth_awaiting_nil, Nat.zero_add] at hn
    by_cases hheight : e.height ≤ limits.maxHeight.toNat
    · rw [Level.close_of_le hcomp hheight]
      exact .inl ⟨rfl, hn, hheight⟩
    · have hheight := Nat.lt_of_not_le hheight
      obtain ⟨offset, hclose⟩ := Level.close_of_lt hcomp hheight
      rw [hclose]
      exact .inr ⟨_, rfl, .height offset hheight⟩
  · rw [show run limits {} us = _ from hrun]
    rw [depth_awaiting_nil, Nat.zero_add] at hex
    exact .inr ⟨err, rfl, hex⟩

end

end Eligibility
