import Eligibility.Proofs.Grammar.Prefixes
import Eligibility.Proofs.Parser.Transitions

/-!
# What the reader has read, and where

Between two tokens the reader holds chains, negations and open groups.  Written out from the
outermost group inwards they are the tokens read so far: an open chain is the tokens of its left
part and the connective after it, and the finished operand is the tokens that say it.  One more
token keeps this reading of the state, so a text that is accepted has a derivation.

The places that the reader remembers, of connectives, negations and parentheses, are places of these
tokens.  So a place that it reports later can be traced back to a part of the text, however much has
been read since.

## Main definitions

* `Chain.FaultOf` : the place at which a chain has become too high, or none.
* `Chain.Covers`, `Phase.Covers` : the tokens of an open chain, and of an operand under way.
* `Enters limits outer level us` : the tokens `us` lead into the level, up to an operand.
* `ParseState.After limits s ts` : the state `s` is the one after the tokens `ts`.

## Main results

* `Enters.awaits`, `Enters.openAfter_eq` : where in the grammar such tokens end, and what is open.
* `Enters.close` : the whole of a level, or the chain that is too high.
* `ParseState.After.step`, `ParseState.After.run` : **reading keeps this invariant.**
* `ParseState.After.finish` : what is accepted in the end has been said by the tokens.
-/

namespace Eligibility

/-! ### Parts that are too high -/

/-- The token that stands at the given offset is the topmost one of a part of the text that is one
level higher than the limit, while its operands are within the limit. -/
inductive Outgrows (limit : Nat) (ts : List Located) : Nat → Prop
  /-- A connective with the operands of its chain up to it and the operand behind it. -/
  | join (c : Connective) {before us vs after : List Located} {l r : Expr} {i m n : Nat} :
    ts = before ++ (us ++ ⟨c.token, i⟩ :: (vs ++ after)) →
    Awaits c.tier (before.map Located.token) →
    Derives c.tier (us.map Located.token) l m → Derives c.operandTier (vs.map Located.token) r n →
    c.operandTier.Ends (after.map Located.token) →
    l.height ≤ limit → r.height ≤ limit → (c.join l r).height = limit + 1 → Outgrows limit ts i
  /-- A negation with its operand. -/
  | not {before us after : List Located} {e : Expr} {i n : Nat} :
    ts = before ++ ⟨.not, i⟩ :: (us ++ after) → Awaits .negation (before.map Located.token) →
    Derives .negation (us.map Located.token) e n →
    e.height ≤ limit → (Expr.not e).height = limit + 1 → Outgrows limit ts i
  /-- The first comparison, which is too high only if nothing is within the limit. -/
  | comparison {before us after : List Located} {field : String} {e : Expr} {i n : Nat} :
    ts = before ++ ⟨.ident field, i⟩ :: (us ++ after) →
    (∀ t ∈ before, t.token = .lparen ∨ t.token = .not) →
    Derives .operand (.ident field :: us.map Located.token) e n → limit = 0 → Outgrows limit ts i

/-! ### Chains and their faults -/

/-- The place at which a chain has become too high.  Without one it is within the limit.  Otherwise
the connective there joins two operands that are within the limit, and what follows it and its right
operand is the next connective of the chain, or nothing. -/
inductive Chain.FaultOf (c : Connective) (limit : Nat) : List Located → Expr → Option Nat → Prop
  /-- The chain is within the limit. -/
  | none {us : List Located} {e : Expr} : e.height ≤ limit → FaultOf c limit us e none
  /-- The chain has become too high. -/
  | some {us vs ws : List Located} {l r e : Expr} {i m n : Nat} :
    Derives c.tier (us.map Located.token) l m → Derives c.operandTier (vs.map Located.token) r n →
    l.height ≤ limit → r.height ≤ limit → limit < (c.join l r).height →
    (∀ w ∈ ws.head?, w.token = c.token) →
    FaultOf c limit (us ++ ⟨c.token, i⟩ :: (vs ++ ws)) e (some i)

/-- The tokens of an open chain: those of its left part, and the connective after it. -/
inductive Chain.Covers (c : Connective) (limit : Nat) : Option Chain → List Located → Prop
  /-- No chain is open. -/
  | none : Covers c limit none []
  /-- A chain is open. -/
  | some {chain : Chain} {us : List Located} {n : Nat} :
    Derives c.tier (us.map Located.token) chain.left.expr n →
    FaultOf c limit us chain.left.expr chain.fault →
    Covers c limit (some chain) (us ++ [⟨c.token, chain.offset⟩])

section

variable {c : Connective} {limits : Limits} {limit : UInt64} {chain : Option Chain} {level : Level}
  {outer : List Enclosing} {t t' : Subtree} {us vs ws ts : List Located} {n i : Nat}

theorem Subtree.height_le_iff {k : Nat} : t.height ≤ k ↔ t.expr.height ≤ k := by
  rw [t.height_eq]

namespace Chain

theorem FaultOf.height_le {k : Nat} {e : Expr} (h : FaultOf c k us e Option.none) :
    e.height ≤ k := by
  cases h with
  | none h => exact h

/-- A further operand within the limit leaves the fault of a chain where it was, or is the first to
make the chain too high. -/
theorem Covers.attach (h : Covers c limit.toNat chain us)
    (hws : Derives c.operandTier (ws.map Located.token) t.expr n)
    (hle : t.expr.height ≤ limit.toNat) :
    (∃ m, Derives c.tier ((us ++ ws).map Located.token) (attach c limit chain t).1.expr m) ∧
      FaultOf c limit.toNat (us ++ ws) (attach c limit chain t).1.expr
        (attach c limit chain t).2 := by
  cases h with
  | none => exact ⟨⟨n, hws.single⟩, .none hle⟩
  | @some chain us m hleft hfault =>
    rw [attach_some]
    refine ⟨⟨max m n, ?_⟩, ?_⟩
    · rw [List.append_assoc, List.map_append]
      exact hleft.join hws
    · generalize hplace : chain.fault = fault at hfault
      cases hfault with
      | none hheight =>
        rw [Option.none_or]
        split
        · exact .none (Subtree.height_le_iff.1 ‹_›)
        · rename_i hlt
          have hlt := Nat.lt_of_not_le (mt Subtree.height_le_iff.2 hlt)
          have hnew : FaultOf c limit.toNat (us ++ ⟨c.token, chain.offset⟩ :: (ws ++ []))
              (chain.left.join c t).expr (Option.some chain.offset) :=
            .some hleft hws hheight hle hlt nofun
          rw [List.append_nil] at hnew
          rwa [List.append_assoc, List.singleton_append]
      | @some us vs xs l r _ j _ _ hl hr hlle hrle hlt hnext =>
        rw [Option.some_or]
        have hnext : ∀ w ∈ (xs ++ ⟨c.token, chain.offset⟩ :: ws).head?, w.token = c.token := by
          cases xs with
          | nil =>
            intro w hw
            obtain rfl := Option.some.inj hw
            rfl
          | cons x xs => exact hnext
        have hold : FaultOf c limit.toNat
            (us ++ ⟨c.token, j⟩ :: (vs ++ (xs ++ ⟨c.token, chain.offset⟩ :: ws)))
            (chain.left.join c t).expr (Option.some j) := .some hl hr hlle hrle hlt hnext
        simpa only [List.append_assoc, List.cons_append, List.nil_append] using hold

/-- A chain that goes on with one more connective covers it. -/
theorem Covers.extend (h : Covers c limit.toNat chain us)
    (hws : Derives c.operandTier (ws.map Located.token) t.expr n)
    (hle : t.expr.height ≤ limit.toNat) (i : Nat) :
    Covers c limit.toNat (Option.some (extend c limit chain t i)) (us ++ ws ++ [⟨c.token, i⟩]) := by
  obtain ⟨⟨m, hder⟩, hfault⟩ := h.attach hws hle
  rw [extend_eq]
  exact @Covers.some c limit.toNat ⟨_, i, _⟩ _ m hder hfault

/-- The fault of a chain is at a part of the text that is too high. -/
theorem FaultOf.outgrows {k : Nat} {e : Expr} {as bs after : List Located}
    (h : FaultOf c k bs e (Option.some i)) (has : Awaits c.tier (as.map Located.token))
    (hafter : c.operandTier.Ends (after.map Located.token)) :
    Outgrows k (as ++ (bs ++ after)) i := by
  cases h with
  | @some us vs ws l r _ _ m n hl hr hlle hrle hlt hnext =>
    have hsplit : as ++ (us ++ ⟨c.token, i⟩ :: (vs ++ ws) ++ after) =
        as ++ (us ++ ⟨c.token, i⟩ :: (vs ++ (ws ++ after))) := by
      simp only [List.append_assoc, List.cons_append]
    have hends : c.operandTier.Ends ((ws ++ after).map Located.token) := by
      cases ws with
      | nil => exact hafter
      | cons w ws =>
        rw [List.cons_append, List.map_cons, hnext w rfl]
        exact Connective.ends_token
    have hheight : (c.join l r).height = k + 1 := by
      rw [c.height_join] at hlt ⊢
      omega
    exact .join c hsplit has hl hr hends hlle hrle hheight

/-- A chain that ends is within the limit, or it has a fault, which is reported. -/
theorem Covers.close (h : Covers c limit.toNat chain us)
    (hws : Derives c.operandTier (ws.map Located.token) t.expr n)
    (hle : t.expr.height ≤ limit.toNat) :
    (∃ whole m, Chain.close c limit chain t = .ok whole ∧
      Derives c.tier ((us ++ ws).map Located.token) whole.expr m ∧
      whole.expr.height ≤ limit.toNat) ∨
    ∃ i e, Chain.close c limit chain t = .error ⟨.treeTooDeep limit, i⟩ ∧
      FaultOf c limit.toNat (us ++ ws) e (Option.some i) := by
  obtain ⟨⟨m, hder⟩, hfault⟩ := h.attach hws hle
  rw [close_eq]
  generalize (Chain.attach c limit chain t).2 = fault at hfault
  cases fault with
  | none => exact .inl ⟨_, m, rfl, hder, hfault.height_le⟩
  | some i => exact .inr ⟨i, _, rfl, hfault⟩

end Chain

/-! ### Levels -/

/-- The tokens lead through the enclosing levels into this one, up to a place where an operand has
to start, and nowhere on the way has there been too much open at once. -/
inductive Enters (limits : Limits) : List Enclosing → Level → List Located → Prop
  /-- Nothing has been read. -/
  | start : Enters limits [] {} []
  /-- A group has been opened. -/
  | lparen {outer : List Enclosing} {level : Level} {us : List Located} {i : Nat} :
    Enters limits outer level us →
    (ParseState.awaiting outer level).depth < limits.maxDepth.toNat →
    Enters limits (⟨level, i⟩ :: outer) {} (us ++ [⟨.lparen, i⟩])
  /-- A disjunction is open. -/
  | or {outer : List Enclosing} {chain : Chain} {us vs : List Located} :
    Enters limits outer {} us → Chain.Covers .or limits.maxHeight.toNat (some chain) vs →
    Enters limits outer { disjunction := some chain } (us ++ vs)
  /-- A conjunction is open. -/
  | and {outer : List Enclosing} {disjunction : Option Chain} {chain : Chain}
    {us vs : List Located} :
    Enters limits outer { disjunction } us →
    Chain.Covers .and limits.maxHeight.toNat (some chain) vs →
    Enters limits outer { disjunction, conjunction := some chain } (us ++ vs)
  /-- A negation waits for its operand. -/
  | not {outer : List Enclosing} {disjunction conjunction : Option Chain} {offsets : List Nat}
    {us : List Located} {i : Nat} : Enters limits outer ⟨disjunction, conjunction, offsets⟩ us →
    (ParseState.awaiting outer ⟨disjunction, conjunction, offsets⟩).depth < limits.maxDepth.toNat →
    Enters limits outer ⟨disjunction, conjunction, i :: offsets⟩ (us ++ [⟨.not, i⟩])

namespace Enters

variable {disjunction conjunction : Option Chain} {offsets : List Nat} {enclosing : Enclosing}

theorem of_not (h : Enters limits outer ⟨disjunction, conjunction, i :: offsets⟩ us) :
    ∃ vs, us = vs ++ [⟨.not, i⟩] ∧ Enters limits outer ⟨disjunction, conjunction, offsets⟩ vs := by
  cases h with
  | not h => exact ⟨_, rfl, h⟩

theorem of_start (h : Enters limits [] {} us) : us = [] := by
  cases h with
  | start => rfl

theorem of_lparen (h : Enters limits (enclosing :: outer) {} us) :
    ∃ vs, us = vs ++ [⟨.lparen, enclosing.offset⟩] ∧ Enters limits outer enclosing.level vs := by
  cases h with
  | lparen h => exact ⟨_, rfl, h⟩

theorem of_disjunction (h : Enters limits outer { disjunction } us) :
    ∃ as bs, us = as ++ bs ∧ Enters limits outer {} as ∧
      Chain.Covers .or limits.maxHeight.toNat disjunction bs := by
  cases h with
  | start => exact ⟨[], [], rfl, .start, .none⟩
  | lparen h hdepth => exact ⟨_, [], (List.append_nil _).symm, .lparen h hdepth, .none⟩
  | or h hcovers => exact ⟨_, _, rfl, h, hcovers⟩

theorem of_conjunction (h : Enters limits outer { disjunction, conjunction } us) :
    ∃ as bs, us = as ++ bs ∧ Enters limits outer { disjunction } as ∧
      Chain.Covers .and limits.maxHeight.toNat conjunction bs := by
  cases h with
  | start => exact ⟨[], [], rfl, .start, .none⟩
  | lparen h hdepth => exact ⟨_, [], (List.append_nil _).symm, .lparen h hdepth, .none⟩
  | or h hcovers => exact ⟨_, [], (List.append_nil _).symm, .or h hcovers, .none⟩
  | and h hcovers => exact ⟨_, _, rfl, h, hcovers⟩

/-- Where in the grammar the tokens end: before an operand of the innermost conjunction, and
before a whole conjunction or disjunction if none of that kind is open. -/
theorem awaits_all (h : Enters limits outer level us) :
    Awaits .negation (us.map Located.token) ∧
      (level.conjunction = none → level.negations = [] →
        Awaits .conjunction (us.map Located.token) ∧
          (level.disjunction = none → Awaits .disjunction (us.map Located.token))) := by
  induction h with
  | start =>
    exact ⟨.first .and (.first .or .start), fun _ _ => ⟨.first .or .start, fun _ => .start⟩⟩
  | lparen _ _ ih =>
    have hgroup := Awaits.lparen ih.1.operand
    rw [List.map_append]
    exact ⟨.first .and (.first .or hgroup), fun _ _ => ⟨.first .or hgroup, fun _ => hgroup⟩⟩
  | or _ hcovers ih =>
    cases hcovers with
    | some hleft _ =>
      have hchain := ((ih.2 rfl rfl).2 rfl).next .or hleft
      rw [List.map_append, List.map_append]
      exact ⟨.first .and hchain, fun _ _ => ⟨hchain, nofun⟩⟩
  | and _ hcovers ih =>
    cases hcovers with
    | some hleft _ =>
      have hchain := (ih.2 rfl rfl).1.next .and hleft
      rw [List.map_append, List.map_append]
      exact ⟨hchain, nofun⟩
  | not _ _ ih =>
    rw [List.map_append]
    exact ⟨ih.1.not, nofun⟩

theorem awaits (h : Enters limits outer level us) : Awaits .negation (us.map Located.token) :=
  h.awaits_all.1

theorem awaits_conjunction (h : Enters limits outer { disjunction } us) :
    Awaits .conjunction (us.map Located.token) :=
  (h.awaits_all.2 rfl rfl).1

theorem awaits_disjunction (h : Enters limits outer {} us) :
    Awaits .disjunction (us.map Located.token) :=
  (h.awaits_all.2 rfl rfl).2 rfl

end Enters

/-! ### What is open -/

/-- The parentheses and negations that are open in the enclosing levels, the innermost first. -/
def Enclosing.opened : List Enclosing → List Token
  | [] => []
  | enclosing :: outer =>
    .lparen :: (List.replicate enclosing.level.negations.length .not ++ opened outer)

namespace Enclosing

theorem length_opened (outer : List Enclosing) : (opened outer).length = depth outer := by
  induction outer with
  | nil => rfl
  | cons enclosing outer ih =>
    simp only [opened, depth, List.length_cons, List.length_append, List.length_replicate, ih]
    omega

/-- What is open around a group starts with its parenthesis. -/
theorem dropWhile_opened (outer : List Enclosing) :
    (opened outer).dropWhile (· = .not) = opened outer := by
  cases outer <;> rfl

end Enclosing

/-- An open chain leaves open what was open before it. -/
theorem Chain.Covers.foldl_mark {k : Nat} (h : Covers c k chain us) :
    (us.map Located.token).foldl Token.mark (Enclosing.opened outer) = Enclosing.opened outer := by
  cases h with
  | none => rfl
  | some hleft _ =>
    rw [List.map_append, List.foldl_append, hleft.foldl_mark, Enclosing.dropWhile_opened]
    cases c <;> rfl

namespace Enters

/-- **What the reader counts as open is open.** -/
theorem openAfter_eq (h : Enters limits outer level us) : Token.openAfter (us.map Located.token) =
    List.replicate level.negations.length .not ++ Enclosing.opened outer := by
  induction h with
  | start => rfl
  | lparen _ _ ih =>
    rw [List.map_append, Token.openAfter_append, ih]
    rfl
  | or _ hcovers ih | and _ hcovers ih =>
    rw [List.map_append, Token.openAfter_append, ih]
    exact hcovers.foldl_mark
  | not _ _ ih =>
    rw [List.map_append, Token.openAfter_append, ih]
    rfl

theorem length_openAfter (h : Enters limits outer level us) :
    (Token.openAfter (us.map Located.token)).length = (ParseState.awaiting outer level).depth := by
  rw [h.openAfter_eq, List.length_append, List.length_replicate, Enclosing.length_opened,
    Nat.add_comm]
  rfl

theorem depth_le (h : Enters limits outer level us) :
    (ParseState.awaiting outer level).depth ≤ limits.maxDepth.toNat := by
  induction h with
  | start => exact Nat.zero_le _
  | @lparen outer level us i _ hdepth _ =>
    rw [depth_awaiting_lparen]
    exact hdepth
  | or _ _ ih | and _ _ ih => exact ih
  | not _ hdepth _ => exact hdepth

/-- If nothing is within the limit then no operand has been completed. -/
theorem opens_of_limit_eq_zero (h : Enters limits outer level us)
    (hlimit : limits.maxHeight.toNat = 0) : ∀ u ∈ us, u.token = .lparen ∨ u.token = .not := by
  have hcovers : ∀ {c : Connective} {chain : Chain} {vs : List Located},
      ¬Chain.Covers c limits.maxHeight.toNat (some chain) vs := by
    intro c chain vs hcovers
    rw [hlimit] at hcovers
    cases hcovers with
    | some _ hfault =>
      generalize chain.fault = fault at hfault
      cases hfault with
      | none hle => exact absurd hle (Nat.not_le_of_lt (Expr.height_pos _))
      | some _ _ hle => exact absurd hle (Nat.not_le_of_lt (Expr.height_pos _))
  induction h with
  | start => nofun
  | lparen _ _ ih =>
    rw [List.forall_mem_append]
    exact ⟨ih, by simp⟩
  | or _ h | and _ h => exact absurd h hcovers
  | not _ _ ih =>
    rw [List.forall_mem_append]
    exact ⟨ih, by simp⟩

/-! ### Complete operands -/

/-- An operand takes the negations before it in, unless one of them is too high. -/
theorem negate (h : Enters limits outer level us)
    (hws : Derives .negation (ws.map Located.token) t.expr n)
    (hle : t.expr.height ≤ limits.maxHeight.toNat) (rest : List Located) :
    (∃ t' us' ws' m, Level.negate limits level.negations t = .ok t' ∧ us ++ ws = us' ++ ws' ∧
      Enters limits outer { level with negations := [] } us' ∧
      Derives .negation (ws'.map Located.token) t'.expr m ∧
      t'.expr.height ≤ limits.maxHeight.toNat) ∨
    ∃ i, Level.negate limits level.negations t = .error ⟨.treeTooDeep limits.maxHeight, i⟩ ∧
      Outgrows limits.maxHeight.toNat (us ++ ws ++ rest) i := by
  obtain ⟨disjunction, conjunction, offsets⟩ := level
  induction offsets generalizing us ws t n with
  | nil => exact .inl ⟨t, us, ws, n, rfl, rfl, h, hws, hle⟩
  | cons i offsets ih =>
    obtain ⟨vs, rfl, hvs⟩ := h.of_not
    have hheight := Expr.height_not t.expr
    simp only [Level.negate]
    split
    · rename_i hnot
      have hnegated :
          Derives .negation (List.map Located.token (⟨.not, i⟩ :: ws)) t.not.expr (n + 1) :=
        hws.not
      rw [List.append_assoc]
      exact ih hnegated (Subtree.height_le_iff.1 hnot) hvs
    · rename_i hnot
      have hnot := mt Subtree.height_le_iff.2 hnot
      have hnot : limits.maxHeight.toNat < (Expr.not t.expr).height := Nat.lt_of_not_le hnot
      have hsplit : vs ++ [⟨.not, i⟩] ++ ws ++ rest = vs ++ ⟨.not, i⟩ :: (ws ++ rest) := by
        simp only [List.append_assoc, List.cons_append, List.nil_append]
      exact .inr ⟨i, rfl, .not hsplit hvs.awaits hws hle (by omega)⟩

/-- A conjunction that ends is within the limit, unless it has become too high. -/
theorem closeConjunction (h : Enters limits outer { disjunction, conjunction } us)
    (hws : Derives .negation (ws.map Located.token) t.expr n)
    (hle : t.expr.height ≤ limits.maxHeight.toNat) (rest : List Located) :
    (∃ last us' ws' m, Chain.close .and limits.maxHeight conjunction t = .ok last ∧
      us ++ ws = us' ++ ws' ∧ Enters limits outer { disjunction } us' ∧
      Derives .conjunction (ws'.map Located.token) last.expr m ∧
      last.expr.height ≤ limits.maxHeight.toNat) ∨
    ∃ i, Chain.close .and limits.maxHeight conjunction t =
        .error ⟨.treeTooDeep limits.maxHeight, i⟩ ∧
      Outgrows limits.maxHeight.toNat (us ++ ws ++ rest) i := by
  obtain ⟨as, bs, rfl, has, hbs⟩ := h.of_conjunction
  rw [List.append_assoc]
  rcases hbs.close hws hle with ⟨last, m, hclose, hlast, hle⟩ | ⟨i, e, hclose, hfault⟩
  · exact .inl ⟨last, as, bs ++ ws, m, hclose, rfl, has, hlast, hle⟩
  · refine .inr ⟨i, hclose, ?_⟩
    rw [List.append_assoc]
    exact hfault.outgrows has.awaits_conjunction trivial

/-- A level that ends is an expression within the limit, unless a chain of it is too high. -/
theorem close (h : Enters limits outer level us) (hnegations : level.negations = [])
    (hws : Derives .negation (ws.map Located.token) t.expr n)
    (hle : t.expr.height ≤ limits.maxHeight.toNat) {rest : List Located}
    (hrest : Tier.disjunction.Ends (rest.map Located.token)) :
    (∃ whole us' ws' m, level.close limits t = .ok whole ∧ us ++ ws = us' ++ ws' ∧
      Enters limits outer {} us' ∧ Derives .disjunction (ws'.map Located.token) whole.expr m ∧
      whole.expr.height ≤ limits.maxHeight.toNat) ∨
    ∃ i, level.close limits t = .error ⟨.treeTooDeep limits.maxHeight, i⟩ ∧
      Outgrows limits.maxHeight.toNat (us ++ ws ++ rest) i := by
  obtain ⟨disjunction, conjunction, offsets⟩ := level
  obtain rfl : offsets = [] := hnegations
  rw [Level.close]
  rcases h.closeConjunction hws hle rest with
    ⟨last, us', ws', k, hlast, happ, hus, hws, hle⟩ | ⟨i, hclose, houtgrows⟩
  · obtain ⟨as, bs, rfl, has, hbs⟩ := hus.of_disjunction
    rw [hlast, happ, List.append_assoc]
    rcases hbs.close hws hle with ⟨whole, m, hclose, hwhole, hle⟩ | ⟨i, e, hclose, hfault⟩
    · exact .inl ⟨whole, as, bs ++ ws', m, hclose, rfl, has, hwhole, hle⟩
    · refine .inr ⟨i, hclose, ?_⟩
      rw [List.append_assoc]
      exact hfault.outgrows has.awaits_disjunction hrest.1
  · rw [hclose]
    exact .inr ⟨i, rfl, houtgrows⟩

/-- The parentheses that open the groups are among the tokens. -/
theorem lparen_mem (h : Enters limits outer level us) :
    ∀ enclosing ∈ outer, (⟨.lparen, enclosing.offset⟩ : Located) ∈ us := by
  induction h with
  | start => nofun
  | lparen _ _ ih =>
    rw [List.forall_mem_cons]
    exact ⟨by simp, fun enclosing hmem => List.mem_append_left _ (ih enclosing hmem)⟩
  | or _ _ ih | and _ _ ih | not _ _ ih =>
    exact fun enclosing hmem => List.mem_append_left _ (ih enclosing hmem)

end Enters

/-! ### The state of the reader -/

/-- The tokens of an operand under way. -/
inductive Phase.Covers (limit : Nat) : Phase → List Located → Prop
  /-- Nothing has been read of it. -/
  | operand : Covers limit .operand []
  /-- Its field has been read. -/
  | operator {field : String} {i : Nat} : Covers limit (.operator field i) [⟨.ident field, i⟩]
  /-- Its field and its operator have been read. -/
  | literal {field : String} {op : CompareOp} {i j : Nat} :
    Covers limit (.literal field i op) [⟨.ident field, i⟩, ⟨.op op, j⟩]
  /-- It is complete and within the limit. -/
  | complete {t : Subtree} {us : List Located} {n : Nat} :
    Derives .negation (us.map Located.token) t.expr n → t.expr.height ≤ limit →
    Covers limit (.complete t) us

/-- The state is the one after the tokens.  The negations before a complete operand are part of
it. -/
structure ParseState.After (limits : Limits) (s : ParseState) (ts : List Located) : Prop where
  exists_covers : ∃ us ws, ts = us ++ ws ∧ Enters limits s.outer s.level us ∧
    s.phase.Covers limits.maxHeight.toNat ws
  negations_eq : ∀ t, s.phase = .complete t → s.level.negations = []

namespace ParseState

theorem after_start : ({} : ParseState).After limits [] :=
  ⟨⟨[], [], rfl, .start, .operand⟩, nofun⟩

theorem after_awaiting (h : Enters limits outer level us) :
    (awaiting outer level).After limits us :=
  ⟨⟨us, [], (List.append_nil us).symm, h, .operand⟩, nofun⟩

theorem one_le_of_completeComparison {s s' : ParseState} {field : String} {offset : Nat}
    {op : CompareOp} {literal : Value}
    (h : s.completeComparison limits field offset op literal = .ok s') :
    1 ≤ limits.maxHeight.toNat := by
  unfold completeComparison at h
  split at h
  · assumption
  · cases h

/-- The state after a complete operand, which takes its negations in. -/
theorem after_complete {s : ParseState} (h : Enters limits outer level us)
    (hws : Derives .negation (ws.map Located.token) t.expr n)
    (hle : t.expr.height ≤ limits.maxHeight.toNat)
    (hcomplete : complete limits outer level t = .ok s) : s.After limits (us ++ ws) := by
  rw [complete_eq] at hcomplete
  rcases h.negate hws hle [] with ⟨t', us', ws', m, hnegate, happ, hus, hws, hle⟩ | ⟨i, hnegate, -⟩
  · rw [hnegate] at hcomplete
    obtain rfl := Except.ok.inj hcomplete
    exact ⟨⟨us', ws', happ, hus, .complete hws hle⟩, fun _ _ => rfl⟩
  · rw [hnegate] at hcomplete
    cases hcomplete

/-- **One more token keeps this invariant.** -/
theorem After.step {s s' : ParseState} {u : Located} (h : s.After limits ts)
    (hstep : s.step limits u = .ok s') : s'.After limits (ts ++ [u]) := by
  obtain ⟨⟨us, ws, rfl, hus, hws⟩, hnegations⟩ := h
  cases steps_of_step hstep with
  | not hdepth =>
    cases hws with
    | operand =>
      rw [List.append_nil]
      exact after_awaiting (hus.not hdepth)
  | lparen hdepth =>
    cases hws with
    | operand =>
      rw [List.append_nil]
      exact after_awaiting (hus.lparen hdepth)
  | ident =>
    cases hws with
    | operand => exact ⟨⟨us, _, by rw [List.append_nil], hus, .operator⟩, nofun⟩
  | op =>
    cases hws with
    | operator => exact ⟨⟨us, _, List.append_assoc .., hus, .literal⟩, nofun⟩
  | @number _ _ field _ _ o x _ hcomplete =>
    cases hws with
    | literal =>
      have hder : Derives .negation [.ident field, .op o, .number x]
          (Subtree.ofExpr (.compare field o (.number x))).expr 0 := .operand (.number field o x)
      rw [List.append_assoc]
      exact after_complete hus hder (one_le_of_completeComparison hstep) hcomplete
  | @text _ _ field _ _ o v _ hcomplete =>
    cases hws with
    | literal =>
      have hder : Derives .negation [.ident field, .op o, .text v]
          (Subtree.ofExpr (.compare field o (.text v))).expr 0 := .operand (.text field o v)
      rw [List.append_assoc]
      exact after_complete hus hder (one_le_of_completeComparison hstep) hcomplete
  | @and outer level t i =>
    cases hws with
    | complete hder hle =>
      obtain ⟨disjunction, conjunction, offsets⟩ := level
      obtain rfl : offsets = [] := hnegations t rfl
      obtain ⟨as, bs, rfl, has, hbs⟩ := Enters.of_conjunction hus
      have hnew := after_awaiting (has.and (hbs.extend hder hle i))
      rwa [List.append_assoc, List.append_assoc, ← List.append_assoc bs]
  | @or outer level t last i hclose =>
    cases hws with
    | complete hder hle =>
      obtain ⟨disjunction, conjunction, offsets⟩ := level
      obtain rfl : offsets = [] := hnegations t rfl
      rcases Enters.closeConjunction hus hder hle [] with
        ⟨last', us', ws', m, hlast, happ, hus, hder, hle⟩ | ⟨j, hlast, -⟩
      · obtain rfl := Except.ok.inj (hlast.symm.trans hclose)
        obtain ⟨as, bs, rfl, has, hbs⟩ := hus.of_disjunction
        have hnew := after_awaiting (has.or (hbs.extend hder hle i))
        rwa [happ, List.append_assoc, List.append_assoc, ← List.append_assoc bs]
      · rw [hlast] at hclose
        cases hclose
  | @rparen enclosing outer level t whole i _ hclose hcomplete =>
    cases hws with
    | complete hder hle =>
      have hus : Enters limits (enclosing :: outer) level us := hus
      have hends : Tier.disjunction.Ends (List.map Located.token [⟨.rparen, i⟩]) :=
        Tier.ends_rparen _
      rcases hus.close (hnegations t rfl) hder hle hends with
        ⟨whole', us', ws', m, hwhole, happ, hus', hder, hle⟩ | ⟨j, hwhole, -⟩
      · obtain rfl := Except.ok.inj (hwhole.symm.trans hclose)
        obtain ⟨vs, rfl, hvs⟩ := hus'.of_lparen
        have hgroup : Derives .operand (List.map Located.token
            (⟨.lparen, enclosing.offset⟩ :: ws' ++ [⟨.rparen, i⟩])) whole'.expr (m + 1) := by
          rw [List.map_append]
          exact hder.group
        have hnew := after_complete hvs hgroup.operand hle hcomplete
        rw [happ]
        simpa only [List.append_assoc, List.cons_append, List.nil_append] using hnew
      · rw [hwhole] at hclose
        cases hclose

/-- **Reading keeps this invariant.** -/
theorem After.run {s s' : ParseState} (h : s.After limits ts) (hrun : s.run limits us = .ok s') :
    s'.After limits (ts ++ us) := by
  induction us generalizing s ts with
  | nil =>
    obtain rfl := Except.ok.inj hrun
    rwa [List.append_nil]
  | cons u us ih =>
    rw [run_cons] at hrun
    obtain ⟨s'', hstep, hrun⟩ := Except.bind_eq_ok_iff.1 hrun
    rw [List.append_cons]
    exact ih (h.step hstep) hrun

theorem after_of_run {s : ParseState} (h : run limits {} us = .ok s) : s.After limits us :=
  after_start.run h

/-- **What is accepted in the end has been said by the tokens.** -/
theorem After.finish {s : ParseState} {stop : Nat} {e : Expr} (h : s.After limits ts)
    (hfinish : s.finish limits stop = .ok e) :
    ∃ n, Derives .disjunction (ts.map Located.token) e n := by
  obtain ⟨level, t, whole, rfl, hclose, rfl⟩ := finish_eq_ok hfinish
  obtain ⟨⟨us, ws, rfl, hus, hws⟩, hnegations⟩ := h
  cases hws with
  | complete hder hle =>
    have hends : Tier.disjunction.Ends (List.map Located.token []) := Tier.ends_nil _
    rcases Enters.close hus (hnegations t rfl) hder hle hends with
      ⟨whole', us', ws', m, hwhole, happ, hus', hder, -⟩ | ⟨i, hwhole, -⟩
    · obtain rfl := Except.ok.inj (hwhole.symm.trans hclose)
      obtain rfl := hus'.of_start
      rw [happ, List.nil_append]
      exact ⟨m, hder⟩
    · cases hwhole.symm.trans hclose

end ParseState

end

end Eligibility
