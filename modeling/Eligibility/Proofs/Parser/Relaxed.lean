import Eligibility.Proofs.Parser.Exact
import Eligibility.Proofs.Parser.Failures

/-!
# Reading under looser limits

A limit may end the reading of a text earlier than its tokens do, but it leaves no other trace.  The
readers under two pairs of limits, one looser than the other, remember the same at every token, but
for the faults of chains that are too high for the stricter reader only.  Such a fault may still be
pending when another error comes first; then both readers report that error.

## Main definitions

* `Relaxes R x y` : `x` reports a limit, or `x` and `y` fail alike, or their values are related.
* `Chain.Looser`, `Level.Looser`, `Enclosing.Looser`, `ParseState.Looser` : the same state, under
  looser limits.

## Main results

* `ParseState.Looser.step`, `ParseState.Looser.run` : **the two readers go on alike.**
* `Expr.parse_eq_of_within` : a result that reports no limit is the result under looser limits.
-/

namespace Eligibility

/-- A result under some limits and one under looser limits: the first one reports a limit, or they
correspond to each other. -/
inductive Relaxes {α β : Type} (R : α → β → Prop) :
    Except ParseError α → Except ParseError β → Prop
  /-- The first result reports a limit. -/
  | limit {err : ParseError} {y : Except ParseError β} : err.IsLimit → Relaxes R (.error err) y
  /-- Both fail alike. -/
  | error {err : ParseError} : Relaxes R (.error err) (.error err)
  /-- Both succeed. -/
  | ok {a : α} {b : β} : R a b → Relaxes R (.ok a) (.ok b)

theorem Relaxes.bind {α β γ δ : Type} {R : α → β → Prop} {S : γ → δ → Prop}
    {x : Except ParseError α} {y : Except ParseError β} {f : α → Except ParseError γ}
    {g : β → Except ParseError δ} (h : Relaxes R x y)
    (hfg : ∀ a b, R a b → Relaxes S (f a) (g b)) : Relaxes S (x.bind f) (y.bind g) := by
  cases h with
  | limit hlimit => exact .limit hlimit
  | error => exact .error
  | ok hab => exact hfg _ _ hab

/-- Results that relax to each other are the same if no limit is reported. -/
theorem Relaxes.eq {α : Type} {x y : Except ParseError α} (h : Relaxes Eq x y)
    (hlimit : ∀ err, x = .error err → ¬err.IsLimit) : y = x := by
  cases h with
  | limit herr => exact absurd herr (hlimit _ rfl)
  | error => rfl
  | ok hab => rw [hab]

/-! ### The same state under looser limits -/

/-- The same chain under looser limits, where it may be without its fault. -/
structure Chain.Looser (a b : Chain) : Prop where
  left_eq : a.left = b.left
  offset_eq : a.offset = b.offset
  fault_eq_none : a.fault = none → b.fault = none

/-- The same level under looser limits. -/
structure Level.Looser (a b : Level) : Prop where
  disjunction : Option.Rel Chain.Looser a.disjunction b.disjunction
  conjunction : Option.Rel Chain.Looser a.conjunction b.conjunction
  negations_eq : a.negations = b.negations

/-- The same level around a group, under looser limits. -/
structure Enclosing.Looser (a b : Enclosing) : Prop where
  level : a.level.Looser b.level
  offset_eq : a.offset = b.offset

/-- The same state under looser limits. -/
structure ParseState.Looser (s s' : ParseState) : Prop where
  outer : List.Forall₂ Enclosing.Looser s.outer s'.outer
  level : s.level.Looser s'.level
  phase_eq : s.phase = s'.phase

variable {limits limits' : Limits} {c : Connective} {chain chain' : Option Chain}
  {level level' : Level} {outer outer' : List Enclosing} {s s' : ParseState}

theorem Level.looser_empty : Level.Looser {} {} := ⟨.none, .none, rfl⟩

theorem ParseState.looser_start : ParseState.Looser {} {} := ⟨.nil, Level.looser_empty, rfl⟩

/-- As much is open under looser limits. -/
theorem Enclosing.depth_eq_of_looser (h : List.Forall₂ Enclosing.Looser outer outer') :
    depth outer = depth outer' := by
  induction h with
  | nil => rfl
  | cons henclosing _ ih => rw [depth, depth, henclosing.level.negations_eq, ih]

theorem ParseState.Looser.depth_eq (h : s.Looser s') : s.depth = s'.depth := by
  rw [ParseState.depth, ParseState.depth, Enclosing.depth_eq_of_looser h.outer,
    h.level.negations_eq]

/-! ### Parts that are complete -/

section

variable (hle : limits.maxHeight.toNat ≤ limits'.maxHeight.toNat)
include hle

/-- A further operand of a chain makes it the same chain, and under looser limits no sooner too
high. -/
theorem Chain.attach_of_looser (h : Option.Rel Looser chain chain') (t : Subtree) :
    (attach c limits.maxHeight chain t).1 = (attach c limits'.maxHeight chain' t).1 ∧
      ((attach c limits.maxHeight chain t).2 = none →
        (attach c limits'.maxHeight chain' t).2 = none) := by
  cases h with
  | none => exact ⟨rfl, id⟩
  | @some a b hab =>
    rw [attach_some, attach_some, hab.left_eq]
    refine ⟨rfl, fun hnone => ?_⟩
    -- without a fault the chain had none before, and the new operand has not given it one
    obtain ⟨hfault, hnew⟩ := Option.or_eq_none_iff.1 hnone
    have hheight : (b.left.join c t).height ≤ limits.maxHeight.toNat := by
      by_contra hlt
      rw [if_neg hlt] at hnew
      cases hnew
    exact Option.or_eq_none_iff.2 ⟨hab.fault_eq_none hfault, if_pos (hheight.trans hle)⟩

theorem Chain.looser_extend (h : Option.Rel Looser chain chain') (t : Subtree) (i : Nat) :
    Looser (extend c limits.maxHeight chain t i) (extend c limits'.maxHeight chain' t i) := by
  obtain ⟨hleft, hfault⟩ := attach_of_looser (c := c) hle h t
  exact ⟨hleft, rfl, hfault⟩

theorem Chain.relaxes_close (h : Option.Rel Looser chain chain') (t : Subtree) :
    Relaxes Eq (close c limits.maxHeight chain t) (close c limits'.maxHeight chain' t) := by
  obtain ⟨hleft, hfault⟩ := attach_of_looser (c := c) hle h t
  rw [close_eq, close_eq]
  cases hplace : (attach c limits.maxHeight chain t).2 with
  | none =>
    rw [hfault hplace]
    exact .ok hleft
  | some i => exact .limit ⟨_, .inr rfl⟩

theorem Level.relaxes_negate (offsets : List Nat) (t : Subtree) :
    Relaxes Eq (negate limits offsets t) (negate limits' offsets t) := by
  induction offsets generalizing t with
  | nil => exact .ok rfl
  | cons i offsets ih =>
    rw [negate, negate]
    split
    · rw [if_pos (Nat.le_trans ‹_› hle)]
      exact ih t.not
    · exact .limit ⟨_, .inr rfl⟩

theorem Level.relaxes_close (h : level.Looser level') (t : Subtree) :
    Relaxes Eq (level.close limits t) (level'.close limits' t) := by
  refine (Chain.relaxes_close hle h.conjunction t).bind fun last _ hlast => ?_
  subst hlast
  exact Chain.relaxes_close hle h.disjunction last

theorem ParseState.relaxes_complete (houter : List.Forall₂ Enclosing.Looser outer outer')
    (h : level.Looser level') (t : Subtree) :
    Relaxes Looser (complete limits outer level t) (complete limits' outer' level' t) := by
  unfold complete
  rw [← h.negations_eq]
  refine (Level.relaxes_negate hle level.negations t).bind fun operand _ hoperand => ?_
  subst hoperand
  exact .ok ⟨houter, ⟨h.disjunction, h.conjunction, rfl⟩, rfl⟩

theorem ParseState.relaxes_completeComparison (h : s.Looser s') (field : String) (i : Nat)
    (op : CompareOp) (literal : Value) :
    Relaxes Looser (s.completeComparison limits field i op literal)
      (s'.completeComparison limits' field i op literal) := by
  unfold completeComparison
  split
  · rw [if_pos (Nat.le_trans ‹_› hle)]
    exact relaxes_complete hle h.outer h.level _
  · exact .limit ⟨_, .inr rfl⟩

end

/-! ### Reading on -/

namespace ParseState

/-- A token behind a complete operand that is no connective: the level has to end well first. -/
theorem relaxes_step_of_close {t : Subtree} {u : Located} (hand : u.token ≠ .and)
    (hor : u.token ≠ .or) (hle : limits.maxHeight.toNat ≤ limits'.maxHeight.toNat)
    (houter : List.Forall₂ Enclosing.Looser outer outer') (h : level.Looser level') :
    Relaxes Looser ((holding outer level t).step limits u)
      ((holding outer' level' t).step limits' u) := by
  obtain ⟨token, i⟩ := u
  cases token with
  | and => exact absurd rfl hand
  | or => exact absurd rfl hor
  | rparen =>
    refine (Level.relaxes_close hle h t).bind fun whole _ hwhole => ?_
    subst hwhole
    cases houter with
    | nil => exact .error
    | cons henclosing houter => exact relaxes_complete hle houter henclosing.level whole
  | ident | number | text | op | not | lparen =>
    refine (Level.relaxes_close hle h t).bind fun whole _ hwhole => ?_
    -- what is wrong with the token depends on whether a group is open, and on no limit
    cases houter <;> exact .error

/-- **The two readers go on alike with one more token.** -/
theorem Looser.step (hwithin : limits.Within limits') (h : s.Looser s') (u : Located) :
    Relaxes Looser (s.step limits u) (s'.step limits' u) := by
  have hdepth : limits.maxDepth.toNat ≤ limits'.maxDepth.toNat := hwithin.1
  have hle : limits.maxHeight.toNat ≤ limits'.maxHeight.toNat := hwithin.2
  -- as much is open in both states, so the looser limits let in what the stricter ones do
  have heq := h.depth_eq
  obtain ⟨outer, level, phase⟩ := s
  obtain ⟨outer', level', phase'⟩ := s'
  obtain ⟨houter, hlevel, rfl⟩ : List.Forall₂ Enclosing.Looser outer outer' ∧
      level.Looser level' ∧ phase = phase' := ⟨h.outer, h.level, h.phase_eq⟩
  obtain ⟨token, i⟩ := u
  cases phase with
  | operand =>
    cases token with
    | not =>
      show Relaxes Looser ((awaiting outer level).step limits ⟨.not, i⟩)
        ((awaiting outer' level').step limits' ⟨.not, i⟩)
      rw [step_not, step_not]
      split
      · rw [if_pos (by rw [awaiting, ← heq]; exact Nat.lt_of_lt_of_le ‹_› hdepth)]
        exact .ok ⟨houter, ⟨hlevel.disjunction, hlevel.conjunction,
          congrArg (i :: ·) hlevel.negations_eq⟩, rfl⟩
      · exact .limit ⟨_, .inl rfl⟩
    | lparen =>
      show Relaxes Looser ((awaiting outer level).step limits ⟨.lparen, i⟩)
        ((awaiting outer' level').step limits' ⟨.lparen, i⟩)
      rw [step_lparen, step_lparen]
      split
      · rw [if_pos (by rw [awaiting, ← heq]; exact Nat.lt_of_lt_of_le ‹_› hdepth)]
        exact .ok ⟨.cons ⟨hlevel, rfl⟩ houter, Level.looser_empty, rfl⟩
      · exact .limit ⟨_, .inl rfl⟩
    | ident field => exact .ok ⟨houter, hlevel, rfl⟩
    | number | text | op | and | or | rparen => exact .error
  | operator field j =>
    cases token with
    | op o => exact .ok ⟨houter, hlevel, rfl⟩
    | ident | number | text | and | or | not | lparen | rparen => exact .error
  | literal field j o =>
    cases token with
    | number x => exact relaxes_completeComparison hle h field j o (.number x)
    | text v => exact relaxes_completeComparison hle h field j o (.text v)
    | ident | op | and | or | not | lparen | rparen => exact .error
  | complete t =>
    cases token with
    | and =>
      exact .ok ⟨houter, ⟨hlevel.disjunction,
        .some (Chain.looser_extend hle hlevel.conjunction t i), hlevel.negations_eq⟩, rfl⟩
    | or =>
      refine (Chain.relaxes_close hle hlevel.conjunction t).bind fun last _ hlast => ?_
      subst hlast
      exact .ok ⟨houter, ⟨.some (Chain.looser_extend hle hlevel.disjunction last i), .none, rfl⟩,
        rfl⟩
    | ident | number | text | op | not | lparen | rparen =>
      exact relaxes_step_of_close Token.noConfusion Token.noConfusion hle houter hlevel

/-- **The two readers go on alike with any tokens.** -/
theorem Looser.run (hwithin : limits.Within limits') (h : s.Looser s') (us : List Located) :
    Relaxes Looser (s.run limits us) (s'.run limits' us) := by
  induction us generalizing s s' with
  | nil => exact .ok h
  | cons u us ih =>
    rw [run_cons, run_cons]
    exact (h.step hwithin u).bind fun _ _ => ih

/-- The two readers end alike. -/
theorem Looser.finish (hwithin : limits.Within limits') (h : s.Looser s') (stop : Nat) :
    Relaxes Eq (s.finish limits stop) (s'.finish limits' stop) := by
  have hle : limits.maxHeight.toNat ≤ limits'.maxHeight.toNat := hwithin.2
  obtain ⟨outer, level, phase⟩ := s
  obtain ⟨outer', level', phase'⟩ := s'
  obtain ⟨houter, hlevel, rfl⟩ : List.Forall₂ Enclosing.Looser outer outer' ∧
      level.Looser level' ∧ phase = phase' := ⟨h.outer, h.level, h.phase_eq⟩
  cases phase with
  | operand | operator | literal => exact .error
  | complete t =>
    refine (Level.relaxes_close hle hlevel t).bind fun whole _ hwhole => ?_
    subst hwhole
    cases houter with
    | nil => exact .ok rfl
    | @cons enclosing enclosing' _ _ henclosing _ =>
      show Relaxes Eq (.error ⟨.unmatchedParen, enclosing.offset⟩)
        (.error ⟨.unmatchedParen, enclosing'.offset⟩)
      rw [henclosing.offset_eq]
      exact .error

end ParseState

/-! ### Whole texts -/

namespace Expr

theorem relaxes_ofTokens (hwithin : limits.Within limits') (stop : Nat) (ts : List Located) :
    Relaxes Eq (ofTokens limits stop ts) (ofTokens limits' stop ts) := by
  by_cases hne : ts = []
  · subst hne
    exact .error
  · rw [ofTokens_of_ne_nil hne, ofTokens_of_ne_nil hne]
    exact (ParseState.looser_start.run hwithin ts).bind fun _ _ h => h.finish hwithin stop

/-- **Limits only ever turn a result into an error that reports a limit.**  If reading a text does
not report one, then under looser limits the result is the same: the same expression, or the same
error at the same place. -/
theorem parse_eq_of_within {source : String} (hwithin : limits.Within limits')
    (hlimit : ∀ err, parse limits source = .error err → ¬err.IsLimit) :
    parse limits' source = parse limits source := by
  cases hscan : Token.scanText source with
  | error err => rw [parse, parse, hscan]; rfl
  | ok ts =>
    rw [parse_of_scanText hscan] at hlimit ⊢
    rw [parse_of_scanText hscan]
    exact (relaxes_ofTokens hwithin _ ts).eq hlimit

/-- The conjunction is already too high for the stricter limits when its last operand turns out to
be missing.  That is the error under both. -/
theorem parse_eq_of_pending_fault :
    let source := "a == 1 AND b == 2 AND c == 3 AND )"
    parse ⟨1, 2⟩ source = .error ⟨.unexpected .expression .rparen, 33⟩ ∧
      parse ⟨64, 512⟩ source = parse ⟨1, 2⟩ source := by
  intro source
  have hparse : parse ⟨1, 2⟩ source = .error ⟨.unexpected .expression .rparen, 33⟩ := by
    decide +kernel
  refine ⟨hparse, parse_eq_of_within ⟨by decide, by decide⟩ ?_⟩
  rintro err herr ⟨limit, hkind⟩
  rw [hparse] at herr
  obtain rfl := Except.error.inj herr
  rcases hkind with hkind | hkind <;> cases hkind

end Expr

end Eligibility
