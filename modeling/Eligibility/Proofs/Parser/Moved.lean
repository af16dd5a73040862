import Eligibility.Proofs.Parser.Failures
import Eligibility.Proofs.Parser.Offsets

/-!
# Reading tokens that stand elsewhere

The reader takes offsets from tokens into what it remembers and from there into errors, but no
decision depends on them.  Moving the tokens moves what the reader remembers, and an error, and
leaves everything else as it is.  What reading says about tokens can therefore be told from their
values alone, with the place of an error as an index among them.

## Main definitions

* `ParseError.move`, `ParseState.move`, `Located.move` : the same with the offsets moved.
* `moved f g x` : the result `x` with its error moved by `f` and its value mapped by `g`.
* `Token.indexed` : tokens that stand at their indices.
* `Expr.ReadAlike` : the same expression, or the same kind of error at the same token.

## Main results

* `ParseState.step_move`, `ParseState.run_move` : **the reader goes on alike with moved tokens.**
* `Expr.ofTokens_move` : what a whole text says is moved with its tokens.
* `Expr.readAlike_ofTokens` : **tokens with the same values are read alike.**
-/

namespace Eligibility

/-! ### Moving offsets -/

variable (f : Nat → Nat)

/-- The token in another place. -/
def Located.move (t : Located) : Located := ⟨t.token, f t.offset⟩

/-- The same cause in another place. -/
def ParseError.move (err : ParseError) : ParseError := ⟨err.kind, f err.offset⟩

/-- The chain with its connectives in other places. -/
def Chain.move (chain : Chain) : Chain := ⟨chain.left, f chain.offset, chain.fault.map f⟩

/-- The level with its tokens in other places. -/
def Level.move (level : Level) : Level :=
  ⟨level.disjunction.map (Chain.move f), level.conjunction.map (Chain.move f),
    level.negations.map f⟩

/-- The level around a group that is in another place. -/
def Enclosing.move (enclosing : Enclosing) : Enclosing :=
  ⟨enclosing.level.move f, f enclosing.offset⟩

/-- The phase with the field name in another place. -/
def Phase.move : Phase → Phase
  | .operand => .operand
  | .operator field i => .operator field (f i)
  | .literal field i op => .literal field (f i) op
  | .complete t => .complete t

/-- The state that remembers other places. -/
def ParseState.move (s : ParseState) : ParseState :=
  ⟨s.outer.map (Enclosing.move f), s.level.move f, s.phase.move f⟩

/-- The result with its error in another place and another value. -/
def moved {α β : Type} (g : α → β) (x : Except ParseError α) : Except ParseError β :=
  (x.map g).mapError (ParseError.move f)

section

variable {α β γ δ : Type} {g : α → β} {h : γ → δ}

theorem moved_error (g : α → β) (err : ParseError) :
    moved f g (.error err) = .error (err.move f) := rfl

/-- One computation after another is moved if both are. -/
theorem moved_bind {x : Except ParseError α} {k : α → Except ParseError γ}
    {k' : β → Except ParseError δ} (hk : ∀ a, k' (g a) = moved f h (k a)) :
    (moved f g x).bind k' = moved f h (x.bind k) := by
  cases x with
  | error err => rfl
  | ok a => exact hk a

end

variable {f} {limits : Limits} {c : Connective} {limit : UInt64}

/-! ### Parts that are complete -/

namespace Chain

theorem attach_move (chain : Option Chain) (t : Subtree) :
    attach c limit (chain.map (Chain.move f)) t =
      ((attach c limit chain t).1, (attach c limit chain t).2.map f) := by
  cases chain with
  | none => rfl
  | some chain =>
    rw [Option.map_some, attach_some, attach_some]
    refine Prod.ext rfl ?_
    show (chain.fault.map f).or (if (chain.left.join c t).height ≤ limit.toNat then none
      else some (f chain.offset)) = _
    rw [Option.map_or]
    split <;> rfl

theorem extend_move (chain : Option Chain) (t : Subtree) (i : Nat) :
    extend c limit (chain.map (Chain.move f)) t (f i) = (extend c limit chain t i).move f := by
  rw [extend_eq, extend_eq, attach_move]
  rfl

theorem close_move (chain : Option Chain) (t : Subtree) :
    close c limit (chain.map (Chain.move f)) t = moved f id (close c limit chain t) := by
  rw [close_eq, close_eq, attach_move]
  cases (attach c limit chain t).2 <;> rfl

end Chain

namespace Level

theorem negate_move (offsets : List Nat) (t : Subtree) :
    negate limits (offsets.map f) t = moved f id (negate limits offsets t) := by
  induction offsets generalizing t with
  | nil => rfl
  | cons i offsets ih =>
    rw [List.map_cons, negate, negate]
    split
    · exact ih t.not
    · rfl

theorem close_move (level : Level) (t : Subtree) :
    (level.move f).close limits t = moved f id (level.close limits t) := by
  show (Chain.close .and limits.maxHeight (level.conjunction.map (Chain.move f)) t).bind _ = _
  rw [Chain.close_move]
  exact moved_bind f fun last => Chain.close_move level.disjunction last

end Level

theorem Enclosing.depth_move (outer : List Enclosing) :
    depth (outer.map (Enclosing.move f)) = depth outer := by
  induction outer with
  | nil => rfl
  | cons enclosing outer ih =>
    rw [List.map_cons, depth, depth, ih]
    simp only [Enclosing.move, Level.move, List.length_map]

namespace ParseState

theorem depth_move (s : ParseState) : (s.move f).depth = s.depth := by
  simp only [depth, move, Level.move, Enclosing.depth_move, List.length_map]

theorem complete_move (outer : List Enclosing) (level : Level) (t : Subtree) :
    complete limits (outer.map (Enclosing.move f)) (level.move f) t =
      moved f (move f) (complete limits outer level t) := by
  show (Level.negate limits (level.negations.map f) t).bind _ = _
  rw [Level.negate_move]
  exact moved_bind f fun operand => rfl

theorem completeComparison_move (s : ParseState) (field : String) (i : Nat) (op : CompareOp)
    (literal : Value) : (s.move f).completeComparison limits field (f i) op literal =
      moved f (move f) (s.completeComparison limits field i op literal) := by
  unfold completeComparison
  split
  · exact complete_move s.outer s.level _
  · rfl

/-! ### Reading on -/

/-- A token behind a complete operand that is no connective: the level has to end first. -/
theorem step_move_of_close {outer : List Enclosing} {level : Level} {t : Subtree} {token : Token}
    (i : Nat) (hand : token ≠ .and) (hor : token ≠ .or) :
    ((holding outer level t).move f).step limits ⟨token, f i⟩ =
      moved f (move f) ((holding outer level t).step limits ⟨token, i⟩) := by
  cases token with
  | and => exact absurd rfl hand
  | or => exact absurd rfl hor
  | rparen =>
    show ((level.move f).close limits t).bind _ = _
    rw [Level.close_move]
    refine moved_bind f fun whole => ?_
    cases outer with
    | nil => rfl
    | cons enclosing outer => exact complete_move outer enclosing.level whole
  | ident | number | text | op | not | lparen =>
    show ((level.move f).close limits t).bind _ = _
    rw [Level.close_move]
    refine moved_bind f fun whole => ?_
    cases outer <;> rfl

/-- **The reader goes on alike with a moved token.** -/
theorem step_move (s : ParseState) (u : Located) :
    (s.move f).step limits (u.move f) = moved f (move f) (s.step limits u) := by
  obtain ⟨outer, level, phase⟩ := s
  obtain ⟨token, i⟩ := u
  cases phase with
  | operand =>
    -- as much is open in the moved state, so it lets in as much
    have hdepth : (awaiting (outer.map (Enclosing.move f)) (level.move f)).depth =
        (awaiting outer level).depth := depth_move (awaiting outer level)
    cases token with
    | not =>
      show (awaiting (outer.map (Enclosing.move f)) (level.move f)).step limits ⟨.not, f i⟩ =
        moved f (move f) ((awaiting outer level).step limits ⟨.not, i⟩)
      rw [step_not, step_not, hdepth]
      split <;> rfl
    | lparen =>
      show (awaiting (outer.map (Enclosing.move f)) (level.move f)).step limits ⟨.lparen, f i⟩ =
        moved f (move f) ((awaiting outer level).step limits ⟨.lparen, i⟩)
      rw [step_lparen, step_lparen, hdepth]
      split <;> rfl
    | ident | number | text | op | and | or | rparen => rfl
  | operator field j => cases token <;> rfl
  | literal field j o =>
    cases token with
    | number x =>
      exact completeComparison_move ⟨outer, level, .literal field j o⟩ field j o (.number x)
    | text v => exact completeComparison_move ⟨outer, level, .literal field j o⟩ field j o (.text v)
    | ident | op | and | or | not | lparen | rparen => rfl
  | complete t =>
    cases token with
    | and =>
      exact congrArg (fun chain => Except.ok (awaiting (outer.map (Enclosing.move f))
        ⟨level.disjunction.map (Chain.move f), some chain, level.negations.map f⟩))
        (Chain.extend_move level.conjunction t i)
    | or =>
      show (Chain.close .and limits.maxHeight (level.conjunction.map (Chain.move f)) t).bind _ = _
      rw [Chain.close_move]
      refine moved_bind f fun last => ?_
      exact congrArg (fun chain => Except.ok (awaiting (outer.map (Enclosing.move f))
        ⟨some chain, none, []⟩)) (Chain.extend_move level.disjunction last i)
    | ident | number | text | op | not | lparen | rparen =>
      exact step_move_of_close i Token.noConfusion Token.noConfusion

/-- **The reader goes on alike with any moved tokens.** -/
theorem run_move (s : ParseState) (us : List Located) :
    (s.move f).run limits (us.map (Located.move f)) = moved f (move f) (s.run limits us) := by
  induction us generalizing s with
  | nil => rfl
  | cons u us ih =>
    rw [List.map_cons, run_cons, run_cons, step_move]
    exact moved_bind f ih

theorem finish_move (s : ParseState) (stop : Nat) :
    (s.move f).finish limits (f stop) = moved f id (s.finish limits stop) := by
  obtain ⟨outer, level, phase⟩ := s
  cases phase with
  | operand | operator | literal => rfl
  | complete t =>
    show ((level.move f).close limits t).bind _ = _
    rw [Level.close_move]
    refine moved_bind f fun whole => ?_
    cases outer <;> rfl

end ParseState

/-! ### Whole texts -/

namespace Expr

/-- What a whole text says is moved with its tokens. -/
theorem ofTokens_move {us : List Located} (hne : us ≠ []) (stop : Nat) :
    ofTokens limits (f stop) (us.map (Located.move f)) = moved f id (ofTokens limits stop us) := by
  have hne' : us.map (Located.move f) ≠ [] := fun hnil => hne (List.map_eq_nil_iff.1 hnil)
  rw [ofTokens_of_ne_nil hne, ofTokens_of_ne_nil hne',
    show ParseState.run limits {} (us.map (Located.move f)) = _ from ParseState.run_move {} us]
  exact moved_bind f fun s => s.finish_move stop

end Expr

/-- Tokens that stand at their indices. -/
def Token.indexed (ts : List Token) : List Located :=
  ts.mapIdx fun i t => ⟨t, i⟩

/-- The offset of the token at an index, or the end behind the last one. -/
def Located.place (us : List Located) (stop i : Nat) : Nat :=
  if h : i < us.length then us[i].offset else stop

namespace Located

variable {us : List Located} {stop i : Nat}

theorem place_of_lt (h : i < us.length) : place us stop i = us[i].offset := dif_pos h

theorem place_length : place us stop us.length = stop := dif_neg (Nat.lt_irrefl _)

/-- Tokens are those that stand at their indices, moved into their places. -/
theorem map_move_indexed (us : List Located) (stop : Nat) :
    (Token.indexed (us.map token)).map (move (place us stop)) = us := by
  refine List.ext_getElem (by simp [Token.indexed]) fun i _ hi => ?_
  simp [Token.indexed, move, place_of_lt hi]

end Located

namespace Expr

/-- The results of reading tokens in two texts, which end at `stop` and `stop'`: the same
expression, or the same kind of error.  Then it is at both ends if something is missing there, or at
both beginnings if there are no tokens, or else at the same one of the tokens. -/
inductive ReadAlike (stop stop' : Nat) (us us' : List Located) :
    Except ParseError Expr → Except ParseError Expr → Prop
  /-- The same expression. -/
  | ok {e : Expr} : ReadAlike stop stop' us us' (.ok e) (.ok e)
  /-- There are no tokens. -/
  | empty : ReadAlike stop stop' us us' (.error ⟨.empty, 0⟩) (.error ⟨.empty, 0⟩)
  /-- Something is missing at the end. -/
  | missing {expected : Expected} : ReadAlike stop stop' us us'
      (.error ⟨.missing expected, stop⟩) (.error ⟨.missing expected, stop'⟩)
  /-- An error at a token. -/
  | token {kind : ParseError.Kind} {i : Nat} (hempty : kind ≠ .empty)
      (hmissing : ∀ expected, kind ≠ .missing expected) (hi : i < us.length)
      (hi' : i < us'.length) :
    ReadAlike stop stop' us us' (.error ⟨kind, us[i].offset⟩) (.error ⟨kind, us'[i].offset⟩)

variable {us us' : List Located}

/-- What tokens say is what their values say. -/
theorem ofTokens_eq_moved (hne : us ≠ []) (stop : Nat) : ofTokens limits stop us =
    moved (Located.place us stop) id
      (ofTokens limits us.length (Token.indexed (us.map Located.token))) := by
  have hne' : Token.indexed (us.map Located.token) ≠ [] := by
    simpa [Token.indexed] using hne
  rw [← ofTokens_move hne', Located.place_length, Located.map_move_indexed]

/-- **Tokens with the same values are read alike.** -/
theorem readAlike_ofTokens (htokens : us.map Located.token = us'.map Located.token)
    (stop stop' : Nat) : ReadAlike stop stop' us us' (ofTokens limits stop us)
      (ofTokens limits stop' us') := by
  have hlength : us.length = us'.length := by
    rw [← List.length_map, htokens, List.length_map]
  by_cases hne : us = []
  · obtain rfl : us' = [] := List.eq_nil_of_length_eq_zero (by rw [← hlength, hne, List.length_nil])
    rw [hne]
    exact .empty
  · have hne' : us' ≠ [] := by
      rintro rfl
      exact hne (List.eq_nil_of_length_eq_zero hlength)
    rw [ofTokens_eq_moved hne, ofTokens_eq_moved hne', ← htokens, ← hlength]
    cases hread : ofTokens limits us.length (Token.indexed (us.map Located.token)) with
    | ok e => exact .ok
    | error err =>
      rcases (pointsAt_of_ofTokens hread).empty_or_missing_or_mem with rfl | ⟨expected, rfl⟩ |
        ⟨hempty, hmissing, t, hmem, hoffset⟩
      · -- there are tokens
        obtain ⟨hnil⟩ := pointsAt_of_ofTokens hread
        exact absurd (by simpa [Token.indexed] using hnil) hne
      · rw [moved_error, moved_error, ParseError.move, ParseError.move, Located.place_length,
          hlength, Located.place_length]
        exact .missing
      · obtain ⟨i, hi, rfl⟩ := List.getElem_of_mem hmem
        have hi : i < us.length := by simpa [Token.indexed] using hi
        have hplace : err.offset = i := by
          rw [← hoffset]
          simp [Token.indexed]
        rw [moved_error, moved_error, ParseError.move, ParseError.move, hplace,
          Located.place_of_lt hi, Located.place_of_lt (hlength ▸ hi)]
        exact .token hempty hmissing hi _

end Expr

end Eligibility
