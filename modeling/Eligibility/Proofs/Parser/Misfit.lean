import Eligibility.Proofs.Parser.Failures

/-!
# Syntax errors come as early as they can, and no earlier

What has been read without an error is always the beginning of a sentence, because what is open can
be closed.  A sentence is read to its end unless a limit is in the way.  So an error at a token is
at the first one that no sentence has there, and an error at the end is at the end of a beginning of
a sentence that is none itself.

## Main definitions

* `FirstMisfit ts u` : `u` is the first of the tokens that no sentence can go on with.
* `Unfinished ts` : the tokens are a proper beginning of a sentence.

## Main results

* `ParseState.After.viable` : what has been read is the beginning of a sentence.
* `not_viable_of_run` : what fails for another reason than a limit is none.
* `misfit_or_unfinished_of_ofTokens` : **syntax errors are at the first misfit, or at the end.**
-/

namespace Eligibility

/-- The first of the tokens that no sentence can go on with. -/
def FirstMisfit (ts : List Located) (u : Located) : Prop :=
  ∃ before after, ts = before ++ u :: after ∧ Viable (before.map Located.token) ∧
    ¬Viable ((before ++ [u]).map Located.token)

/-- The tokens are a proper beginning of a sentence. -/
def Unfinished (ts : List Located) : Prop :=
  ∃ us, us ≠ [] ∧ Sentence (ts.map Located.token ++ us)

variable {limits : Limits} {stop : Nat} {ts us : List Located} {u : Located} {err : ParseError}

/-! ### What has been read goes on to a sentence -/

/-- **What has been read is the beginning of a sentence.** -/
theorem ParseState.After.viable {s : ParseState} (h : s.After limits ts) :
    Viable (ts.map Located.token) := by
  obtain ⟨⟨us, ws, rfl, hus, hws⟩, -⟩ := h
  have hawaits := hus.awaits
  rw [List.map_append]
  -- an operand under way becomes a comparison
  generalize s.phase = phase at hws
  cases hws with
  | operand =>
    have hnext : Viable (us.map Located.token ++ [] ++ [.ident "", .op .eq, .text ""]) := by
      rw [List.append_assoc]
      exact hawaits.viable (.operand (.text "" .eq ""))
    exact hnext.of_append
  | @operator field i =>
    have hnext : Viable (us.map Located.token ++ [.ident field] ++ [.op .eq, .text ""]) := by
      rw [List.append_assoc]
      exact hawaits.viable (.operand (.text field .eq ""))
    exact hnext.of_append
  | @literal field op i j =>
    have hnext : Viable (us.map Located.token ++ [.ident field, .op op] ++ [.text ""]) := by
      rw [List.append_assoc]
      exact hawaits.viable (.operand (.text field op ""))
    exact hnext.of_append
  | complete hder _ => exact hawaits.viable hder

/-! ### A sentence is read to its end -/

theorem ParseError.Exceeds.isLimit {n height : Nat} (h : err.Exceeds limits n height) :
    err.IsLimit := by
  cases h with
  | nesting => exact ⟨_, .inl rfl⟩
  | height => exact ⟨_, .inr rfl⟩

/-- Only a limit keeps a sentence from being read. -/
theorem not_sentence_of_ofTokens (h : Expr.ofTokens limits stop ts = .error err)
    (herr : ¬err.IsLimit) : ¬Sentence (ts.map Located.token) := by
  rintro ⟨e, n, hder⟩
  rcases ofTokens_of_derives hder limits stop with ⟨hok, -⟩ | ⟨err', herr', hexceeds⟩
  · cases hok.symm.trans h
  · obtain rfl := Except.error.inj (herr'.symm.trans h)
    exact herr hexceeds.isLimit

/-- **What fails for another reason than a limit is no beginning of a sentence.** -/
theorem not_viable_of_run (h : ParseState.run limits {} us = .error err) (herr : ¬err.IsLimit) :
    ¬Viable (us.map Located.token) := by
  rintro ⟨vs, hsentence⟩
  -- the places of the tokens that would complete the sentence do not matter
  let ws : List Located := vs.map (⟨·, 0⟩)
  have hws : ws.map Located.token = vs := by
    rw [List.map_map]
    exact List.map_id vs
  have hne : us ++ ws ≠ [] := by
    intro hnil
    rw [(List.append_eq_nil_iff.1 hnil).1] at h
    cases h
  have hall : Expr.ofTokens limits 0 (us ++ ws) = .error err := by
    rw [Expr.ofTokens_of_ne_nil hne, ParseState.run_append_of_error h]
    rfl
  refine not_sentence_of_ofTokens hall herr ?_
  rwa [List.map_append, hws]

/-! ### Which errors are at a token -/

theorem Level.isLimit_of_negate {offsets : List Nat} {t : Subtree}
    (h : negate limits offsets t = .error err) : err.IsLimit := by
  induction offsets generalizing t with
  | nil => cases h
  | cons i offsets ih =>
    rw [negate] at h
    split at h
    · exact ih h
    · obtain rfl := Except.error.inj h
      exact ⟨_, .inr rfl⟩

theorem Chain.isLimit_of_close {c : Connective} {limit : UInt64} {chain : Option Chain}
    {t : Subtree} (h : close c limit chain t = .error err) : err.IsLimit := by
  rw [close_eq] at h
  split at h
  · cases h
  · obtain rfl := Except.error.inj h
    exact ⟨_, .inr rfl⟩

theorem Level.isLimit_of_close {level : Level} {t : Subtree}
    (h : level.close limits t = .error err) : err.IsLimit := by
  rcases Except.bind_eq_error_iff.1 h with hclose | ⟨last, -, hclose⟩
  · exact Chain.isLimit_of_close hclose
  · exact Chain.isLimit_of_close hclose

/-- The kinds of the errors that blame the token at which reading fails. -/
def ParseError.Kind.Blames (kind : ParseError.Kind) (token : Token) : Prop :=
  (∃ expected, kind = .unexpected expected token) ∨ kind = .trailing token ∨
    kind = .unmatchedParen ∧ token = .rparen

/-- An error at a token reports a limit, or else it blames that token. -/
theorem ParseState.Fails.blames {s : ParseState} (h : Fails limits s u err) :
    err.IsLimit ∨ err.offset = u.offset ∧ err.kind.Blames u.token := by
  cases h with
  | nesting => exact .inl ⟨_, .inl rfl⟩
  | comparison => exact .inl ⟨_, .inr rfl⟩
  | negation _ _ hnegate | group _ _ hnegate => exact .inl (Level.isLimit_of_negate hnegate)
  | conjunction _ hclose => exact .inl (Chain.isLimit_of_close hclose)
  | level _ _ hclose => exact .inl (Level.isLimit_of_close hclose)
  | unexpected expected => exact .inr ⟨rfl, .inl ⟨expected, rfl⟩⟩
  | unmatchedParen htoken => exact .inr ⟨rfl, .inr (.inr ⟨rfl, htoken⟩)⟩
  | trailing => exact .inr ⟨rfl, .inr (.inl rfl)⟩

/-! ### Limits that no text of this length exceeds -/

theorem Derives.height_le_length {tier : Tier} {ts : List Token} {e : Expr} {n : Nat}
    (h : Derives tier ts e n) : e.height ≤ ts.length := by
  induction h with
  | number | text => exact Nat.le_add_left 1 2
  | operand _ ih | negation _ ih | conjunction _ ih => exact ih
  | group _ ih =>
    rw [List.length_append, List.length_cons]
    omega
  | not _ ih =>
    rw [Expr.height_not, List.length_cons]
    omega
  | and _ _ ihl ihr =>
    rw [Expr.height_and, List.length_append, List.length_cons]
    omega
  | or _ _ ihl ihr =>
    rw [Expr.height_or, List.length_append, List.length_cons]
    omega

theorem Token.length_openAfter_le (ts : List Token) : (openAfter ts).length ≤ ts.length := by
  induction ts using List.reverseRecOn with
  | nil => exact Nat.le_refl 0
  | append_singleton ts t ih =>
    have hmark : (mark (openAfter ts) t).length ≤ (openAfter ts).length + 1 := by
      have hdrop := List.length_dropWhile_le (· = Token.not) (openAfter ts)
      have htail := List.length_dropWhile_le (· = Token.not) (openAfter ts).tail
      rw [List.length_tail] at htail
      cases t <;> simp only [mark, List.length_cons] <;> omega
    rw [openAfter_append, List.length_append]
    exact hmark.trans (Nat.add_le_add_right ih 1)

theorem Outgrows.lt_length {limit i : Nat} (h : Outgrows limit ts i) : limit < ts.length := by
  cases h with
  | join c hts _ hl hr _ _ _ hheight =>
    have hl := hl.height_le_length
    have hr := hr.height_le_length
    rw [c.height_join] at hheight
    simp only [hts, List.length_append, List.length_cons, List.length_map] at hl hr ⊢
    omega
  | not hts _ hder _ hheight =>
    have hder := hder.height_le_length
    rw [Expr.height_not] at hheight
    simp only [hts, List.length_append, List.length_cons, List.length_map] at hder ⊢
    omega
  | comparison hts _ _ hlimit =>
    simp only [hts, List.length_append, List.length_cons]
    omega

/-- Limits of at least the number of tokens are not exceeded. -/
theorem not_isLimit_of_ofTokens (h : Expr.ofTokens limits stop ts = .error err)
    (hdepth : ts.length ≤ limits.maxDepth.toNat) (hheight : ts.length ≤ limits.maxHeight.toNat) :
    ¬err.IsLimit := by
  rintro ⟨limit, hlimit⟩
  cases pointsAt_of_ofTokens h with
  | empty | missing | unexpected | trailing | unmatchedParen => rcases hlimit with h | h <;> cases h
  | @nestingTooDeep before after t hts _ hopen =>
    have hle := Token.length_openAfter_le (before.map Located.token)
    rw [hopen, List.length_map] at hle
    simp only [hts, List.length_append, List.length_cons] at hdepth
    omega
  | treeTooDeep houtgrows =>
    have hlt := houtgrows.lt_length
    omega

/-! ### Syntax errors -/

/-- **Syntax errors are at the first misfit, or at the end.**  Whatever the limits are, an error
that reports none of them has one of two forms.  Either it is at a token, which it names: an
unexpected one, one behind a complete expression, or a parenthesis that closes no group; then the
tokens before that one are the beginning of a sentence, and together with it they are none.  Or
something is missing, the tokens are none at all, or a parenthesis has been left open; then the
tokens are a proper beginning of a sentence.  And if both limits are at least the number of tokens,
no error reports a limit. -/
theorem misfit_or_unfinished_of_ofTokens (h : Expr.ofTokens limits stop ts = .error err) :
    (¬err.IsLimit →
      (∃ u, u.offset = err.offset ∧ FirstMisfit ts u ∧
        ((∃ expected, err.kind = .unexpected expected u.token) ∨ err.kind = .trailing u.token ∨
          err.kind = .unmatchedParen ∧ u.token = .rparen)) ∨
      (Unfinished ts ∧
        ((∃ expected, err.kind = .missing expected) ∨ err.kind = .empty ∨
          err.kind = .unmatchedParen ∧ ∃ u ∈ ts, u.offset = err.offset ∧ u.token = .lparen))) ∧
    (ts.length ≤ limits.maxDepth.toNat → ts.length ≤ limits.maxHeight.toNat → ¬err.IsLimit) := by
  refine ⟨fun herr => ?_, not_isLimit_of_ofTokens h⟩
  have hunfinished : Viable (ts.map Located.token) → Unfinished ts := by
    rintro ⟨us, hus⟩
    refine ⟨us, ?_, hus⟩
    rintro rfl
    rw [List.append_nil] at hus
    exact not_sentence_of_ofTokens h herr hus
  rcases ofTokens_eq_error h with ⟨rfl, rfl⟩ | ⟨before, u, after, s, rfl, hrun, hstep⟩ |
    ⟨s, hrun, hfinish⟩
  · have hstart : ParseState.After limits {} [] := ParseState.after_start
    exact .inr ⟨hunfinished hstart.viable, .inr (.inl rfl)⟩
  · obtain ⟨hoffset, hblames⟩ := (ParseState.fails_of_step hstep).blames.resolve_left herr
    have hfails : ParseState.run limits {} (before ++ [u]) = .error err := by
      rw [ParseState.run_append_of_ok hrun, ParseState.run_singleton, hstep]
    exact .inl ⟨u, hoffset.symm, ⟨before, after, rfl, (ParseState.after_of_run hrun).viable,
      not_viable_of_run hfails herr⟩, hblames⟩
  · have hafter := ParseState.after_of_run hrun
    refine .inr ⟨hunfinished hafter.viable, ?_⟩
    rcases ParseState.finish_eq_error hfinish with ⟨expected, rfl⟩ | ⟨t, -, hclose⟩ |
      ⟨enclosing, hmem, rfl⟩
    · exact .inl ⟨expected, rfl⟩
    · exact absurd (Level.isLimit_of_close hclose) herr
    · obtain ⟨us, ws, rfl, hus, -⟩ := hafter.exists_covers
      exact .inr (.inr ⟨rfl, _, List.mem_append_left _ (hus.lparen_mem enclosing hmem), rfl, rfl⟩)

/-- The tokens of `NOT (a == 'b' AND)`: the parenthesis is the first misfit, and without it the
tokens only lack an operand. -/
theorem misfit_of_closed_conjunction :
    let ts : List Located := [⟨.not, 0⟩, ⟨.lparen, 4⟩, ⟨.ident "a", 5⟩, ⟨.op .eq, 7⟩,
      ⟨.text "b", 10⟩, ⟨.and, 14⟩]
    (Expr.ofTokens {} 18 (ts ++ [⟨.rparen, 17⟩]) =
        .error ⟨.unexpected .expression .rparen, 17⟩ ∧
      FirstMisfit (ts ++ [⟨.rparen, 17⟩]) ⟨.rparen, 17⟩) ∧
    Expr.ofTokens {} 17 ts = .error ⟨.missing .expression, 17⟩ ∧ Unfinished ts := by
  intro ts
  have hmisfit : Expr.ofTokens {} 18 (ts ++ [⟨.rparen, 17⟩]) =
      .error ⟨.unexpected .expression .rparen, 17⟩ := by decide +kernel
  have hmissing : Expr.ofTokens {} 17 ts = .error ⟨.missing .expression, 17⟩ := by decide +kernel
  obtain ⟨hform, hlimit⟩ := misfit_or_unfinished_of_ofTokens hmisfit
  obtain ⟨hform', hlimit'⟩ := misfit_or_unfinished_of_ofTokens hmissing
  refine ⟨⟨hmisfit, ?_⟩, hmissing, ?_⟩
  · rcases hform (hlimit (by decide) (by decide)) with ⟨u, hoffset, hfirst, hkind⟩ | ⟨-, hkind⟩
    · obtain ⟨token, offset⟩ := u
      obtain rfl : offset = 17 := hoffset
      have htoken : token = .rparen := by simpa [eq_comm] using hkind
      rwa [htoken] at hfirst
    · simp at hkind
  · rcases hform' (hlimit' (by decide) (by decide)) with ⟨u, -, -, hkind⟩ | ⟨hunfinished, -⟩
    · simp at hkind
    · exact hunfinished

end Eligibility
