import Eligibility.Proofs.Except
import Eligibility.Proofs.Parser.Places
import Mathlib.Control.Monad.Basic

/-!
# Reading accepts exactly the grammar

## Main results

* `derives_of_ofTokens` : what is accepted has a derivation.
* `Expr.parse_eq_ok_iff` : which texts are read as an expression, and as which.
* `Expr.parse_iff_derives_within` : **reading is the grammar, cut down to the limits**; what the
  grammar allows and the limits do not is refused with a limit that it really exceeds, and the
  grammar leaves no choice.
-/

namespace Eligibility

/-- **What is accepted has a derivation.** -/
theorem derives_of_ofTokens {limits : Limits} {ts : List Located} {stop : Nat} {e : Expr}
    (h : Expr.ofTokens limits stop ts = .ok e) :
    ∃ n, Derives .disjunction (ts.map Located.token) e n := by
  have hne : ts ≠ [] := by
    rintro rfl
    cases h
  rw [Expr.ofTokens_of_ne_nil hne] at h
  obtain ⟨s, hrun, hfinish⟩ := Except.bind_eq_ok_iff.1 h
  exact (ParseState.after_of_run hrun).finish hfinish

namespace Expr

variable {limits : Limits} {source : String} {e : Expr}

theorem parse_of_scanText {ts : List Located} (h : Token.scanText source = .ok ts)
    (limits : Limits) : parse limits source = ofTokens limits source.utf8ByteSize ts := by
  rw [parse, h]
  rfl

/-- A text is read as `e` exactly if its tokens say `e` within the limits. -/
theorem parse_eq_ok_iff : parse limits source = .ok e ↔ ∃ ts n, Token.scanText source = .ok ts ∧
    Derives .disjunction (ts.map Located.token) e n ∧ n ≤ limits.maxDepth.toNat ∧
    e.height ≤ limits.maxHeight.toNat := by
  constructor
  · intro h
    cases hscan : Token.scanText source with
    | error err =>
      rw [parse, hscan] at h
      cases h
    | ok ts =>
      rw [parse_of_scanText hscan] at h
      obtain ⟨n, hder⟩ := derives_of_ofTokens h
      -- the run over that derivation ends well, so the derivation is within the limits
      rcases ofTokens_of_derives hder limits source.utf8ByteSize with
        ⟨-, hn, hheight⟩ | ⟨err, herr, -⟩
      · exact ⟨ts, n, rfl, hder, hn, hheight⟩
      · rw [h] at herr
        cases herr
  · rintro ⟨ts, n, hscan, hder, hn, hheight⟩
    rw [parse_of_scanText hscan]
    rcases ofTokens_of_derives hder limits source.utf8ByteSize with ⟨hok, -⟩ | ⟨err, -, hex⟩
    · exact hok
    · cases hex with
      | nesting _ hlt => exact absurd hn (Nat.not_le_of_lt hlt)
      | height _ hlt => exact absurd hheight (Nat.not_le_of_lt hlt)

theorem parse_error_of_exceeds {ts : List Located} {n : Nat}
    (hscan : Token.scanText source = .ok ts)
    (hder : Derives .disjunction (ts.map Located.token) e n)
    (hex : limits.maxDepth.toNat < n ∨ limits.maxHeight.toNat < e.height) :
    ∃ err, parse limits source = .error err ∧ err.Exceeds limits n e.height := by
  rw [parse_of_scanText hscan]
  rcases ofTokens_of_derives hder limits source.utf8ByteSize with ⟨-, hn, hheight⟩ | h
  · omega
  · exact h

/-- **Reading is the grammar, cut down to the limits.**  A text is read as `e` exactly if its tokens
say `e` with no more parentheses and negations open at once than the limits allow and with a height
that they allow; a text whose tokens say something beyond the limits is refused with a limit that
it really exceeds; and tokens never say two things. -/
theorem parse_iff_derives_within (limits : Limits) (source : String) :
    (∀ e, parse limits source = .ok e ↔ ∃ ts n, Token.scanText source = .ok ts ∧
      Derives .disjunction (ts.map Located.token) e n ∧ n ≤ limits.maxDepth.toNat ∧
      e.height ≤ limits.maxHeight.toNat) ∧
    (∀ ts e n, Token.scanText source = .ok ts →
      Derives .disjunction (ts.map Located.token) e n →
      (limits.maxDepth.toNat < n ∨ limits.maxHeight.toNat < e.height) →
      ∃ offset,
        (parse limits source = .error ⟨.nestingTooDeep limits.maxDepth, offset⟩ ∧
          limits.maxDepth.toNat < n) ∨
        (parse limits source = .error ⟨.treeTooDeep limits.maxHeight, offset⟩ ∧
          limits.maxHeight.toNat < e.height)) ∧
    (∀ ts e e' n n', Derives .disjunction ts e n → Derives .disjunction ts e' n' →
      e = e' ∧ n = n') := by
  refine ⟨fun e => parse_eq_ok_iff, ?_, fun ts e e' n n' h h' => h.unique h'⟩
  intro ts e n hscan hder hlimit
  obtain ⟨err, herr, hex⟩ := parse_error_of_exceeds hscan hder hlimit
  cases hex with
  | nesting offset hlt => exact ⟨offset, .inl ⟨herr, hlt⟩⟩
  | height offset hlt => exact ⟨offset, .inr ⟨herr, hlt⟩⟩

/-- A group under a negation nests twice, which is once too often. -/
theorem parse_negated_group_beyond_depth :
    ∃ offset, parse ⟨1, 512⟩ "NOT (a == 'b')" = .error ⟨.nestingTooDeep 1, offset⟩ := by
  have hscan : Token.scanText "NOT (a == 'b')" = .ok [⟨.not, 0⟩, ⟨.lparen, 4⟩, ⟨.ident "a", 5⟩,
      ⟨.op .eq, 7⟩, ⟨.text "b", 10⟩, ⟨.rparen, 13⟩] := by decide +kernel
  have hder : Derives .disjunction [.not, .lparen, .ident "a", .op .eq, .text "b", .rparen]
      (.not (.compare "a" .eq (.text "b"))) 2 :=
    .conjunction (.negation (.not (.operand (.group (.conjunction (.negation (.operand
      (.text "a" .eq "b"))))))))
  obtain ⟨offset, h⟩ := (parse_iff_derives_within ⟨1, 512⟩ _).2.1 _ _ _ hscan hder
    (.inl (by decide))
  rcases h with ⟨h, -⟩ | ⟨-, hheight⟩
  · exact ⟨offset, h⟩
  · exact absurd hheight (by decide)

end Expr

end Eligibility
