import Eligibility.Expr.Grammar

/-!
# The grammar is unambiguous

Two derivations are compared from the left.  A derivation of an operand or a negation ends where
it has to, whatever comes after it; a derivation of a chain may be a proper beginning of another
chain, so for chains the statement is that one chain leads up to a place from which the other one
is extended.  Chains of both connectives are treated at once.

## Main definitions

* `Connective.token`, `Connective.tier`, `Connective.operandTier` : how a chain of a connective is
  made up.
* `Extends c l m ts e n` : the tokens `ts` after a chain that says `l` make it say `e`.
* `Tier.Ends` : the tokens that cannot continue a derivation on a level of precedence.

## Main results

* `Derives.single`, `Derives.join` : the rules for chains, for both connectives.
* `Derives.unique` : **a list of tokens says at most one thing.**
-/

namespace Eligibility

/-! ### The two kinds of chains -/

namespace Connective

/-- The token of a connective. -/
def token : Connective → Token
  | and => .and
  | or => .or

/-- The level of its chains. -/
def tier : Connective → Tier
  | and => .conjunction
  | or => .disjunction

/-- The level of the operands of its chains. -/
def operandTier : Connective → Tier
  | and => .negation
  | or => .conjunction

end Connective

section

variable {c : Connective} {ts us vs : List Token} {l r e e' : Expr} {k m n n' : Nat}

theorem Derives.single (h : Derives c.operandTier ts e n) : Derives c.tier ts e n := by
  cases c with
  | and => exact .negation h
  | or => exact .conjunction h

theorem Derives.join (hl : Derives c.tier ts l m) (hr : Derives c.operandTier us r n) :
    Derives c.tier (ts ++ c.token :: us) (c.join l r) (max m n) := by
  cases c with
  | and => exact .and hl hr
  | or => exact .or hl hr

/-- The tokens `ts` after a chain that says `l` make it say `e`; the numbers are how many
parentheses and negations are open at once. -/
inductive Extends (c : Connective) : Expr → Nat → List Token → Expr → Nat → Prop
  /-- No further operand. -/
  | done {e : Expr} {n : Nat} : Extends c e n [] e n
  /-- One more operand, and what comes after it. -/
  | more {us ts : List Token} {l r e : Expr} {m k n : Nat} :
    Derives c.operandTier us r k → Extends c (c.join l r) (max m k) ts e n →
      Extends c l m (c.token :: us ++ ts) e n

theorem Extends.snoc (h : Extends c l m ts e n) (hr : Derives c.operandTier us r k) :
    Extends c l m (ts ++ c.token :: us) (c.join e r) (max n k) := by
  induction h with
  | @done e n =>
    have := Extends.more (l := e) (m := n) hr .done
    rwa [List.append_nil] at this
  | more hop _ ih =>
    rw [List.append_assoc]
    exact .more hop ih

/-- A chain is its first operand, extended. -/
theorem Derives.exists_extends (h : Derives c.tier ts e n) :
    ∃ us vs l m, ts = us ++ vs ∧ Derives c.operandTier us l m ∧ Extends c l m vs e n := by
  generalize htier : c.tier = tier at h
  induction h with
  | number | text | group | operand | not => cases c <;> cases htier
  | negation h _ | conjunction h _ =>
    cases c <;> cases htier
    exact ⟨_, [], _, _, (List.append_nil _).symm, h, .done⟩
  | and _ hr ihl _ | or _ hr ihl _ =>
    cases c <;> cases htier
    obtain ⟨us, vs, l, m, rfl, hfirst, hext⟩ := ihl rfl
    exact ⟨us, _, l, m, List.append_assoc .., hfirst, hext.snoc hr⟩

/-! ### Where a derivation ends -/

/-- The tokens that cannot continue a derivation on a level: none of the connectives that bind at
least as strongly as the level comes first. -/
def Tier.Ends : Tier → List Token → Prop
  | .operand, _ | .negation, _ => True
  | .conjunction, ts => ts.head? ≠ some .and
  | .disjunction, ts => ts.head? ≠ some .and ∧ ts.head? ≠ some .or

theorem Connective.ends_tier_iff :
    c.tier.Ends ts ↔ c.operandTier.Ends ts ∧ ts.head? ≠ some c.token := by
  cases c with
  | and =>
    rw [Connective.operandTier, Tier.Ends, true_and]
    rfl
  | or => exact Iff.rfl

theorem Connective.ends_token : c.operandTier.Ends (c.token :: ts) := by
  cases c <;> simp [Connective.operandTier, Connective.token, Tier.Ends]

theorem Tier.ends_rparen (tier : Tier) : tier.Ends (.rparen :: ts) := by
  cases tier <;> simp [Tier.Ends]

theorem Tier.ends_nil (tier : Tier) : tier.Ends [] := by
  cases tier <;> simp [Tier.Ends]

/-! ### Comparing two derivations from the left -/

/-- Every derivation on the same level of tokens that begin alike is the same one. -/
def Unique (tier : Tier) (ts : List Token) (e : Expr) (n : Nat) : Prop :=
  ∀ us e' n' xs ys, Derives tier us e' n' → tier.Ends xs → tier.Ends ys →
    ts ++ xs = us ++ ys → ts = us ∧ e = e' ∧ n = n'

/-- Every chain of tokens that begin alike passes through this one. -/
def Leads (c : Connective) (ts : List Token) (e : Expr) (n : Nat) : Prop :=
  ∀ us vs l m e' n' xs ys, Derives c.operandTier us l m → Extends c l m vs e' n' →
    c.operandTier.Ends xs → c.tier.Ends ys → ts ++ xs = us ++ vs ++ ys →
    ∃ vs₁ vs₂, vs = vs₁ ++ vs₂ ∧ ts = us ++ vs₁ ∧ Extends c e n vs₂ e' n'

/-- What extends a chain starts with its connective, so it cannot continue an operand. -/
theorem Extends.ends_operandTier (h : Extends c l m vs e n) {ys : List Token}
    (hys : c.tier.Ends ys) : c.operandTier.Ends (vs ++ ys) := by
  cases h with
  | done => exact (Connective.ends_tier_iff.1 hys).1
  | more => exact Connective.ends_token

theorem leads_single (h : Unique c.operandTier ts e n) : Leads c ts e n := by
  intro us vs l m e' n' xs ys hfirst hext hxs hys heq
  rw [List.append_assoc] at heq
  obtain ⟨rfl, rfl, rfl⟩ := h _ _ _ _ _ hfirst hxs (hext.ends_operandTier hys) heq
  exact ⟨[], vs, rfl, (List.append_nil _).symm, hext⟩

theorem leads_join (hl : Leads c ts l m) (hr : Unique c.operandTier us r k) :
    Leads c (ts ++ c.token :: us) (c.join l r) (max m k) := by
  intro us' vs l' m' e' n' xs ys hfirst hext hxs hys heq
  rw [List.append_assoc] at heq
  obtain ⟨vs₁, vs₂, rfl, rfl, hrest⟩ :=
    hl _ _ _ _ _ _ _ _ hfirst hext Connective.ends_token hys heq
  -- what is left of the other chain has to start with the connective as well
  simp only [List.append_assoc, List.append_cancel_left_eq] at heq
  cases hrest with
  | done =>
    rw [List.nil_append] at heq
    exact absurd (congrArg List.head? heq).symm (Connective.ends_tier_iff.1 hys).2
  | @more us'' vs₃ _ r' _ _ k' _ hop hrest =>
    simp only [List.cons_append, List.append_assoc, List.cons.injEq, true_and] at heq
    obtain ⟨rfl, rfl, rfl⟩ := hr _ _ _ _ _ hop hxs (hrest.ends_operandTier hys) heq
    exact ⟨vs₁ ++ c.token :: us, vs₃, by simp, by simp, hrest⟩

theorem unique_of_leads (h : Leads c ts e n) : Unique c.tier ts e n := by
  intro us e' n' xs ys hother hxs hys heq
  obtain ⟨us₀, vs, l, m, rfl, hfirst, hext⟩ := hother.exists_extends
  obtain ⟨hxs', hxs⟩ := Connective.ends_tier_iff.1 hxs
  obtain ⟨vs₁, vs₂, rfl, rfl, hrest⟩ := h _ _ _ _ _ _ _ _ hfirst hext hxs' hys heq
  cases hrest with
  | done =>
    rw [List.append_nil]
    exact ⟨rfl, rfl, rfl⟩
  | more =>
    -- the other chain goes on with the connective, and these tokens do not
    simp only [List.append_assoc, List.append_cancel_left_eq] at heq
    rw [heq] at hxs
    exact absurd rfl hxs

/-- An operand starts with a field or a parenthesis. -/
theorem Derives.head?_operand (h : Derives .operand ts e n) : ts.head? ≠ some .not := by
  cases h <;> simp

theorem head?_of_append_eq {α : Type} {as bs xs ys : List α} (has : as ≠ []) (hbs : bs ≠ [])
    (h : as ++ xs = bs ++ ys) : as.head? = bs.head? := by
  cases as with
  | nil => exact absurd rfl has
  | cons a as =>
    cases bs with
    | nil => exact absurd rfl hbs
    | cons b bs =>
      rw [List.cons_append, List.cons_append, List.cons.injEq] at h
      rw [List.head?_cons, List.head?_cons, h.1]

theorem unique_operand_number (field : String) (op : CompareOp) (x : Binary64) :
    Unique .operand [.ident field, .op op, .number x] (.compare field op (.number x)) 0 := by
  intro us e' n' xs ys hother _ _ heq
  cases hother with
  | number | text | group => simp_all

theorem unique_operand_text (field : String) (op : CompareOp) (s : String) :
    Unique .operand [.ident field, .op op, .text s] (.compare field op (.text s)) 0 := by
  intro us e' n' xs ys hother _ _ heq
  cases hother with
  | number | text | group => simp_all

theorem unique_group (h : Unique .disjunction ts e n) :
    Unique .operand (.lparen :: ts ++ [.rparen]) e (n + 1) := by
  intro us e' n' xs ys hother _ _ heq
  cases hother with
  | number | text => simp at heq
  | group hin =>
    simp only [List.cons_append, List.append_assoc, List.nil_append, List.cons.injEq,
      true_and] at heq
    obtain ⟨rfl, rfl, rfl⟩ := h _ _ _ _ _ hin (Tier.ends_rparen _) (Tier.ends_rparen _) heq
    exact ⟨rfl, rfl, rfl⟩

theorem unique_negation_operand (hts : Derives .operand ts e n) (h : Unique .operand ts e n) :
    Unique .negation ts e n := by
  intro us e' n' xs ys hother hxs hys heq
  cases hother with
  | operand hop => exact h _ _ _ _ _ hop hxs hys heq
  | not =>
    have := head?_of_append_eq hts.ne_nil (List.cons_ne_nil _ _) heq
    exact absurd this hts.head?_operand

theorem unique_not (h : Unique .negation ts e n) :
    Unique .negation (.not :: ts) (.not e) (n + 1) := by
  intro us e' n' xs ys hother hxs hys heq
  cases hother with
  | operand hop =>
    have := head?_of_append_eq (List.cons_ne_nil _ _) hop.ne_nil heq
    exact absurd this.symm hop.head?_operand
  | not hneg =>
    rw [List.cons_append, List.cons_append, List.cons.injEq] at heq
    obtain ⟨rfl, rfl, rfl⟩ := h _ _ _ _ _ hneg hxs hys heq.2
    exact ⟨rfl, rfl, rfl⟩

/-- Every derivation ends where it has to; a chain moreover leads up to all longer ones. -/
theorem Derives.unique_and_leads {tier : Tier} (h : Derives tier ts e n) :
    Unique tier ts e n ∧ ∀ c : Connective, c.tier = tier → Leads c ts e n := by
  induction h with
  | number field op x =>
    exact ⟨unique_operand_number field op x, fun c hc => by cases c <;> cases hc⟩
  | text field op s =>
    exact ⟨unique_operand_text field op s, fun c hc => by cases c <;> cases hc⟩
  | group _ ih => exact ⟨unique_group ih.1, fun c hc => by cases c <;> cases hc⟩
  | operand h ih => exact ⟨unique_negation_operand h ih.1, fun c hc => by cases c <;> cases hc⟩
  | not _ ih => exact ⟨unique_not ih.1, fun c hc => by cases c <;> cases hc⟩
  | negation _ ih =>
    have hleads := leads_single (c := .and) ih.1
    exact ⟨unique_of_leads hleads, fun c hc => by cases c <;> cases hc; exact hleads⟩
  | and _ _ ihl ihr =>
    have hleads := leads_join (ihl.2 .and rfl) ihr.1
    exact ⟨unique_of_leads hleads, fun c hc => by cases c <;> cases hc; exact hleads⟩
  | conjunction _ ih =>
    have hleads := leads_single (c := .or) ih.1
    exact ⟨unique_of_leads hleads, fun c hc => by cases c <;> cases hc; exact hleads⟩
  | or _ _ ihl ihr =>
    have hleads := leads_join (ihl.2 .or rfl) ihr.1
    exact ⟨unique_of_leads hleads, fun c hc => by cases c <;> cases hc; exact hleads⟩

/-- **A list of tokens says at most one thing on a level of precedence, with one nesting.** -/
theorem Derives.unique {tier : Tier} (h : Derives tier ts e n) (h' : Derives tier ts e' n') :
    e = e' ∧ n = n' :=
  (h.unique_and_leads.1 _ _ _ _ _ h' tier.ends_nil tier.ends_nil rfl).2

end

end Eligibility
