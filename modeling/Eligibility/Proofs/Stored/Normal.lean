import Eligibility.Proofs.RuleSet.Chain
import Eligibility.Stored.Condition
import Mathlib.Data.List.Basic
import Mathlib.Data.Set.List

/-!
# Normal conditions

Flattening puts the operands of a chain that leans to the left into one node and leaves every other
grouping as it is.  So it never makes a chain of fewer than two operands, nor one whose first
operand is a chain of the same connective: that one would have been merged.  These are the only
conditions that it does not make, and it makes each of the others of the expression that it says.

## Main definitions

* `Condition.Within b c` : `b` is a part of `c`, or `c` itself.
* `Condition.Normal` : no chain has fewer than two operands or starts with one of its connective.
* `Condition.spine k e` : the operands of `e` in its written form, as a chain of the connective `k`.

## Main results

* `Condition.toExpr?_eq_none_iff` : a condition says nothing exactly if it has an empty chain in it.
* `Condition.ofExpr_foldl` : what is joined to the left is written as one chain.
* `Condition.normal_ofExpr`, `Condition.exists_ofExpr_eq` : the written forms are normal, and there
  are no other normal conditions.
* `Condition.toExpr?_inverse_ofExpr` : **flattening is undone exactly, and what it makes are the
  normal conditions.**
-/

namespace Eligibility

namespace Condition

variable {k : Connective} {b c : Condition} {cs ds : List Condition} {e left : Expr}
  {es : List Expr}

/-! ### Parts of a condition -/

/-- Induction over conditions with one case for the two connectives. -/
@[elab_as_elim]
theorem induction_node {motive : Condition → Prop}
    (compare : ∀ field op literal, motive (.compare field op literal))
    (node : ∀ k cs, (∀ c ∈ cs, motive c) → motive (node k cs))
    (not : ∀ c, motive c → motive (.not c)) : ∀ c, motive c
  | .compare field op literal => compare field op literal
  | .and cs => node .and cs fun c _ => induction_node compare node not c
  | .or cs => node .or cs fun c _ => induction_node compare node not c
  | .not c => not c (induction_node compare node not c)

/-- A condition is a part of another one, or that one itself. -/
inductive Within (b : Condition) : Condition → Prop
  /-- The whole. -/
  | self : Within b b
  /-- A part of an operand of a conjunction. -/
  | and {c : Condition} {cs : List Condition} : c ∈ cs → Within b c → Within b (.and cs)
  /-- A part of an operand of a disjunction. -/
  | or {c : Condition} {cs : List Condition} : c ∈ cs → Within b c → Within b (.or cs)
  /-- A part of what is negated. -/
  | not {c : Condition} : Within b c → Within b (.not c)

theorem within_compare_iff {field : String} {op : CompareOp} {literal : Value} :
    b.Within (.compare field op literal) ↔ b = .compare field op literal := by
  constructor
  · rintro ⟨⟩
    rfl
  · rintro rfl
    exact .self

theorem within_node_iff : b.Within (node k cs) ↔ b = node k cs ∨ ∃ c ∈ cs, b.Within c := by
  constructor
  · intro h
    cases k with
    | and =>
      cases h with
      | self => exact .inl rfl
      | and hmem hc => exact .inr ⟨_, hmem, hc⟩
    | or =>
      cases h with
      | self => exact .inl rfl
      | or hmem hc => exact .inr ⟨_, hmem, hc⟩
  · rintro (rfl | ⟨c, hmem, hc⟩)
    · exact .self
    · cases k with
      | and => exact .and hmem hc
      | or => exact .or hmem hc

theorem within_not_iff : b.Within (.not c) ↔ b = .not c ∨ b.Within c := by
  constructor
  · intro h
    cases h with
    | self => exact .inl rfl
    | not hc => exact .inr hc
  · rintro (rfl | hc)
    · exact .self
    · exact .not hc

theorem node_inj {k' : Connective} : node k cs = node k' ds ↔ k = k' ∧ cs = ds := by
  cases k <;> cases k' <;> simp [node]

theorem node_ne_compare {field : String} {op : CompareOp} {literal : Value} :
    node k cs ≠ .compare field op literal := by
  cases k <;> exact Condition.noConfusion

theorem node_ne_not : node k cs ≠ .not c := by
  cases k <;> exact Condition.noConfusion

theorem operands?_node (k : Connective) (cs : List Condition) :
    operands? k (node k cs) = some cs := by
  cases k <;> rfl

theorem operands?_eq_none_iff : operands? k b = none ↔ ∀ cs, b ≠ node k cs := by
  constructor
  · rintro h cs rfl
    rw [operands?_node] at h
    cases h
  · intro h
    cases hcs : operands? k b with
    | none => rfl
    | some cs => exact absurd (eq_node_of_operands? hcs) (h cs)

/-! ### Empty chains -/

theorem extend?_eq_none_iff : extend? k left cs = none ↔ ∃ c ∈ cs, toExpr? c = none := by
  induction cs generalizing left with
  | nil => simp [extend?]
  | cons c cs ih => cases hc : toExpr? c <;> simp [extend?, hc, ih]

theorem chain?_eq_none_iff : chain? k cs = none ↔ cs = [] ∨ ∃ c ∈ cs, toExpr? c = none := by
  cases cs with
  | nil => simp [chain?]
  | cons c cs => cases hc : toExpr? c <;> simp [chain?, hc, extend?_eq_none_iff]

/-- **A condition says nothing exactly if it has an empty chain in it.** -/
theorem toExpr?_eq_none_iff : toExpr? c = none ↔ ∃ k, (node k []).Within c := by
  induction c using induction_node with
  | compare field op literal =>
    rw [toExpr?]
    simp only [within_compare_iff, node_ne_compare, exists_false, reduceCtorEq]
  | node k cs ih =>
    rw [toExpr?_node, chain?_eq_none_iff]
    constructor
    · rintro (rfl | ⟨c, hmem, hc⟩)
      · exact ⟨k, .self⟩
      · obtain ⟨k', hk'⟩ := (ih c hmem).1 hc
        exact ⟨k', within_node_iff.2 (.inr ⟨c, hmem, hk'⟩)⟩
    · rintro ⟨k', h⟩
      rcases within_node_iff.1 h with heq | ⟨c, hmem, hc⟩
      · exact .inl (node_inj.1 heq).2.symm
      · exact .inr ⟨c, hmem, (ih c hmem).2 ⟨k', hc⟩⟩
  | not c ih =>
    rw [toExpr?, Option.map_eq_none_iff, ih]
    simp only [within_not_iff, node_ne_not, false_or]

/-! ### Written chains -/

/-- The operands of the expression in its written form, as a chain of the connective. -/
def spine (k : Connective) (e : Expr) : List Condition :=
  (operands? k (ofExpr e)).getD [ofExpr e]

theorem ofExpr_join (k : Connective) (l r : Expr) :
    ofExpr (k.join l r) = node k (spine k l ++ [ofExpr r]) := by
  have hjoin : ofExpr (k.join l r) = join k (ofExpr l) (ofExpr r) := by
    cases k <;> rw [Connective.join, ofExpr]
  rw [hjoin, join, spine]
  cases operands? k (ofExpr l) <;> rfl

theorem spine_join (k : Connective) (l r : Expr) :
    spine k (k.join l r) = spine k l ++ [ofExpr r] := by
  rw [spine, ofExpr_join, operands?_node]
  rfl

theorem spine_foldl (k : Connective) (left : Expr) (es : List Expr) :
    spine k (es.foldl k.join left) = spine k left ++ es.map ofExpr := by
  induction es generalizing left with
  | nil => exact (List.append_nil _).symm
  | cons e es ih => rw [List.foldl_cons, ih, spine_join, List.append_assoc, List.map_cons]; rfl

/-- What is joined to the left is written as one chain. -/
theorem ofExpr_foldl (hne : es ≠ []) : ofExpr (es.foldl k.join left) =
    node k (spine k left ++ es.map ofExpr) := by
  obtain ⟨es, e, rfl⟩ := (List.eq_nil_or_concat' es).resolve_left hne
  rw [List.foldl_append, List.foldl_cons, List.foldl_nil, ofExpr_join,
    spine_foldl, List.append_assoc, List.map_append]
  rfl

/-! ### Normal conditions -/

/-- Each chain has at least two operands, and its first operand is no chain of the same
connective. -/
def Normal (c : Condition) : Prop :=
  ∀ k cs, (node k cs).Within c → 2 ≤ cs.length ∧ ∀ ds, cs.head? ≠ some (node k ds)

theorem normal_compare (field : String) (op : CompareOp) (literal : Value) :
    Normal (.compare field op literal) :=
  fun _ _ h => absurd (within_compare_iff.1 h) node_ne_compare

theorem normal_node_iff : (node k cs).Normal ↔
    (2 ≤ cs.length ∧ ∀ ds, cs.head? ≠ some (node k ds)) ∧ ∀ c ∈ cs, c.Normal := by
  constructor
  · intro h
    exact ⟨h k cs .self, fun c hmem k' cs' hc => h k' cs' (within_node_iff.2 (.inr ⟨c, hmem, hc⟩))⟩
  · rintro ⟨hchain, hoperands⟩ k' cs' h
    rcases within_node_iff.1 h with heq | ⟨c, hmem, hc⟩
    · obtain ⟨rfl, rfl⟩ := node_inj.1 heq
      exact hchain
    · exact hoperands c hmem k' cs' hc

theorem normal_not_iff : Normal (.not c) ↔ c.Normal := by
  simp only [Normal, within_not_iff, node_ne_not, false_or]

/-- A normal written form goes on as a normal chain. -/
theorem normal_spine (h : (ofExpr e).Normal) (k : Connective) : spine k e ≠ [] ∧
    (∀ ds, (spine k e).head? ≠ some (node k ds)) ∧ ∀ c ∈ spine k e, c.Normal := by
  unfold spine
  cases hoperands : operands? k (ofExpr e) with
  | none =>
    refine ⟨List.cons_ne_nil _ _, fun ds hhead => ?_, List.forall_mem_singleton.2 h⟩
    exact operands?_eq_none_iff.1 hoperands ds (Option.some.inj hhead)
  | some cs =>
    rw [eq_node_of_operands? hoperands, normal_node_iff] at h
    obtain ⟨⟨hlength, hhead⟩, hnormal⟩ := h
    have hne : cs ≠ [] := List.length_pos_iff.1 (Nat.lt_of_lt_of_le Nat.zero_lt_two hlength)
    exact ⟨hne, hhead, hnormal⟩

/-- The written form of an expression is normal. -/
theorem normal_ofExpr (e : Expr) : (ofExpr e).Normal := by
  induction e using Expr.induction_join with
  | compare field op literal =>
    rw [ofExpr]
    exact normal_compare field op literal
  | join k l r hl hr =>
    obtain ⟨hne, hhead, hnormal⟩ := normal_spine hl k
    rw [ofExpr_join, normal_node_iff, List.head?_append_of_ne_nil _ hne, List.length_append]
    have hlength := List.length_pos_iff.2 hne
    refine ⟨⟨Nat.succ_le_succ hlength, hhead⟩, List.forall_mem_append.2 ⟨hnormal, ?_⟩⟩
    exact List.forall_mem_singleton.2 hr
  | not e he =>
    rw [ofExpr, normal_not_iff]
    exact he

/-- There are no other normal conditions: a chain is written for its operands joined to the left. -/
theorem exists_ofExpr_eq (h : c.Normal) : ∃ e, ofExpr e = c := by
  induction c using induction_node with
  | compare field op literal => exact ⟨.compare field op literal, by rw [ofExpr]⟩
  | node k cs ih =>
    obtain ⟨⟨hlength, hhead⟩, hnormal⟩ := normal_node_iff.1 h
    obtain ⟨es, rfl⟩ : cs ∈ Set.range (List.map ofExpr) := by
      rw [Set.range_list_map]
      exact fun c hmem => ih c hmem (hnormal c hmem)
    cases es with
    | nil => cases hlength
    | cons first es =>
      have hne : es ≠ [] := by
        rintro rfl
        exact Nat.not_succ_le_self 1 hlength
      -- the first operand is no chain of this connective, so nothing of it is merged
      have hspine : spine k first = [ofExpr first] := by
        have hnone : operands? k (ofExpr first) = none :=
          operands?_eq_none_iff.2 fun ds hds => hhead ds (congrArg some hds)
        rw [spine, hnone]
        rfl
      exact ⟨es.foldl k.join first, by rw [ofExpr_foldl hne, hspine]; rfl⟩
  | not c ih =>
    obtain ⟨e, rfl⟩ := ih (normal_not_iff.1 h)
    exact ⟨.not e, by rw [ofExpr]⟩

/-- **Flattening is undone exactly, and what it makes are the normal conditions.**  Every expression
is read back from its stored form, down to the patterns of its numbers; a condition is no expression
only if there is an empty chain in it; and a condition is the stored form of what it says if and
only if each of its chains has at least two operands and does not start with one of the same
connective. -/
theorem toExpr?_inverse_ofExpr :
    (∀ e : Expr, toExpr? (ofExpr e) = some e) ∧
    (∀ c : Condition, toExpr? c = none ↔ ∃ k, (node k []).Within c) ∧
    (∀ c : Condition, (toExpr? c).map ofExpr = some c ↔ c.Normal) ∧
    ∀ c : Condition, (∃ e, ofExpr e = c) ↔ c.Normal := by
  have himage : ∀ c : Condition, (∃ e, ofExpr e = c) ↔ c.Normal := fun c =>
    ⟨fun ⟨e, he⟩ => he ▸ normal_ofExpr e, exists_ofExpr_eq⟩
  refine ⟨toExpr?_ofExpr, fun c => toExpr?_eq_none_iff, fun c => ?_, himage⟩
  rw [← himage, Option.map_eq_some_iff]
  constructor
  · rintro ⟨e, -, he⟩
    exact ⟨e, he⟩
  · rintro ⟨e, rfl⟩
    exact ⟨e, toExpr?_ofExpr e, rfl⟩

end Condition

end Eligibility
