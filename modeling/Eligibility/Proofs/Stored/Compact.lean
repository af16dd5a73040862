import Eligibility.Proofs.Stored.Damage
import Eligibility.Proofs.Stored.Normal

/-!
# Storing again never takes more bytes

A condition may be stored in more ways than the one in which an expression is written: numbers can
be in a longer form, a chain can have a single operand, and its first operand can be a chain of the
same connective.  Writing merges such chains.  The number of operands of the merged chain may take
more bytes than before, but the number and the tag that are dropped pay for it, as long as there are
not more operands than a number of four bytes says.  A payload that has been read is not longer than
that.

## Main definitions

* `Condition.Says c e` : the stored condition says `e`, up to the signs of zeros.

## Main results

* `Condition.length_spine_le` : a chain that is merged into another one pays for its own operands.
* `Condition.Says.length_ofExpr_le` : **no condition says an expression in fewer bytes than its
  written form.**
* `RuleSet.toBytes_of_ofBytes` : **a set that was loaded is stored again in no more bytes, and
  loaded from them.**
-/

namespace Eligibility

-- Powers of natural numbers are the core library's in every context.
attribute [local instance (100000)] instPowNat

open Stored

/-! ### What a stored condition says -/

/-- The stored condition says the expression, up to the signs of zeros. -/
def Condition.Says (c : Condition) (e : Expr) : Prop :=
  ∃ e', c.toExpr? = some e' ∧ e.same e' = true

namespace Expr

variable {k : Connective} {e l r : Expr}

theorem eq_join_of_same (h : e.same (k.join l r) = true) :
    ∃ l' r', e = k.join l' r' ∧ l'.same l = true ∧ r'.same r = true := by
  cases k with
  | and =>
    cases e with
    | and l' r' => exact ⟨l', r', rfl, Bool.and_eq_true_iff.1 h⟩
    | compare | or | not => cases h
  | or =>
    cases e with
    | or l' r' => exact ⟨l', r', rfl, Bool.and_eq_true_iff.1 h⟩
    | compare | and | not => cases h

end Expr

namespace Condition

variable {k : Connective} {c : Condition} {cs : List Condition} {e left : Expr} {es : List Expr}

theorem says_of_extend? {e' : Expr} (h : extend? k left cs = some e') (hsame : e.same e' = true) :
    ∃ left' es, left'.same left = true ∧ List.Forall₂ Says cs es ∧ e = es.foldl k.join left' := by
  induction cs generalizing left with
  | nil =>
    rw [extend?] at h
    obtain rfl := Option.some.inj h
    exact ⟨e, [], hsame, .nil, rfl⟩
  | cons c cs ih =>
    rw [extend?] at h
    obtain ⟨right, hright, hrest⟩ := Option.bind_eq_some_iff.1 h
    obtain ⟨whole, es, hwhole, hes, rfl⟩ := ih hrest
    obtain ⟨l, r, rfl, hl, hr⟩ := Expr.eq_join_of_same hwhole
    exact ⟨l, r :: es, hl, .cons ⟨right, hright, hr⟩ hes, rfl⟩

/-- A chain says its operands joined to the left. -/
theorem Says.of_node (h : (node k (c :: cs)).Says e) :
    ∃ first es, c.Says first ∧ List.Forall₂ Says cs es ∧ e = es.foldl k.join first := by
  obtain ⟨e', he', hsame⟩ := h
  rw [toExpr?_node, chain?] at he'
  obtain ⟨first, hfirst, hrest⟩ := Option.bind_eq_some_iff.1 he'
  obtain ⟨first', es, hfirst', hes, rfl⟩ := says_of_extend? hrest hsame
  exact ⟨first', es, ⟨first, hfirst, hfirst'⟩, hes, rfl⟩

theorem not_says_empty : ¬(node k []).Says e := by
  rintro ⟨e', he', -⟩
  rw [toExpr?_node, chain?] at he'
  cases he'

/-! ### The lengths of written chains -/

theorem length_node (k : Connective) (cs : List Condition) : (condition (node k cs)).length =
    1 + (varint cs.length).length + (conditions cs).length := by
  cases k <;> rw [node, condition, List.length_append, List.length_append] <;> rfl

theorem length_conditions_append (cs ds : List Condition) :
    (conditions (cs ++ ds)).length = (conditions cs).length + (conditions ds).length := by
  rw [conditions_eq_flatMap, conditions_eq_flatMap, conditions_eq_flatMap, List.flatMap_append,
    List.length_append]

theorem length_le_length_conditions (cs : List Condition) : cs.length ≤ (conditions cs).length := by
  rw [conditions_eq_flatMap]
  exact length_le_length_flatMap fun c _ => length_condition_pos c

/-- The number of all operands takes no more bytes than the two numbers of which one counts the
others as a single operand, and a tag. -/
theorem length_varint_add_le {m n : Nat} (h : m + n < UInt32.size) :
    (varint (m + n)).length ≤ 1 + (varint m).length + (varint (1 + n)).length := by
  have hsize : m + n < 4294967296 := h
  simp only [length_varint]
  split_ifs <;> omega

/-- **A chain that is merged into another one pays for its own operands**, also if their number gets
longer by the `n` others. -/
theorem length_spine_le {n : Nat} (h : (condition (ofExpr e)).length + n < UInt32.size) :
    (varint ((spine k e).length + n)).length + (conditions (spine k e)).length ≤
      (varint (1 + n)).length + (condition (ofExpr e)).length := by
  unfold spine
  cases hoperands : operands? k (ofExpr e) with
  | none =>
    show (varint (1 + n)).length + (conditions [ofExpr e]).length ≤ _
    rw [conditions, conditions, List.append_nil]
  | some cs =>
    rw [eq_node_of_operands? hoperands, length_node] at h ⊢
    have hcount := length_le_length_conditions cs
    have hnumber := length_varint_add_le (m := cs.length) (n := n) (by omega)
    show (varint (cs.length + n)).length + (conditions cs).length ≤ _
    omega

/-- What is joined to the left takes no more bytes than a chain of its parts. -/
theorem length_ofExpr_foldl_le (k : Connective) (left : Expr) (es : List Expr)
    (h : (condition (ofExpr left)).length + (conditions (es.map ofExpr)).length < UInt32.size) :
    (condition (ofExpr (es.foldl k.join left))).length ≤ 1 + (varint (1 + es.length)).length +
      ((condition (ofExpr left)).length + (conditions (es.map ofExpr)).length) := by
  by_cases hne : es = []
  · rw [hne, List.foldl_nil]
    omega
  · have hcount := length_le_length_conditions (es.map ofExpr)
    rw [List.length_map] at hcount
    have hspine := length_spine_le (k := k) (e := left) (n := es.length) (by omega)
    rw [ofExpr_foldl hne, length_node, List.length_append, List.length_map,
      length_conditions_append]
    omega

theorem length_value_of_same {v w : Value} (h : v.same w = true) :
    (value v).length = (value w).length := by
  cases v with
  | number x =>
    cases w with
    | number y => simp only [value, List.length_append, length_littleEndian]
    | text t => cases h
  | text s =>
    cases w with
    | number y => cases h
    | text t => rw [show s = t from eq_of_beq h]

mutual

/-- **No condition says an expression in fewer bytes than its written form.** -/
theorem Says.length_ofExpr_le : ∀ {c : Condition} {e : Expr}, c.Says e →
    (condition c).length < UInt32.size → (condition (ofExpr e)).length ≤ (condition c).length
  | .compare field op literal, e, h, _ => by
    obtain ⟨e', he', hsame⟩ := h
    rw [toExpr?] at he'
    obtain rfl := Option.some.inj he'
    cases e with
    | compare field' op' literal' =>
      simp only [Expr.same, Bool.and_eq_true, beq_iff_eq] at hsame
      obtain ⟨⟨rfl, rfl⟩, hliteral⟩ := hsame
      simp only [ofExpr, condition, List.length_append, length_value_of_same hliteral, Nat.le_refl]
    | and | or | not => cases hsame
  | .and cs, e, h, hsize => length_ofExpr_chain_le (k := .and) h hsize
  | .or cs, e, h, hsize => length_ofExpr_chain_le (k := .or) h hsize
  | .not c, e, h, hsize => by
    obtain ⟨e', he', hsame⟩ := h
    rw [toExpr?] at he'
    obtain ⟨operand', hoperand', rfl⟩ := Option.map_eq_some_iff.1 he'
    cases e with
    | not operand =>
      rw [condition, List.length_append] at hsize
      have hoperand := Says.length_ofExpr_le ⟨operand', hoperand', hsame⟩ (by omega)
      rw [ofExpr, condition, condition, List.length_append, List.length_append]
      omega
    | compare | and | or => cases hsame

theorem length_ofExpr_chain_le {k : Connective} : ∀ {cs : List Condition} {e : Expr},
    (node k cs).Says e → (condition (node k cs)).length < UInt32.size →
      (condition (ofExpr e)).length ≤ (condition (node k cs)).length
  | [], e, h, _ => absurd h not_says_empty
  | c :: cs, e, h, hsize => by
    obtain ⟨first, es, hfirst, hes, rfl⟩ := h.of_node
    rw [length_node, conditions, List.length_append, List.length_cons] at hsize ⊢
    have hleft := hfirst.length_ofExpr_le (by omega)
    have hothers := length_map_ofExpr_le hes (by omega)
    have hwhole := length_ofExpr_foldl_le k first es (by omega)
    rw [← hes.length_eq, Nat.add_comm 1 cs.length] at hwhole
    omega

theorem length_map_ofExpr_le : ∀ {cs : List Condition} {es : List Expr}, List.Forall₂ Says cs es →
    (conditions cs).length < UInt32.size →
      (conditions (es.map ofExpr)).length ≤ (conditions cs).length
  | [], _, .nil, _ => Nat.le_refl _
  | c :: cs, e :: es, .cons hc hcs, hsize => by
    rw [conditions, List.length_append] at hsize
    have hfirst := hc.length_ofExpr_le (by omega)
    have hothers := length_map_ofExpr_le hcs (by omega)
    rw [List.map_cons, conditions, conditions, List.length_append, List.length_append]
    omega

end

end Condition

/-! ### Rules and sets -/

/-- A rule is stored again in no more bytes. -/
theorem StoredRule.Restores.length_rule_le {r : StoredRule} {made : Rule} (h : r.Restores made)
    (hsize : (rule r).length < UInt32.size) : (rule made.toStored).length ≤ (rule r).length := by
  obtain ⟨e, he, hrestore⟩ := h
  obtain ⟨hsource, hsame⟩ := Rule.restore_eq_ok_iff.1 hrestore
  obtain ⟨-, -, hname, htext, hlimits⟩ := Rule.ofSource_eq_ok_iff.1 hsource
  have hlt := Nat.lt_of_le_of_lt (length_condition_le_length_rule r) hsize
  have hcondition : (Stored.condition (.ofExpr made.expr)).length ≤
      (Stored.condition r.condition).length :=
    Condition.Says.length_ofExpr_le ⟨e, he, hsame⟩ hlt
  simp only [rule, Rule.toStored, hname, htext, hlimits, List.length_append]
  omega

theorem length_flatMap_rule_le {rs : List StoredRule} {made : List Rule}
    (h : List.Forall₂ StoredRule.Restores rs made)
    (hsize : (rs.flatMap rule).length < UInt32.size) :
    ((made.map Rule.toStored).flatMap rule).length ≤ (rs.flatMap rule).length := by
  induction h with
  | nil => exact Nat.le_refl _
  | @cons r rule' rs made hr _ ih =>
    rw [List.flatMap_cons, List.length_append] at hsize
    have hfirst := hr.length_rule_le (by omega)
    have hothers := ih (by omega)
    rw [List.map_cons, List.flatMap_cons, List.flatMap_cons, List.length_append, List.length_append]
    omega

/-- A set is stored again in no more bytes than its payload could have. -/
theorem StoredSet.Admits.length_write_le {stored : StoredSet} {s : RuleSet} (h : stored.Admits s)
    (hsize : stored.write.length < UInt32.size) :
    s.toStored.write.length ≤ stored.write.length := by
  have hcount : s.rules.length = stored.rules.length := h.restores.length_eq.symm
  simp only [StoredSet.write, List.length_append] at hsize
  have hrules := length_flatMap_rule_le h.restores (by omega)
  simp only [StoredSet.write, RuleSet.toStored, List.length_append, List.length_map, hcount,
    h.count_eq, h.combine_eq]
  omega

/-- What a payload starts with is written in no more bytes. -/
theorem StoredSet.Decodes.length_write_le {payload : List UInt8} {stored : StoredSet}
    (h : Decodes payload stored) : stored.write.length ≤ payload.length := by
  obtain ⟨height, rest, hread⟩ := h
  have hcost : stored.write.length + rest.length ≤ 0 + payload.length :=
    takes_set height payload stored rest hread
  omega

/-! ### Loading and storing again -/

namespace RuleSet

variable {bytes payload : List UInt8} {s : RuleSet}

/-- The header states the length of a payload in four bytes. -/
theorem length_lt_of_frames (h : Header.Frames bytes payload) : payload.length < UInt32.size := by
  have hlt := ofLittleEndian_lt (bytes.extract 12 16)
  have hwidth : (bytes.extract 12 16).length ≤ 4 := by
    rw [List.extract_eq_take_drop]
    exact List.length_take_le _ _
  have hle : 256 ^ (bytes.extract 12 16).length ≤ 256 ^ 4 := Nat.pow_le_pow_right (by decide) hwidth
  rw [← h.length_eq, Header.statedLength]
  exact Nat.lt_of_lt_of_le hlt hle

/-- **A set that was loaded is stored again in no more bytes, and loaded from them as the same
set**, whatever form the bytes had: with numbers longer than they need to be, chains of one operand
or inside each other, other bytes in the payload behind the set or behind the payload, and whatever
stands between the version and the length.  Its payload is not too long for the header. -/
theorem toBytes_of_ofBytes (h : ofBytes bytes = .ok s) : s.toStored.write.length < UInt32.size ∧
    s.toBytes.length ≤ bytes.length ∧ ofBytes s.toBytes = .ok s := by
  obtain ⟨payload, hpayload, hload⟩ := Except.bind_eq_ok_iff.1 h
  have hframes := payloadOf_eq_ok_iff_frames.1 hpayload
  have hagrees := ofBytes_agrees bytes
  rw [h] at hagrees
  obtain ⟨-, stored, hdecodes, hadmits⟩ := hagrees
  rw [hframes.payload_eq] at hdecodes
  have hread : stored.write.length ≤ payload.length := hdecodes.length_write_le
  have hlt := length_lt_of_frames hframes
  have hwrite := hadmits.length_write_le (Nat.lt_of_le_of_lt hread hlt)
  have hsize : s.toStored.write.length < UInt32.size := by omega
  have hle := hframes.length_le
  refine ⟨hsize, ?_, ofBytes_of_frames hadmits.wellFormed hsize (frames_toBytes hsize)⟩
  rw [length_toBytes]
  omega

/-- A count in three bytes, a chain inside a chain and one of a single operand, a byte behind the
set, two behind the payload, and a byte of the header that nobody reads. -/
theorem toBytes_of_ofBytes_of_loose_form :
    let comparison : Condition := .compare "a" .eq (.text "")
    let stored : StoredRule := ⟨"n", "a==''AND a==''AND a==''", {},
      .and [.and [comparison, comparison], .or [comparison]]⟩
    let payload := [251, 1, 0] ++ varint 0 ++ varint 1 ++ rule stored ++ [7]
    let bytes := (Header.ofPayload payload).write.set 8 255 ++ payload ++ [1, 2]
    ∃ s, ofBytes bytes = .ok s ∧ s.toBytes.length ≤ bytes.length ∧ ofBytes s.toBytes = .ok s := by
  intro comparison stored payload bytes
  let e : Expr := .compare "a" .eq (.text "")
  let s : RuleSet := ⟨[⟨"n", "a==''AND a==''AND a==''", .and (.and e e) e, {}⟩], .all⟩
  have hload : ofBytes bytes = .ok s := by decide +kernel
  exact ⟨s, hload, (toBytes_of_ofBytes hload).2⟩

end RuleSet

end Eligibility
