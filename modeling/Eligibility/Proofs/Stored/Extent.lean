import Eligibility.Proofs.Stored.Compact
import Eligibility.Proofs.Token.Denotes
import Mathlib.Algebra.GroupWithZero.Nat

/-!
# How many bytes a stored set takes

The names and the sources of its rules bound from both sides how many bytes a set takes in storage.
They are stored as they are, so it does not take fewer.  All else in a rule of any size is its
condition, and that was read from the source: whatever stands in it is accounted for by a lexeme of
the source, and no lexeme accounts for more than five times its own bytes.

## Main definitions

* `Token.share t` : the bytes of a stored condition that a token accounts for.
* `Rule.textBytes`, `RuleSet.textBytes` : the bytes of a name and a source, and of all of them.

## Main results

* `Stored.length_join_le` : a connective takes at most four bytes more than its operands.
* `Derives.length_condition_le` : a condition takes what the tokens account for that say it.
* `Token.Denotes.sum_share_le` : the tokens of a text account for five times its bytes.
* `RuleSet.textBytes_le_length_write`, `RuleSet.length_write_le` : **a set takes at least the bytes
  of its names and sources, and at most six times as many and a few for each rule.**
-/

namespace Eligibility

open Stored

/-! ### The bytes of numbers and texts -/

namespace Stored

theorem length_varint_le (n : Nat) : (varint n).length ≤ 9 := by
  rw [length_varint]
  split_ifs <;> omega

theorem length_text (s : String) :
    (text s).length = (varint s.utf8ByteSize).length + s.utf8ByteSize := by
  rw [text, List.length_append, length_bytes]

/-- The length in front of a text takes one byte, or fewer than the text does. -/
theorem length_text_le (s : String) : (text s).length ≤ 2 * s.utf8ByteSize + 1 := by
  rw [length_text, length_varint]
  split_ifs <;> omega

theorem length_operator (op : CompareOp) : (operator op).length = 1 := by
  cases op <;> rfl

theorem length_combine (c : Combine) : (varint ([Combine.all, .any].idxOf c)).length = 1 := by
  cases c <;> rfl

/-- **A connective takes at most four bytes more than its operands**: a tag and the number of the
operands, or, where the left operand has them already, what the number grows by. -/
theorem length_join_le (k : Connective) (b c : Condition) :
    (condition (Condition.join k b c)).length ≤
      (condition b).length + (condition c).length + 4 := by
  unfold Condition.join
  split
  · rename_i cs hcs
    have hgrowth : (varint (cs.length + 1)).length ≤ (varint cs.length).length + 4 := by
      rw [length_varint, length_varint]
      split_ifs <;> omega
    rw [Condition.eq_node_of_operands? hcs, Condition.length_node, Condition.length_node,
      Condition.length_conditions_append, List.length_append, conditions, conditions,
      List.append_nil, List.length_singleton]
    omega
  · have htwo : (varint [b, c].length).length = 1 := rfl
    rw [Condition.length_node, htwo, conditions, conditions, conditions, List.append_nil,
      List.length_append]
    omega

end Stored

/-! ### What tokens account for -/

/-- The bytes of a stored condition that a token accounts for.  An operator accounts for the tag of
its comparison and for some bytes of the literal as well, and a name for one of these. -/
def Token.share : Token → Nat
  | ident name => (Stored.text name).length + 1
  | op _ => 5
  | number _ => 5
  | text s => (Stored.text s).length
  | and => 4
  | or => 4
  | not => 1
  | lparen => 0
  | rparen => 0

/-- **A condition takes no more bytes than the tokens account for that say it.** -/
theorem Derives.length_condition_le {tier : Tier} {ts : List Token} {e : Expr} {n : Nat}
    (h : Derives tier ts e n) :
    (condition (Condition.ofExpr e)).length ≤ (ts.map Token.share).sum := by
  induction h with
  | number field op x =>
    have htag : (varint 0).length = 1 := rfl
    simp only [Condition.ofExpr, condition, value, List.length_append, length_operator,
      length_littleEndian, htag, List.map_cons, List.map_nil, List.sum_cons, List.sum_nil,
      Token.share]
    omega
  | text field op s =>
    have htag : (varint 0).length = 1 := rfl
    have hkind : (varint 1).length = 1 := rfl
    simp only [Condition.ofExpr, condition, value, List.length_append, length_operator, htag, hkind,
      List.map_cons, List.map_nil, List.sum_cons, List.sum_nil, Token.share]
    omega
  | group _ ih =>
    simp only [List.cons_append, List.map_cons, List.map_append, List.sum_cons, List.sum_append,
      List.map_nil, List.sum_nil, Token.share]
    omega
  | not _ ih =>
    have htag : (varint 3).length = 1 := rfl
    simp only [Condition.ofExpr, condition, List.length_append, htag, List.map_cons, List.sum_cons,
      Token.share]
    omega
  | @and ts us l r _ _ _ _ hl hr =>
    have hjoin := length_join_le .and (Condition.ofExpr l) (Condition.ofExpr r)
    simp only [Condition.ofExpr, List.map_append, List.map_cons, List.sum_append, List.sum_cons,
      Token.share]
    omega
  | @or ts us l r _ _ _ _ hl hr =>
    have hjoin := length_join_le .or (Condition.ofExpr l) (Condition.ofExpr r)
    simp only [Condition.ofExpr, List.map_append, List.map_cons, List.sum_append, List.sum_cons,
      Token.share]
    omega
  | operand _ ih | negation _ ih | conjunction _ ih => exact ih

namespace Token

theorem byteLength_pos {cs : List Char} (h : cs ≠ []) : 0 < byteLength cs := by
  obtain ⟨c, cs, rfl⟩ := List.exists_cons_of_ne_nil h
  rw [byteLength_cons]
  exact Nat.add_pos_left c.utf8Size_pos _

/-- A word accounts for a connective, a negation or a name. -/
theorem share_ofWord_le {word : List Char} (h : word ≠ []) :
    (ofWord word).share ≤ 5 * byteLength word := by
  have hpos := byteLength_pos h
  have hname := length_text_le (String.ofList word)
  rw [utf8ByteSize_ofList] at hname
  simp only [ofWord]
  split_ifs <;> simp only [share] <;> omega

/-- No lexeme accounts for more than five times its own bytes. -/
theorem share_le_of_stands {l : Lexeme} {rest : List Char} (h : l.Stands rest) :
    l.token.share ≤ 5 * byteLength l.text := by
  have hpos := byteLength_pos h.text_ne_nil
  cases h with
  | lparen | rparen => exact Nat.zero_le _
  | number | operator => exact Nat.le_mul_of_pos_right 5 hpos
  | @quoted quote body _ _ _ =>
    have hbody := length_text_le (String.ofList body)
    rw [utf8ByteSize_ofList] at hbody
    have hquote := quote.utf8Size_pos
    simp only [share, byteLength_cons, byteLength_append]
    omega
  | word => exact share_ofWord_le (List.cons_ne_nil _ _)

/-- **The tokens of a text account for at most five times its bytes.** -/
theorem Denotes.sum_share_le {cs : List Char} {ts : List Token} (h : Denotes cs ts) :
    (ts.map share).sum ≤ 5 * byteLength cs := by
  induction h with
  | nil => exact Nat.le_refl _
  | layout _ _ ih =>
    rw [byteLength_cons]
    omega
  | lexeme hl _ ih =>
    have hlexeme := share_le_of_stands hl
    rw [List.map_cons, List.sum_cons, byteLength_append]
    omega

end Token

/-! ### Rules and sets -/

/-- The bytes of the name and the source of a rule. -/
def Rule.textBytes (rule : Rule) : Nat :=
  rule.name.utf8ByteSize + rule.source.utf8ByteSize

/-- The bytes of all names and sources of a set. -/
def RuleSet.textBytes (s : RuleSet) : Nat :=
  (s.rules.map Rule.textBytes).sum

namespace Rule

variable {rule : Rule}

/-- A condition takes at most five times the bytes of the source that it was read from. -/
theorem WellFormed.length_condition_le (h : rule.WellFormed) :
    (condition (Condition.ofExpr rule.expr)).length ≤ 5 * rule.source.utf8ByteSize := by
  obtain ⟨ts, n, hdenotes, hderives, -⟩ := Expr.parse_eq_ok_iff_denotes.1 h.parse_eq
  have hsource : rule.source.utf8ByteSize = Token.byteLength rule.source.toList := by
    rw [← Token.utf8ByteSize_ofList, String.ofList_toList]
  rw [hsource]
  exact hderives.length_condition_le.trans hdenotes.sum_share_le

theorem textBytes_le_length (rule : Rule) :
    rule.textBytes ≤ (Stored.rule rule.toStored).length := by
  simp only [textBytes, Stored.rule, toStored, List.length_append, length_text]
  omega

theorem WellFormed.length_le (h : rule.WellFormed) :
    (Stored.rule rule.toStored).length ≤ 6 * rule.textBytes + 36 := by
  have hcondition := h.length_condition_le
  have hname := length_varint_le rule.name.utf8ByteSize
  have hsource := length_varint_le rule.source.utf8ByteSize
  have hdepth := length_varint_le rule.limits.maxDepth.toNat
  have hheight := length_varint_le rule.limits.maxHeight.toNat
  simp only [textBytes, Stored.rule, toStored, List.length_append, length_text]
  omega

theorem sum_textBytes_le (rules : List Rule) :
    (rules.map textBytes).sum ≤ ((rules.map toStored).flatMap Stored.rule).length := by
  induction rules with
  | nil => exact Nat.le_refl _
  | cons rule rules ih =>
    have hrule := rule.textBytes_le_length
    simp only [List.map_cons, List.sum_cons, List.flatMap_cons, List.length_append]
    omega

theorem length_flatMap_le {rules : List Rule} (h : ∀ rule ∈ rules, rule.WellFormed) :
    ((rules.map toStored).flatMap Stored.rule).length ≤
      6 * (rules.map textBytes).sum + 36 * rules.length := by
  induction rules with
  | nil => exact Nat.le_refl _
  | cons rule rules ih =>
    rw [List.forall_mem_cons] at h
    have hrule := h.1.length_le
    have hrest := ih h.2
    simp only [List.map_cons, List.sum_cons, List.flatMap_cons, List.length_append,
      List.length_cons]
    omega

end Rule

namespace RuleSet

variable {s : RuleSet}

/-- **A set takes at least the bytes of its names and sources.** -/
theorem textBytes_le_length_write (s : RuleSet) : s.textBytes ≤ s.toStored.write.length := by
  rw [StoredSet.write, List.length_append]
  exact Nat.le_add_left_of_le (Rule.sum_textBytes_le s.rules)

/-- **A set takes at most six times the bytes of its names and sources**, and a few for each
rule. -/
theorem length_write_le (hs : s.WellFormed) :
    s.toStored.write.length ≤ 6 * s.textBytes + 36 * s.rules.length + 19 := by
  have hrules := Rule.length_flatMap_le hs.rules
  have hcount := length_varint_le s.rules.length
  simp only [StoredSet.write, toStored, List.length_append, length_combine, List.length_map,
    textBytes]
  omega

end RuleSet

end Eligibility
