import Eligibility.Proofs.Stored.Wire
import Eligibility.Stored.Payload

/-!
# A stored set reads back

The reader of conditions goes down by as many levels as there are bytes.  Every level of a
condition starts with a byte of its own, so that is enough; and for the same reason no length in a
written condition is out of range, if only the whole is not.

## Main definitions

* `StoredSet.reader height` : the reader of a stored set whose conditions are not higher than that.

## Main results

* `readsBack_condition`, `readsBack_rule` : a condition, and a rule.
* `StoredSet.read_write` : **the payload of a stored set reads back.**
-/

namespace Eligibility

/-- The reader of a stored set whose conditions have at most the given height. -/
def StoredSet.reader (height : Nat) : Stored.Reader StoredSet := do
  let ruleCount ← Stored.readVarint
  let combine ← Stored.readChoice [Combine.all, .any]
  return ⟨ruleCount, combine, ← Stored.readList (Stored.readRule height)⟩

/-- The conditions of a payload are read with its length as the bound on their height. -/
theorem StoredSet.read_eq (payload : List UInt8) :
    read payload = (reader payload.length payload).map Prod.fst :=
  rfl

namespace Stored

/-! ### Lengths -/

theorem length_varint_pos (n : Nat) : 0 < (varint n).length := by
  unfold varint
  split
  · exact Nat.one_pos
  split
  · exact Nat.succ_pos _
  split <;> exact Nat.succ_pos _

theorem utf8ByteSize_lt_length_text (s : String) : s.utf8ByteSize < (text s).length := by
  rw [text, List.length_append, length_bytes]
  have := length_varint_pos s.utf8ByteSize
  omega

theorem conditions_eq_flatMap (cs : List Condition) : conditions cs = cs.flatMap condition := by
  induction cs with
  | nil => rw [conditions, List.flatMap_nil]
  | cons c cs ih => rw [conditions, List.flatMap_cons, ih]

theorem length_condition_pos (c : Condition) : 0 < (condition c).length := by
  have hindex : ∀ i (bytes : List UInt8), 0 < (varint i ++ bytes).length := by
    intro i bytes
    rw [List.length_append]
    exact Nat.add_pos_left (length_varint_pos i) _
  cases c <;> simp only [condition, List.append_assoc] <;> exact hindex _ _

/-- A member of a list takes no more bytes than the list. -/
theorem length_le_flatMap {α : Type} (write : α → List UInt8) {a : α} {as : List α} (h : a ∈ as) :
    (write a).length ≤ (as.flatMap write).length := by
  induction as with
  | nil => cases h
  | cons b as ih =>
    rw [List.flatMap_cons, List.length_append]
    rcases List.mem_cons.1 h with rfl | h
    · exact Nat.le_add_right _ _
    · exact Nat.le_trans (ih h) (Nat.le_add_left _ _)

/-- If each member takes a byte, there are no more members than bytes. -/
theorem length_le_length_flatMap {α : Type} {write : α → List UInt8} {as : List α}
    (h : ∀ a ∈ as, 0 < (write a).length) : as.length ≤ (as.flatMap write).length := by
  induction as with
  | nil => exact Nat.le_refl 0
  | cons a as ih =>
    have hhead := h a List.mem_cons_self
    have htail := ih fun b hb => h b (List.mem_cons_of_mem a hb)
    rw [List.flatMap_cons, List.length_append, List.length_cons]
    omega

/-! ### Values and conditions -/

theorem readsBack_operator (op : CompareOp) :
    ReadsBack (readChoice CompareOp.all) (operator op) op :=
  readsBack_choice (CompareOp.mem_all op) (by decide)

theorem readsBack_value {v : Value} (h : (value v).length < UInt64.size) :
    ReadsBack readValue (value v) v := by
  cases v with
  | number x =>
    have hbits : ReadsBack (readFixed 8) (littleEndian 8 x.bits.toNat) x.bits.toNat :=
      readsBack_fixed x.bits.toNat_lt
    have hnumber := hbits.map fun n => Value.number ⟨UInt64.ofNat n⟩
    rw [UInt64.ofNat_toNat] at hnumber
    exact (readsBack_index (by decide)).bind hnumber
  | text s =>
    have hsize := utf8ByteSize_lt_length_text s
    rw [value, List.length_append] at h
    exact (readsBack_index (by decide)).bind ((readsBack_text (by omega)).map Value.text)

/-- The operands of a chain read back, if all conditions do that are not longer than they are. -/
theorem readsBack_operands {height : Nat} (cs : List Condition)
    (ih : ∀ c, (condition c).length ≤ height → (condition c).length < UInt64.size →
      ReadsBack (readCondition height) (condition c) c)
    (hheight : (varint cs.length ++ conditions cs).length ≤ height)
    (hsize : (varint cs.length ++ conditions cs).length < UInt64.size) :
    ReadsBack (readList (readCondition height)) (varint cs.length ++ conditions cs) cs := by
  rw [List.length_append, conditions_eq_flatMap] at hheight hsize
  have hcount := length_le_length_flatMap fun c (_ : c ∈ cs) => length_condition_pos c
  rw [conditions_eq_flatMap]
  refine readsBack_list (fun c hc => ?_) (by omega)
  have hle := length_le_flatMap condition hc
  exact ih c (by omega) (by omega)

/-- **A condition reads back**, if the reader may go down as many levels as it has bytes. -/
theorem readsBack_condition {height : Nat} {c : Condition} (hheight : (condition c).length ≤ height)
    (hsize : (condition c).length < UInt64.size) :
    ReadsBack (readCondition height) (condition c) c := by
  induction height generalizing c with
  | zero => exact absurd (length_condition_pos c) (Nat.not_lt.2 hheight)
  | succ height ih =>
    cases c with
    | compare field op literal =>
      have hfield := utf8ByteSize_lt_length_text field
      simp only [condition, List.length_append] at hsize
      have htext := readsBack_text (s := field) (by omega)
      have hliteral := (readsBack_value (v := literal) (by omega)).map (Condition.compare field op)
      rw [condition, List.append_assoc, List.append_assoc]
      exact (readsBack_index (by decide)).bind
        (htext.bind ((readsBack_operator op).bind hliteral))
    | and cs =>
      rw [condition, List.append_assoc, List.length_append] at hheight hsize
      have hpos := length_varint_pos 1
      have hoperands := readsBack_operands cs (fun c => ih) (by omega) (by omega)
      rw [condition, List.append_assoc]
      exact (readsBack_index (by decide)).bind (hoperands.map Condition.and)
    | or cs =>
      rw [condition, List.append_assoc, List.length_append] at hheight hsize
      have hpos := length_varint_pos 2
      have hoperands := readsBack_operands cs (fun c => ih) (by omega) (by omega)
      rw [condition, List.append_assoc]
      exact (readsBack_index (by decide)).bind (hoperands.map Condition.or)
    | not c =>
      rw [condition, List.length_append] at hheight hsize
      have hpos := length_varint_pos 3
      have hoperand := ih (c := c) (by omega) (by omega)
      exact (readsBack_index (by decide)).bind (hoperand.map Condition.not)

/-! ### Rules and sets -/

theorem length_condition_le_length_rule (r : StoredRule) :
    (condition r.condition).length ≤ (rule r).length := by
  rw [rule, List.length_append]
  exact Nat.le_add_left _ _

theorem length_rule_pos (r : StoredRule) : 0 < (rule r).length :=
  Nat.lt_of_lt_of_le (length_condition_pos r.condition) (length_condition_le_length_rule r)

theorem readsBack_bound (n : UInt64) : ReadsBack readVarint (varint n.toNat) n.toNat :=
  readsBack_varint n.toNat_lt

theorem readsBack_rule {height : Nat} {r : StoredRule}
    (hheight : (condition r.condition).length ≤ height) (hsize : (rule r).length < UInt64.size) :
    ReadsBack (readRule height) (rule r) r := by
  have hname := utf8ByteSize_lt_length_text r.name
  have hsource := utf8ByteSize_lt_length_text r.source
  have hcondition := readsBack_condition hheight
    (Nat.lt_of_le_of_lt (length_condition_le_length_rule r) hsize)
  simp only [rule, List.length_append] at hsize
  simp only [rule, List.append_assoc]
  refine (readsBack_text (by omega)).bind ((readsBack_text (by omega)).bind
    ((readsBack_bound _).bind ((readsBack_bound _).bind ?_)))
  simp only [UInt64.ofNat_toNat]
  exact hcondition.map fun c => StoredRule.mk r.name r.source r.limits c

theorem length_rules_le_length_write (s : StoredSet) : s.rules.length ≤ s.write.length := by
  have hlength := length_le_length_flatMap fun r (_ : r ∈ s.rules) => length_rule_pos r
  rw [StoredSet.write, List.length_append]
  exact Nat.le_trans hlength (Nat.le_add_left _ _)

theorem readsBack_set {height : Nat} {s : StoredSet} (hheight : s.write.length ≤ height)
    (hcount : s.ruleCount < UInt64.size) (hsize : s.write.length < UInt64.size) :
    ReadsBack (StoredSet.reader height) s.write s := by
  have hlength := length_rules_le_length_write s
  obtain ⟨ruleCount, combine, rules⟩ := s
  simp only [StoredSet.write, List.append_assoc, List.length_append] at hlength hheight hsize ⊢
  have hcombine : ReadsBack (readChoice [Combine.all, .any])
      (varint ([Combine.all, .any].idxOf combine)) combine :=
    readsBack_choice (by cases combine <;> decide) (by decide)
  have hrules : ReadsBack (readList (readRule height))
      (varint rules.length ++ rules.flatMap rule) rules := by
    refine readsBack_list (fun r hr => ?_) (by omega)
    have hrule := length_le_flatMap rule hr
    have hcondition := length_condition_le_length_rule r
    exact readsBack_rule (by omega) (by omega)
  exact (readsBack_varint hcount).bind (hcombine.bind (hrules.map (StoredSet.mk _ _)))

end Stored

/-- **A stored set reads back from its payload.** -/
theorem StoredSet.read_write {s : StoredSet} (hcount : s.ruleCount < UInt64.size)
    (hsize : s.write.length < UInt64.size) : StoredSet.read s.write = some s := by
  have hread := Stored.readsBack_set (Nat.le_refl _) hcount hsize []
  rw [List.append_nil] at hread
  rw [read_eq, hread, Option.map_some]

end Eligibility
