import Eligibility.Proofs.Stored.Payload

/-!
# Reading takes what writing would

A number may be stored in a longer form than it needs, but in no shorter one than it is written in,
and lengths and texts are stored as they are.  So whatever a reader makes of the front of some
bytes, it has taken at least as many of them as writing it would give.

## Main definitions

* `Stored.Takes read credit cost` : a reader takes the bytes that its value costs, less a credit.

## Main results

* `Stored.Takes.bind` : what the first value has cost is the credit of the next reader.
* `Stored.takes_condition`, `Stored.takes_rule`, `Stored.takes_set` : a reader takes at least what
  writing its value would give.
-/

namespace Eligibility

-- Powers of natural numbers are the core library's in every context.
attribute [local instance (100000)] instPowNat

namespace Stored

variable {α β : Type} {read : Reader α} {credit : Nat} {cost : α → Nat}

/-- The bytes that the reader takes and the credit pay for what its value costs. -/
def Takes (read : Reader α) (credit : Nat) (cost : α → Nat) : Prop :=
  ∀ bytes a rest, read bytes = some (a, rest) → cost a + rest.length ≤ credit + bytes.length

/-! ### Sequences -/

theorem takes_pure {a : α} (h : cost a ≤ credit) : Takes (pure a) credit cost := by
  rintro bytes b rest hread
  obtain ⟨rfl, rfl⟩ := Prod.mk.inj (Option.some.inj hread)
  exact Nat.add_le_add_right h _

theorem takes_failure : Takes (failure : Reader α) credit cost := by
  intro bytes a rest hread
  cases hread

theorem bind_eq_some_iff {next : α → Reader β} {bytes rest : List UInt8} {b : β} :
    (read >>= next) bytes = some (b, rest) ↔
      ∃ a mid, read bytes = some (a, mid) ∧ next a mid = some (b, rest) := by
  show Option.bind (read bytes) (fun p => next p.1 p.2) = some (b, rest) ↔ _
  rw [Option.bind_eq_some_iff]
  exact Prod.exists

/-- What the first value has cost is the credit of the next reader. -/
theorem Takes.bind {next : α → Reader β} {cost' : β → Nat} (h : Takes read credit cost)
    (hnext : ∀ a, Takes (next a) (cost a) cost') : Takes (read >>= next) credit cost' := by
  intro bytes b rest hread
  obtain ⟨a, mid, ha, hb⟩ := bind_eq_some_iff.1 hread
  have hfirst := h bytes a mid ha
  have hsecond := hnext a mid b rest hb
  omega

/-- A credit that is not needed is left over. -/
theorem Takes.frame (h : Takes read credit cost) (more : Nat) :
    Takes read (more + credit) fun a => more + cost a := by
  intro bytes a rest hread
  have hcost := h bytes a rest hread
  show more + cost a + rest.length ≤ more + credit + bytes.length
  omega

/-! ### Numbers -/

theorem length_of_take? {n : Nat} {bytes front rest : List UInt8}
    (h : take? n bytes = some (front, rest)) :
    front.length = n ∧ front.length + rest.length = bytes.length := by
  simp only [take?] at h
  split at h
  · rename_i hlength
    obtain ⟨rfl, rfl⟩ := Prod.mk.inj (Option.some.inj h)
    refine ⟨hlength, ?_⟩
    rw [← List.length_append, List.take_append_drop]
  · cases h

theorem ofLittleEndian_lt (bytes : List UInt8) : ofLittleEndian bytes < 256 ^ bytes.length := by
  induction bytes with
  | nil => exact Nat.one_pos
  | cons b bytes ih =>
    have hb := b.toNat_lt
    rw [ofLittleEndian, List.length_cons, Nat.pow_succ]
    omega

/-- A number of fixed width, whatever it costs in other forms. -/
theorem takes_fixed {width : Nat} {cost : Nat → Nat}
    (h : ∀ n < 256 ^ width, cost n ≤ credit + width) : Takes (readFixed width) credit cost := by
  intro bytes n rest hread
  obtain ⟨front, mid, hfront, hpure⟩ := bind_eq_some_iff.1 hread
  obtain ⟨rfl, rfl⟩ := Prod.mk.inj (Option.some.inj hpure)
  obtain ⟨hwidth, hlength⟩ := length_of_take? hfront
  have hlt := ofLittleEndian_lt front
  rw [hwidth] at hlt
  have := h _ hlt
  omega

theorem length_varint (n : Nat) : (varint n).length =
    if n < 251 then 1 else if n < 65536 then 3 else if n < 4294967296 then 5 else 9 := by
  unfold varint
  split
  · rfl
  split
  · rfl
  split <;> rfl

/-- The larger of two numbers does not have the shorter form. -/
theorem length_varint_mono {m n : Nat} (h : m ≤ n) : (varint m).length ≤ (varint n).length := by
  rw [length_varint, length_varint]
  split_ifs <;> omega

/-- A number after its first byte, which is the credit. -/
theorem takes_after (widest first : Nat) :
    Takes (readAfter widest first) 1 fun n => (varint n).length := by
  -- a marker byte announces more bytes than a number of that many bytes needs after its marker
  unfold readAfter
  split
  · rename_i hsmall
    apply takes_pure
    refine Nat.le_of_eq ?_
    rw [length_varint, if_pos hsmall]
  split
  · apply takes_fixed
    intro n hn
    rw [length_varint]
    split_ifs <;> omega
  split
  · apply takes_fixed
    intro n hn
    rw [length_varint]
    split_ifs <;> omega
  split
  · apply takes_fixed
    intro n hn
    rw [length_varint]
    split_ifs <;> omega
  · exact takes_failure

theorem takes_varint : Takes readVarint 0 fun n => (varint n).length :=
  (takes_fixed fun _ _ => Nat.le_refl 1).bind (takes_after 8)

theorem takes_index : Takes readIndex 0 fun n => (varint n).length :=
  (takes_fixed fun _ _ => Nat.le_refl 1).bind (takes_after 4)

/-- One of a few values, whose index has been read. -/
theorem takes_choice [DecidableEq α] {choices : List α} (hnodup : choices.Nodup) :
    Takes (readChoice choices) 0 fun a => (varint (choices.idxOf a)).length := by
  refine takes_index.bind fun i => ?_
  split
  · rename_i a ha
    apply takes_pure
    obtain ⟨hi, rfl⟩ := List.getElem?_eq_some_iff.1 ha
    exact Nat.le_of_eq (by rw [hnodup.idxOf_getElem])
  · exact takes_failure

/-! ### Texts and lists -/

/-- As many bytes as the length says, in front of which the length stood. -/
theorem takes_bytes (n : Nat) : Takes (readBytes n) (varint n).length fun front =>
    (varint front.length).length + front.length := by
  intro bytes front rest hread
  obtain ⟨hn, hlength⟩ := length_of_take? hread
  show (varint front.length).length + front.length + rest.length ≤ (varint n).length + bytes.length
  rw [hn] at hlength ⊢
  omega

theorem utf8ByteSize_of_fromUTF8? {bytes : List UInt8} {s : String}
    (h : String.fromUTF8? bytes.toByteArray = some s) : s.utf8ByteSize = bytes.length := by
  unfold String.fromUTF8? at h
  split at h
  · obtain rfl := Option.some.inj h
    exact List.size_toByteArray
  · cases h

theorem takes_text : Takes readText 0 fun s => (text s).length := by
  refine takes_varint.bind fun n => (takes_bytes n).bind fun front => ?_
  split
  · rename_i s hs
    apply takes_pure
    apply Nat.le_of_eq
    rw [text, List.length_append, length_bytes, utf8ByteSize_of_fromUTF8? hs]
  · exact takes_failure

/-- As many values as the number says; `f` is what the number has cost. -/
theorem takes_many {write : α → List UInt8} (h : Takes read 0 fun a => (write a).length) (n : Nat)
    (f : Nat → Nat) :
    Takes (readMany read n) (f n) fun as => f as.length + (as.flatMap write).length := by
  induction n generalizing f with
  | zero => exact takes_pure (Nat.le_refl _)
  | succ n ih =>
    have htail := fun a => (ih fun m => f (m + 1)).frame (write a).length
    refine (h.frame (f (n + 1))).bind fun a => ?_
    rw [Nat.add_comm]
    refine (htail a).bind fun as => takes_pure ?_
    rw [List.length_cons, List.flatMap_cons, List.length_append]
    omega

/-- A list takes what its length and its members cost. -/
theorem takes_list {write : α → List UInt8} (h : Takes read 0 fun a => (write a).length) :
    Takes (readList read) 0 fun as => (varint as.length ++ as.flatMap write).length := by
  refine takes_varint.bind fun n => ?_
  simp only [List.length_append]
  exact takes_many h n fun n => (varint n).length

/-! ### Values, conditions, rules and sets -/

theorem takes_operator : Takes (readChoice CompareOp.all) 0 fun op => (operator op).length :=
  takes_choice (by decide)

theorem takes_value : Takes readValue 0 fun v => (value v).length := by
  refine takes_index.bind fun i => ?_
  split
  · have hbits : Takes (readFixed 8) (varint 0).length fun _ => (varint 0).length + 8 :=
      takes_fixed fun _ _ => Nat.le_refl _
    refine hbits.bind fun n => takes_pure (Nat.le_of_eq ?_)
    rw [value, List.length_append, length_littleEndian]
  · refine (takes_text.frame (varint 1).length).bind fun s => takes_pure (Nat.le_of_eq ?_)
    rw [value, List.length_append]
  · exact takes_failure

/-- **A condition takes at least the bytes in which it is written.** -/
theorem takes_condition (height : Nat) :
    Takes (readCondition height) 0 fun c => (condition c).length := by
  induction height with
  | zero => exact takes_failure
  | succ height ih =>
    have hoperands := takes_list ih
    refine takes_index.bind fun i => ?_
    split
    · refine (takes_text.frame (varint 0).length).bind fun field => ?_
      refine (takes_operator.frame _).bind fun op => ?_
      refine (takes_value.frame _).bind fun literal => takes_pure ?_
      simp only [condition, List.length_append]
      exact Nat.le_refl _
    · refine (hoperands.frame (varint 1).length).bind fun cs => takes_pure ?_
      simp only [condition, List.length_append, conditions_eq_flatMap, Nat.add_assoc]
      exact Nat.le_refl _
    · refine (hoperands.frame (varint 2).length).bind fun cs => takes_pure ?_
      simp only [condition, List.length_append, conditions_eq_flatMap, Nat.add_assoc]
      exact Nat.le_refl _
    · refine (ih.frame (varint 3).length).bind fun c => takes_pure (Nat.le_of_eq ?_)
      rw [condition, List.length_append]
    · exact takes_failure

/-- A limit has no longer form than the number that is read for it. -/
theorem length_varint_ofNat_le (n : Nat) :
    (varint (UInt64.ofNat n).toNat).length ≤ (varint n).length := by
  apply length_varint_mono
  rw [UInt64.toNat_ofNat']
  exact Nat.mod_le _ _

theorem takes_rule (height : Nat) : Takes (readRule height) 0 fun r => (rule r).length := by
  refine takes_text.bind fun name => ?_
  refine (takes_text.frame _).bind fun source => ?_
  refine (takes_varint.frame _).bind fun maxDepth => ?_
  refine (takes_varint.frame _).bind fun maxHeight => ?_
  refine ((takes_condition height).frame _).bind fun c => takes_pure ?_
  have hdepth := length_varint_ofNat_le maxDepth
  have hheight := length_varint_ofNat_le maxHeight
  simp only [rule, List.length_append, Nat.add_eq]
  omega

/-- **A stored set takes at least the bytes in which it is written.** -/
theorem takes_set (height : Nat) :
    Takes (StoredSet.reader height) 0 fun stored => stored.write.length := by
  have hrules := takes_list (takes_rule height)
  refine takes_varint.bind fun ruleCount => ?_
  refine ((takes_choice (by decide)).frame _).bind fun combine => ?_
  refine (hrules.frame _).bind fun rules => takes_pure ?_
  simp only [StoredSet.write, List.length_append, Nat.add_eq]
  omega

end Stored

end Eligibility
