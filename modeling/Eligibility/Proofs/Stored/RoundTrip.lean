import Eligibility.Proofs.Rule.Invariant
import Eligibility.Proofs.Stored.Payload
import Eligibility.Proofs.Stored.Restore

/-!
# Storing and restoring a set of rules

A rule that keeps the promise of rules is made again from what is stored of it, since flattening its
expression loses nothing.  The header in front of the payload says how long the payload is and what
its hash is, so the payload is found again.

## Main results

* `RuleSet.restore_toStored` : a set of rules is restored from what is stored of it.
* `Header.read_write` : what a header reads back as.
* `RuleSet.payloadOf_append_mod`, `RuleSet.payloadOf_append` : what is found behind a header.
* `RuleSet.ofBytes_eq_ok_iff_admits` : a payload that is found is restored as it was stored.
* `RuleSet.ofBytes_toBytes` : **a set of rules comes back from its bytes.**
-/

namespace Eligibility

open Stored

/-! ### Restoring -/

theorem Rule.restores_toStored {rule : Rule} (h : rule.WellFormed) : rule.toStored.Restores rule :=
  ⟨rule.expr, Condition.toExpr?_ofExpr rule.expr, h.restore_eq⟩

/-- **A set of rules is restored from what is stored of it.** -/
theorem RuleSet.restore_toStored {s : RuleSet} (h : s.WellFormed) : s.toStored.restore = .ok s := by
  have hlength : (s.rules.map Rule.toStored).length = s.rules.length := List.length_map ..
  have hrules : List.Forall₂ StoredRule.Restores (s.rules.map Rule.toStored) s.rules := by
    rw [List.forall₂_map_left_iff, List.forall₂_same]
    exact fun rule hrule => Rule.restores_toStored (h.rules rule hrule)
  have hpos : 1 ≤ (s.rules.map Rule.toStored).length := by
    rw [hlength]
    exact List.length_pos_iff.2 h.rules_ne
  exact StoredSet.restore_eq_ok_iff.2 ⟨hlength.symm, hpos, hrules, rfl⟩

/-! ### The header -/

namespace Header

variable {h : Header}

/-- A header takes thirty-two bytes. -/
theorem length_write (hdigest : h.digest.length = 16) : h.write.length = size := by
  simp only [write, magic, size, List.length_append, length_littleEndian, hdigest, List.length_cons,
    List.length_nil]

/-- What stands behind some bytes and in front of others. -/
theorem take_drop_append {α : Type} {start width : Nat} {front middle rest : List α}
    (hfront : front.length = start) (hmiddle : middle.length = width) :
    ((front ++ (middle ++ rest)).drop start).take width = middle := by
  rw [List.drop_left' hfront, List.take_left' hmiddle]

/-- **What a header reads back as**: its version and its length as far as two and four bytes hold
them, and its digest. -/
theorem read_write (payload : List UInt8) (hdigest : h.digest.length = 16) :
    read (h.write ++ payload) =
      .ok ⟨h.version % UInt16.size, h.length % UInt32.size, h.digest⟩ := by
  have hsize : ¬(h.write ++ payload).length < size := by
    rw [List.length_append, length_write hdigest]
    omega
  have hmagic : ((h.write ++ payload).drop 0).take 4 = magic := by
    rw [List.drop_zero]
    simp only [write, List.append_assoc]
    exact List.take_left' rfl
  have hversionField : ((h.write ++ payload).drop 4).take 2 = littleEndian 2 h.version := by
    simp only [write, List.append_assoc]
    exact take_drop_append rfl (length_littleEndian 2 _)
  have hlengthField : ((h.write ++ payload).drop 12).take 4 = littleEndian 4 h.length := by
    rw [write, List.append_assoc, List.append_assoc]
    refine take_drop_append ?_ (length_littleEndian 4 _)
    simp only [magic, List.length_append, length_littleEndian, List.length_cons, List.length_nil]
  have hdigestField : ((h.write ++ payload).drop 16).take 16 = h.digest := by
    rw [write, List.append_assoc]
    refine take_drop_append ?_ hdigest
    simp only [magic, List.length_append, length_littleEndian, List.length_cons, List.length_nil]
  simp only [read]
  rw [if_neg hsize, if_neg (not_not.2 hmagic), hversionField, hlengthField, hdigestField,
    ofLittleEndian_littleEndian_mod, ofLittleEndian_littleEndian_mod]

theorem length_digestOf (payload : List UInt8) : (digestOf payload).length = 16 := by
  rw [digestOf, List.length_take, Blake3.length_hash]
  rfl

/-- The header of a payload reads back with the length of the payload as far as four bytes hold
it. -/
theorem read_ofPayload (payload : List UInt8) :
    read ((ofPayload payload).write ++ payload) =
      .ok ⟨supported, payload.length % UInt32.size, digestOf payload⟩ :=
  read_write payload (length_digestOf payload)

end Header

/-! ### The whole -/

namespace RuleSet

/-- What is found behind the header of a payload: as much of it as the header says, if that has the
hash of the whole. -/
theorem payloadOf_append_mod (payload : List UInt8) :
    payloadOf ((Header.ofPayload payload).write ++ payload) =
      if Header.digestOf (payload.take (payload.length % UInt32.size)) =
          Header.digestOf payload then
        .ok (payload.take (payload.length % UInt32.size))
      else .error .checksumMismatch := by
  have hbody : ((Header.ofPayload payload).write ++ payload).drop Header.size = payload :=
    List.drop_left' (Header.length_write (Header.length_digestOf payload))
  have hsupported : ¬Header.supported ≠ Header.supported := not_not.2 rfl
  have henough : ¬payload.length < payload.length % UInt32.size := Nat.not_lt.2 (Nat.mod_le _ _)
  simp only [payloadOf, Header.read_ofPayload, hbody]
  dsimp only [bind, Except.bind]
  rw [if_neg hsupported, if_neg henough, ite_not]
  rfl

/-- **A payload is found behind its header**, if its length fits the four bytes for it. -/
theorem payloadOf_append {payload : List UInt8} (hlength : payload.length < UInt32.size) :
    payloadOf ((Header.ofPayload payload).write ++ payload) = .ok payload := by
  rw [payloadOf_append_mod, Nat.mod_eq_of_lt hlength, List.take_length, if_pos rfl]

/-- **What is found behind a header is restored as it was stored**, whether or not it deserves
it. -/
theorem ofBytes_eq_ok_iff_admits {stored : StoredSet} {bytes : List UInt8}
    (hpayload : payloadOf bytes = .ok stored.write) (hcount : stored.ruleCount < UInt64.size)
    (hsize : stored.write.length < UInt64.size) (s : RuleSet) :
    ofBytes bytes = .ok s ↔ stored.Admits s := by
  have hread := StoredSet.read_write hcount hsize
  rw [← StoredSet.restore_eq_ok_iff]
  constructor
  · intro h
    obtain ⟨payload, hpayload', h⟩ := Except.bind_eq_ok_iff.1 h
    obtain rfl := Except.ok.inj (hpayload.symm.trans hpayload')
    simp only [hread] at h
    split at h
    · rename_i hrestore
      rw [hrestore, Except.ok.inj h]
    · cases h
  · intro hrestore
    refine Except.bind_eq_ok_iff.2 ⟨_, hpayload, ?_⟩
    simp only [hread, hrestore]
    rfl

/-- **A set of rules comes back from its bytes**, with all its rules in their order, whatever texts,
expressions and limits they have. -/
theorem ofBytes_toBytes (s : RuleSet) (hs : s.Obtainable)
    (hsize : s.toStored.write.length < UInt32.size) : ofBytes s.toBytes = .ok s := by
  have hwide : s.toStored.write.length < UInt64.size := Nat.lt_trans hsize (by decide)
  have hcount : s.toStored.ruleCount < UInt64.size := by
    have hlength := length_rules_le_length_write s.toStored
    simp only [toStored, List.length_map] at hlength ⊢
    exact Nat.lt_of_le_of_lt hlength hwide
  refine Except.bind_eq_ok_iff.2 ⟨_, payloadOf_append hsize, ?_⟩
  rw [StoredSet.read_write hcount hwide]
  simp only [restore_toStored hs.wellFormed]
  rfl

/-- The two rules of a rule book. -/
theorem ofBytes_toBytes_of_book :
    ∃ s, ofBook "rule art: subject == 'art'\nrule any: NOT (a < 'b' OR c > 'd')" = .ok s ∧
      s.rules.length = 2 ∧ ofBytes s.toBytes = .ok s := by
  let art : Rule := ⟨"art", "subject == 'art'", .compare "subject" .eq (.text "art"), {}⟩
  let other : Rule := ⟨"any", "NOT (a < 'b' OR c > 'd')",
    .not (.or (.compare "a" .lt (.text "b")) (.compare "c" .gt (.text "d"))), {}⟩
  have hbook : ofBook "rule art: subject == 'art'\nrule any: NOT (a < 'b' OR c > 'd')" =
      .ok ⟨[art, other], .all⟩ := by decide +kernel
  exact ⟨_, hbook, rfl, ofBytes_toBytes _ (.ofBook hbook) (by decide +kernel)⟩

end RuleSet

end Eligibility
