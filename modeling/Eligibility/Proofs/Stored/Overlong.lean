import Eligibility.Proofs.Stored.Damage
import Eligibility.Proofs.Stored.Extent

/-!
# Sets that are too long for their header

The header has four bytes for the length of the payload, and the length is written into them whether
it fits or not.  Nothing keeps a payload short: a name or a source may have any length, and there
may be any number of rules.  So a header reads back with the length of its payload up to a multiple
of 2³², which is right exactly for payloads that are shorter than that.  A set with a wrong header
is stored without a fault and refused when it is loaded, since the hash in the header is the one of
the whole payload.

## Main definitions

* `RuleSet.ofLongSource source` : a set of one rule, with a source that may be of any length.

## Main results

* `RuleSet.length_read_toBytes_eq_iff` : **the header of a set agrees with its payload exactly if
  the payload is shorter than 2³² bytes**; its names and sources bound the payload from both sides.
* `RuleSet.length_read_toBytes_of_spaces` : a set whose header says 34 where the payload has 2³²
  bytes more.
* `RuleSet.ofBytes_toBytes_of_overlong` : **a set that is too long cannot be loaded from its
  bytes**, unless two payloads have one hash.
-/

namespace Eligibility

open Stored

namespace RuleSet

variable {s : RuleSet} {source : String}

/-! ### What is written -/

theorem drop_toBytes (s : RuleSet) : s.toBytes.drop 32 = s.toStored.write :=
  List.drop_left' (Header.length_write (Header.length_digestOf _))

theorem read_toBytes (s : RuleSet) : Header.read s.toBytes =
    .ok ⟨Header.supported, s.toStored.write.length % UInt32.size,
      Header.digestOf s.toStored.write⟩ :=
  Header.read_ofPayload s.toStored.write

/-! ### A set with a long source -/

/-- The set of one rule that compares the field `a` with the number one, with the given source. -/
def ofLongSource (source : String) : RuleSet :=
  ⟨[⟨"a", source, .compare "a" .lt (.number ⟨0x3FF0000000000000⟩), {}⟩], .all⟩

/-- Spaces in front of a source make no difference to what it says. -/
theorem parse_of_spaces {limits : Limits} {e : Expr} (n : Nat)
    (h : Expr.parse limits source = .ok e) :
    Expr.parse limits (String.ofList (List.replicate n ' ' ++ source.toList)) = .ok e := by
  obtain ⟨ts, depth, hdenotes, hder⟩ := Expr.parse_eq_ok_iff_denotes.1 h
  refine Expr.parse_eq_ok_iff_denotes.2 ⟨ts, depth, ?_, hder⟩
  rw [String.toList_ofList]
  induction n with
  | zero => exact hdenotes
  | succ n ih => exact .layout rfl ih

theorem byteLength_spaces (n : Nat) : Token.byteLength (List.replicate n ' ') = n := by
  induction n with
  | zero => rfl
  | succ n ih =>
    rw [List.replicate_succ, Token.byteLength_cons, ih, Nat.add_comm]
    rfl

theorem build_ofLongSource
    (h : Expr.parse {} source = .ok (.compare "a" .lt (.number ⟨0x3FF0000000000000⟩))) :
    Builder.build { items := #[.source "a" source] } = .ok (ofLongSource source) := by
  rw [Builder.build_eq_ok_iff]
  refine ⟨List.cons_ne_nil _ _, .cons ⟨?_, nofun⟩ .nil, rfl⟩
  exact Rule.ofSource_eq_ok_iff.2 ⟨by decide, h, rfl, rfl, rfl⟩

/-- Besides a source of 2³² bytes and more the payload takes nine bytes for its length, and
twenty-two for all the rest. -/
theorem length_write_ofLongSource (h : UInt32.size ≤ source.utf8ByteSize) :
    (ofLongSource source).toStored.write.length = source.utf8ByteSize + 31 := by
  have hsource : (varint source.utf8ByteSize).length = 9 := by
    have hsize : 4294967296 ≤ source.utf8ByteSize := h
    rw [length_varint]
    split_ifs <;> omega
  have hcount : (varint 1).length = 1 := rfl
  have hname : (text "a").length = 2 := rfl
  have hdepth : (varint (UInt64.toNat 64)).length = 1 := rfl
  have hheight : (varint (UInt64.toNat 512)).length = 3 := rfl
  have hcondition : (condition (Condition.ofExpr
      (.compare "a" .lt (.number ⟨0x3FF0000000000000⟩)))).length = 13 := rfl
  simp only [StoredSet.write, ofLongSource, toStored, Rule.toStored, Stored.rule, List.map_cons,
    List.map_nil, List.flatMap_cons, List.flatMap_nil, List.length_append, List.length_singleton,
    List.length_nil, length_combine, length_text source, hsource, hcount, hname, hdepth, hheight,
    hcondition]
  omega

/-! ### When header and payload agree -/

/-- **The header of a set agrees with its payload exactly if the payload is shorter than 2³²
bytes.**  Every set is stored, with a header that can be read back, and the length in it is the one
of the payload up to a multiple of 2³².  The payload takes at least the bytes of all names and
sources; and for a set that can be had, at most six times as many and a few for each rule. -/
theorem length_read_toBytes_eq_iff (s : RuleSet) :
    ∃ header, Header.read s.toBytes = .ok header ∧
      header.length = (s.toBytes.drop 32).length % UInt32.size ∧
      (header.length = (s.toBytes.drop 32).length ↔ (s.toBytes.drop 32).length < UInt32.size) ∧
      s.textBytes ≤ (s.toBytes.drop 32).length ∧
      (s.Obtainable →
        (s.toBytes.drop 32).length ≤ 6 * s.textBytes + 36 * s.rules.length + 19) := by
  rw [drop_toBytes]
  refine ⟨_, read_toBytes s, rfl, ?_, s.textBytes_le_length_write,
    fun hs => length_write_le hs.wellFormed⟩
  exact Nat.mod_eq_iff_lt (by decide)

/-- The set of one short rule: going by the bytes of its name and its source, its payload is far
shorter than 2³² bytes, so that the header agrees with it. -/
theorem length_read_toBytes_of_book : ∃ s header, ofBook "rule any: NOT (a < 'b')" = .ok s ∧
    Header.read s.toBytes = .ok header ∧ s.textBytes = 16 ∧ (s.toBytes.drop 32).length ≤ 151 ∧
    header.length = (s.toBytes.drop 32).length := by
  let rule : Rule := ⟨"any", "NOT (a < 'b')", .not (.compare "a" .lt (.text "b")), {}⟩
  have hbook : ofBook "rule any: NOT (a < 'b')" = .ok ⟨[rule], .all⟩ := by decide +kernel
  have htext : textBytes ⟨[rule], .all⟩ = 16 := by decide +kernel
  obtain ⟨header, hread, -, hagrees, -, hbound⟩ := length_read_toBytes_eq_iff ⟨[rule], .all⟩
  have hlength := hbound (.ofBook hbook)
  rw [htext, List.length_singleton] at hlength
  have hshort : (toBytes ⟨[rule], .all⟩ |>.drop 32).length < UInt32.size :=
    Nat.lt_of_le_of_lt hlength (by decide)
  exact ⟨_, header, hbook, hread, htext, hlength, hagrees.2 hshort⟩

/-- The set of one rule whose source starts with 2³² spaces.  It is built and stored, and its header
says 34 bytes. -/
theorem length_read_toBytes_of_spaces : ∃ s header,
    Builder.build { items := #[.source "a"
      (String.ofList (List.replicate UInt32.size ' ' ++ "a<1".toList))] } = .ok s ∧
    s.Obtainable ∧ Header.read s.toBytes = .ok header ∧ header.length = 34 ∧
    (s.toBytes.drop 32).length = UInt32.size + 34 := by
  have hsays : Expr.parse {} "a<1" = .ok (.compare "a" .lt (.number ⟨0x3FF0000000000000⟩)) := by
    decide +kernel
  have hbuild := build_ofLongSource (parse_of_spaces UInt32.size hsays)
  have hthree : Token.byteLength "a<1".toList = 3 := by decide
  have hbytes : (String.ofList (List.replicate UInt32.size ' ' ++ "a<1".toList)).utf8ByteSize =
      UInt32.size + 3 := by
    rw [Token.utf8ByteSize_ofList, Token.byteLength_append, byteLength_spaces, hthree]
  -- from here on only the length of the source counts
  generalize String.ofList (List.replicate UInt32.size ' ' ++ "a<1".toList) = source
    at hbuild hbytes ⊢
  have hlength : (ofLongSource source).toStored.write.length = UInt32.size + 34 := by
    rw [length_write_ofLongSource (by omega), hbytes]
  have hwrapped : (UInt32.size + 34) % UInt32.size = 34 := by decide
  have hread : Header.read (ofLongSource source).toBytes = .ok ⟨Header.supported, 34,
      Header.digestOf (ofLongSource source).toStored.write⟩ := by
    rw [read_toBytes, hlength, hwrapped]
  refine ⟨_, _, hbuild, .build (by simp) hbuild, hread, rfl, ?_⟩
  rw [drop_toBytes, hlength]

/-! ### Loading a set that is too long -/

/-- **A set that is too long cannot be loaded from its bytes**: a part of its payload is taken for
the whole, and refused for its hash, unless the two have the same. -/
theorem ofBytes_toBytes_of_overlong (h : UInt32.size ≤ s.toStored.write.length) :
    ofBytes s.toBytes = .error .checksumMismatch ∨ ∃ part, part <+: s.toStored.write ∧
      part ≠ s.toStored.write ∧ Header.digestOf part = Header.digestOf s.toStored.write := by
  have hshorter : s.toStored.write.length % UInt32.size < s.toStored.write.length :=
    Nat.lt_of_lt_of_le (Nat.mod_lt _ (by decide)) h
  by_cases hdigest : Header.digestOf
      (s.toStored.write.take (s.toStored.write.length % UInt32.size)) =
        Header.digestOf s.toStored.write
  · refine .inr ⟨_, List.take_prefix _ _, fun hwhole => ?_, hdigest⟩
    have hlength := congrArg List.length hwhole
    rw [List.length_take_of_le hshorter.le] at hlength
    omega
  · refine .inl (ofBytes_eq_error_of_payloadOf ?_)
    exact (payloadOf_append_mod s.toStored.write).trans (if_neg hdigest)

end RuleSet

end Eligibility
