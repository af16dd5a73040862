import Eligibility.Proofs.Rule.Invariant
import Eligibility.Proofs.Stored.Accepted
import Eligibility.Proofs.Stored.RoundTrip

/-!
# Damaged stored sets

What is loaded depends on the payload alone, and the payload is held to the hash in the header.  So
however the bytes of a set are changed, as long as the hash is left as it was, loading gives the set
again or nothing, unless two payloads have the same hash.  Bytes that are cut off leave a payload
that is too short, and no other field of the header has a say in what is loaded.

## Main definitions

* `Header.Frames bytes payload` : the bytes start with a header that is right about the payload
  behind it.

## Main results

* `Header.extract_eq_of_getElem?_eq` : a field is the same where the bytes are the same.
* `RuleSet.payloadOf_eq_ok_iff_frames` : a payload is found exactly behind such a header.
* `RuleSet.payloadOf_take_eq_error` : bytes that are cut off are missed.
* `RuleSet.ofBytes_of_damaged` : **what becomes of a stored set whose bytes are altered, cut off or
  followed by others.**
-/

namespace Eligibility

namespace Header

/-- The bytes start with a header that is right about the payload behind it. -/
structure Frames (bytes payload : List UInt8) : Prop where
  magic_eq : bytes.extract 0 4 = magic
  version_eq : statedVersion bytes = supported
  length_eq : statedLength bytes = payload.length
  digest_eq : bytes.extract 16 32 = digestOf payload
  payload_eq : statedPayload bytes = payload
  length_le : 32 + payload.length ≤ bytes.length

variable {bytes bytes' payload : List UInt8}

/-- A field is the same where the bytes are the same. -/
theorem extract_eq_of_getElem?_eq {start stop : Nat}
    (h : ∀ i, start ≤ i → i < stop → bytes'[i]? = bytes[i]?) :
    bytes'.extract start stop = bytes.extract start stop := by
  rw [List.extract_eq_take_drop, List.extract_eq_take_drop]
  apply List.ext_getElem?
  intro i
  by_cases hi : i < stop - start
  · rw [List.getElem?_take_of_lt hi, List.getElem?_take_of_lt hi, List.getElem?_drop,
      List.getElem?_drop]
    exact h (start + i) (Nat.le_add_right _ _) (by omega)
  · rw [List.getElem?_take_eq_none (by omega), List.getElem?_take_eq_none (by omega)]

theorem length_statedPayload (h : 32 + statedLength bytes ≤ bytes.length) :
    (statedPayload bytes).length = statedLength bytes := by
  rw [statedPayload, List.extract_eq_take_drop, List.length_take, List.length_drop]
  omega

/-- **The bytes between the version and the length have no say**, and neither have those behind the
payload: other bytes with the same ones everywhere else frame the same payload. -/
theorem Frames.congr (h : Frames bytes payload)
    (hsame : ∀ i < 32 + payload.length, i < 6 ∨ 12 ≤ i → bytes'[i]? = bytes[i]?) :
    Frames bytes' payload := by
  have hfield : ∀ start stop, stop ≤ 6 ∨ 12 ≤ start → stop ≤ 32 + payload.length →
      bytes'.extract start stop = bytes.extract start stop := by
    intro start stop hout hstop
    refine extract_eq_of_getElem?_eq fun i hstart hi => hsame i (by omega) ?_
    rcases hout with hout | hout
    · exact .inl (by omega)
    · exact .inr (by omega)
  have hlength : statedLength bytes' = payload.length := by
    rw [statedLength, hfield 12 16 (by omega) (by omega)]
    exact h.length_eq
  refine ⟨?_, ?_, hlength, ?_, ?_, ?_⟩
  · rw [hfield 0 4 (by omega) (by omega), h.magic_eq]
  · rw [statedVersion, hfield 4 6 (by omega) (by omega)]
    exact h.version_eq
  · rw [hfield 16 32 (by omega) (by omega), h.digest_eq]
  · rw [statedPayload, hlength, hfield 32 _ (by omega) (Nat.le_refl _), ← h.length_eq]
    exact h.payload_eq
  · -- the last byte of the payload, or of the header, is there
    have hlast : bytes'[31 + payload.length]? = bytes[31 + payload.length]? :=
      hsame _ (by omega) (.inr (by omega))
    have hthere : 31 + payload.length < bytes.length := Nat.lt_of_lt_of_le (by omega) h.length_le
    rw [List.getElem?_eq_getElem hthere] at hlast
    have := (List.getElem?_eq_some_iff.1 hlast).1
    omega

end Header

namespace RuleSet

open LoadCheck

variable {bytes payload : List UInt8}

/-! ### Finding the payload -/

/-- **A payload is found exactly behind a header that is right about it.** -/
theorem payloadOf_eq_ok_iff_frames :
    payloadOf bytes = .ok payload ↔ Header.Frames bytes payload := by
  rw [(payloadOf_agrees bytes).eq_ok_iff fun ha hb => ha.trans hb.symm]
  simp only [LoadCheck.ofPayload, LoadCheck.ofHeader, List.cons_append, List.nil_append,
    List.forall_mem_cons, List.not_mem_nil, false_imp_iff, implies_true, and_true, require]
  constructor
  · rintro ⟨⟨-, hmagic, hversion, hlength, hdigest⟩, rfl⟩
    have hstated := Header.length_statedPayload hlength
    exact ⟨hmagic, hversion, hstated.symm, hdigest, rfl, by omega⟩
  · intro h
    have hlength := h.length_eq
    have hle := h.length_le
    refine ⟨⟨by omega, h.magic_eq, h.version_eq, by omega, ?_⟩, h.payload_eq.symm⟩
    rw [h.payload_eq, h.digest_eq]
    rfl

theorem frames_toBytes {s : RuleSet} (hsize : s.toStored.write.length < UInt32.size) :
    Header.Frames s.toBytes s.toStored.write :=
  payloadOf_eq_ok_iff_frames.1 (payloadOf_append hsize)

theorem length_toBytes (s : RuleSet) : s.toBytes.length = 32 + s.toStored.write.length := by
  rw [toBytes, List.length_append, Header.length_write (Header.length_digestOf _)]
  rfl

/-- **Bytes that are cut off are missed**: in the header, or in the payload. -/
theorem payloadOf_take_eq_error {n : Nat} (h : Header.Frames bytes payload)
    (hn : n < 32 + payload.length) : payloadOf (bytes.take n) =
      .error
        (if n < 32 then .lengthMismatch 32 n else .lengthMismatch payload.length (n - 32)) := by
  have hle := h.length_le
  have hlength : (bytes.take n).length = n := List.length_take_of_le (by omega)
  rw [(payloadOf_agrees (bytes.take n)).eq_error_iff]
  by_cases hheader : n < 32
  · rw [if_pos hheader]
    refine .here ?_ ?_
    · show ¬32 ≤ (bytes.take n).length
      omega
    · show _ = LoadError.lengthMismatch 32 (bytes.take n).length
      rw [hlength]
  · rw [if_neg hheader]
    -- the header is whole, so it says what it said before
    have hfield : ∀ start stop, stop ≤ 32 →
        (bytes.take n).extract start stop = bytes.extract start stop := by
      intro start stop hstop
      exact Header.extract_eq_of_getElem?_eq fun i _ hi => List.getElem?_take_of_lt (by omega)
    have hversion : Header.statedVersion (bytes.take n) = 1 := by
      rw [Header.statedVersion, hfield 4 6 (by omega)]
      exact h.version_eq
    have hstated : Header.statedLength (bytes.take n) = payload.length := by
      rw [Header.statedLength, hfield 12 16 (by omega)]
      exact h.length_eq
    refine .later ?_ (.later ?_ (.later hversion (.here ?_ ?_)))
    · show 32 ≤ (bytes.take n).length
      omega
    · show (bytes.take n).extract 0 4 = _
      rw [hfield 0 4 (by omega), h.magic_eq]
      rfl
    · show ¬32 + Header.statedLength (bytes.take n) ≤ (bytes.take n).length
      omega
    · show _ = LoadError.lengthMismatch _ _
      rw [hstated, hlength]

/-! ### Loading damaged bytes -/

variable {s s' : RuleSet}

theorem ofBytes_eq_error_of_payloadOf {e : LoadError} (h : payloadOf bytes = .error e) :
    ofBytes bytes = .error e := by
  rw [ofBytes, h]
  rfl

/-- Wherever the payload of a set is found, the set is loaded. -/
theorem ofBytes_of_frames (hs : s.WellFormed) (hsize : s.toStored.write.length < UInt32.size)
    (h : Header.Frames bytes s.toStored.write) : ofBytes bytes = .ok s := by
  have hwide : s.toStored.write.length < UInt64.size := Nat.lt_trans hsize (by decide)
  have hcount : s.toStored.ruleCount < UInt64.size := by
    have hrules : s.toStored.ruleCount = s.toStored.rules.length := (List.length_map _).symm
    have hlength := Stored.length_rules_le_length_write s.toStored
    omega
  rw [ofBytes_eq_ok_iff_admits (payloadOf_eq_ok_iff_frames.2 h) hcount hwide,
    ← StoredSet.restore_eq_ok_iff]
  exact restore_toStored hs

/-- **Bytes that keep the hash of a set are loaded as that set or not at all**, or else there are
two payloads with one hash. -/
theorem eq_or_collision_of_ofBytes (hs : s.WellFormed)
    (hsize : s.toStored.write.length < UInt32.size)
    (hdigest : bytes.extract 16 32 = s.toBytes.extract 16 32) (h : ofBytes bytes = .ok s') :
    s' = s ∨ (Header.statedPayload bytes ≠ s.toStored.write ∧
      Header.digestOf (Header.statedPayload bytes) = Header.digestOf s.toStored.write) := by
  obtain ⟨payload, hpayload, -⟩ := Except.bind_eq_ok_iff.1 h
  have hframes := payloadOf_eq_ok_iff_frames.1 hpayload
  rw [hframes.payload_eq]
  by_cases hsame : payload = s.toStored.write
  · left
    rw [hsame] at hframes
    exact Except.ok.inj (h.symm.trans (ofBytes_of_frames hs hsize hframes))
  · right
    exact ⟨hsame, by rw [← hframes.digest_eq, hdigest, (frames_toBytes hsize).digest_eq]⟩

/-- **What becomes of a stored set whose bytes are altered, cut off or followed by others.**  Bytes
that keep the hash in the header are loaded as the same set or not at all, or else two different
payloads have the same half of a hash; with any bytes cut off the set is refused for its length; and
with other bytes between the version and the length, or with more bytes behind it, it is loaded as
before. -/
theorem ofBytes_of_damaged (s : RuleSet) (hs : s.Obtainable)
    (hsize : s.toStored.write.length < UInt32.size) :
    (∀ bytes, 32 ≤ bytes.length → bytes.extract 16 32 = s.toBytes.extract 16 32 →
      ∀ s', ofBytes bytes = .ok s' → s' = s ∨ (Header.statedPayload bytes ≠ s.toStored.write ∧
        (Blake3.hash (Header.statedPayload bytes)).take 16 =
          (Blake3.hash s.toStored.write).take 16)) ∧
    (∀ bytes, bytes <+: s.toBytes → bytes ≠ s.toBytes → ofBytes bytes = .error
      (if bytes.length < 32 then .lengthMismatch 32 bytes.length
        else .lengthMismatch s.toStored.write.length (bytes.length - 32))) ∧
    (∀ bytes, (∀ i < s.toBytes.length, i < 6 ∨ 12 ≤ i → bytes[i]? = s.toBytes[i]?) →
      ofBytes bytes = .ok s) := by
  have hframes := frames_toBytes hsize
  have hlength := length_toBytes s
  refine ⟨?_, ?_, ?_⟩
  · intro bytes _ hdigest s' h
    exact eq_or_collision_of_ofBytes hs.wellFormed hsize hdigest h
  · intro bytes hbytes hne
    have htake : bytes = s.toBytes.take bytes.length := List.prefix_iff_eq_take.1 hbytes
    have hlt : bytes.length < s.toBytes.length :=
      Nat.lt_of_le_of_ne hbytes.length_le fun heq => hne (hbytes.eq_of_length heq)
    have herror := payloadOf_take_eq_error hframes (hlength ▸ hlt)
    rw [← htake] at herror
    exact ofBytes_eq_error_of_payloadOf herror
  · intro bytes hsame
    rw [hlength] at hsame
    exact ofBytes_of_frames hs.wellFormed hsize (hframes.congr hsame)

/-- The set of one rule, cut off inside its header and inside its payload, and with bytes behind
it. -/
theorem ofBytes_of_damaged_one_rule :
    ∃ s, ofBook "rule any: NOT (a < 'b')" = .ok s ∧ s.toStored.write.length = 33 ∧
      ofBytes (s.toBytes.take 31) = .error (.lengthMismatch 32 31) ∧
      ofBytes (s.toBytes.take 64) = .error (.lengthMismatch 33 32) ∧
      ofBytes (s.toBytes ++ [1, 2]) = .ok s ∧
      ∀ s', ofBytes (s.toBytes ++ [1, 2]) = .ok s' → s' = s ∨
        Header.statedPayload (s.toBytes ++ [1, 2]) ≠ s.toStored.write := by
  let rule : Rule := ⟨"any", "NOT (a < 'b')", .not (.compare "a" .lt (.text "b")), {}⟩
  let s : RuleSet := ⟨[rule], .all⟩
  have hbook : ofBook "rule any: NOT (a < 'b')" = .ok s := by decide +kernel
  have hpayload : s.toStored.write.length = 33 := by decide +kernel
  have hlength : s.toBytes.length = 65 := by rw [length_toBytes, hpayload]
  obtain ⟨hkept, hcut, hloaded⟩ :=
    ofBytes_of_damaged s (.ofBook hbook) (by rw [hpayload]; decide)
  have hsame : ∀ i < s.toBytes.length, (s.toBytes ++ [1, 2])[i]? = s.toBytes[i]? :=
    fun i hi => List.getElem?_append_left hi
  have hshort : ∀ n < 65, (s.toBytes.take n).length = n ∧ s.toBytes.take n ≠ s.toBytes := by
    intro n hn
    have htake : (s.toBytes.take n).length = n := List.length_take_of_le (by omega)
    refine ⟨htake, fun hall => ?_⟩
    rw [hall] at htake
    omega
  have hdigest : (s.toBytes ++ [1, 2]).extract 16 32 = s.toBytes.extract 16 32 :=
    Header.extract_eq_of_getElem?_eq fun i _ hi => hsame i (by omega)
  refine ⟨s, hbook, hpayload, ?_, ?_, ?_, ?_⟩
  · have hheader := hcut _ (List.take_prefix 31 _) (hshort 31 (by decide)).2
    rwa [(hshort 31 (by decide)).1] at hheader
  · have hmissing := hcut _ (List.take_prefix 64 _) (hshort 64 (by decide)).2
    rwa [(hshort 64 (by decide)).1, hpayload] at hmissing
  · exact hloaded _ fun i hi _ => hsame i hi
  · intro s' h
    have hbytes : 32 ≤ (s.toBytes ++ [1, 2]).length := by
      rw [List.length_append]
      omega
    rcases hkept _ hbytes hdigest s' h with heq | ⟨hne, -⟩
    · exact .inl heq
    · exact .inr hne

end RuleSet

end Eligibility
