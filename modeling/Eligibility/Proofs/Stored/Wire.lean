import Eligibility.Stored.Wire
import Mathlib.Data.List.Basic

/-!
# What is written reads back

A reader takes a value off the front of the bytes and leaves the others alone, so what it makes of
a written value does not depend on what is written after it.  That is the form in which reading
back goes through sequences, choices and lists.

## Main definitions

* `Stored.ReadsBack read bytes a` : before any other bytes, `read` takes just `bytes`, as `a`.

## Main results

* `ReadsBack.bind` : one value after another.
* `readsBack_varint`, `readsBack_index`, `readsBack_choice`, `readsBack_text`, `readsBack_list` :
  numbers, indices, choices, texts and lists.
-/

namespace Eligibility

-- Powers of natural numbers are the core library's in every context.
attribute [local instance (100000)] instPowNat

namespace Stored

variable {α β : Type} {read : Reader α} {bytes : List UInt8} {a : α}

/-- Whatever comes after the bytes, the reader takes just them, as this value. -/
def ReadsBack (read : Reader α) (bytes : List UInt8) (a : α) : Prop :=
  ∀ rest, read (bytes ++ rest) = some (a, rest)

/-! ### Sequences -/

theorem readsBack_pure (a : α) : ReadsBack (pure a) [] a :=
  fun _ => rfl

theorem ReadsBack.bind {next : α → Reader β} {more : List UInt8} {b : β}
    (h : ReadsBack read bytes a) (hnext : ReadsBack (next a) more b) :
    ReadsBack (read >>= next) (bytes ++ more) b := by
  intro rest
  have hread := h (more ++ rest)
  show Option.bind (read (bytes ++ more ++ rest)) (fun p => next p.1 p.2) = some (b, rest)
  rw [List.append_assoc, hread, Option.bind_some]
  exact hnext rest

/-- A value that is read and then only wrapped. -/
theorem ReadsBack.map (h : ReadsBack read bytes a) (f : α → β) :
    ReadsBack (read >>= fun a => pure (f a)) bytes (f a) := by
  have hmap : ReadsBack (read >>= fun a => pure (f a)) (bytes ++ []) (f a) :=
    h.bind (readsBack_pure (f a))
  rwa [List.append_nil] at hmap

/-! ### Numbers -/

theorem readsBack_bytes (bytes : List UInt8) :
    ReadsBack (readBytes bytes.length) bytes bytes :=
  fun rest => take?_append bytes rest

theorem readsBack_fixed {width n : Nat} (h : n < 256 ^ width) :
    ReadsBack (readFixed width) (littleEndian width n) n := by
  have hbytes := (readsBack_bytes (littleEndian width n)).map ofLittleEndian
  rw [length_littleEndian, ofLittleEndian_littleEndian h] at hbytes
  exact hbytes

theorem readsBack_byte {n : Nat} (h : n < 256) : ReadsBack (readFixed 1) [UInt8.ofNat n] n := by
  have hfixed : ReadsBack (readFixed 1) (littleEndian 1 n) n := readsBack_fixed (by omega)
  exact hfixed

/-- A number that fits eight bytes reads back, in whichever form it was written. -/
theorem readsBack_varint {n : Nat} (h : n < UInt64.size) : ReadsBack readVarint (varint n) n := by
  unfold varint
  split
  · rename_i hsmall
    have hfirst : ReadsBack (readAfter 8 n) [] n := by
      rw [readAfter, if_pos hsmall]
      exact readsBack_pure n
    exact (readsBack_byte (by omega)).bind hfirst
  split
  · rename_i _ htwo
    have hword : ReadsBack (readAfter 8 251) (littleEndian 2 n) n := readsBack_fixed htwo
    exact (readsBack_byte (by decide)).bind hword
  split
  · rename_i _ _ hfour
    have hword : ReadsBack (readAfter 8 252) (littleEndian 4 n) n := readsBack_fixed hfour
    exact (readsBack_byte (by decide)).bind hword
  · have hword : ReadsBack (readAfter 8 253) (littleEndian 8 n) n := readsBack_fixed h
    exact (readsBack_byte (by decide)).bind hword

theorem readsBack_index {n : Nat} (h : n < 251) : ReadsBack readIndex (varint n) n := by
  have hfirst : ReadsBack (readAfter 4 n) [] n := by
    rw [readAfter, if_pos h]
    exact readsBack_pure n
  rw [varint, if_pos h]
  exact (readsBack_byte (by omega)).bind hfirst

/-- One of a few values reads back from its index. -/
theorem readsBack_choice [DecidableEq α] {choices : List α} (hmem : a ∈ choices)
    (hfew : choices.length < 251) :
    ReadsBack (readChoice choices) (varint (choices.idxOf a)) a := by
  have hindex := readsBack_index (Nat.lt_trans (List.idxOf_lt_length_of_mem hmem) hfew)
  have hchoice : ReadsBack (readChoice choices) (varint (choices.idxOf a) ++ []) a := by
    refine hindex.bind ?_
    rw [List.getElem?_idxOf hmem]
    exact readsBack_pure a
  rwa [List.append_nil] at hchoice

/-! ### Texts and lists -/

theorem length_bytes (s : String) : s.toByteArray.data.toList.length = s.utf8ByteSize :=
  rfl

theorem fromUTF8?_bytes (s : String) :
    String.fromUTF8? s.toByteArray.data.toList.toByteArray = some s := by
  have hbytes : s.toByteArray.data.toList.toByteArray = s.toByteArray := by
    apply ByteArray.ext
    rw [List.data_toByteArray]
  rw [hbytes, String.fromUTF8?, dif_pos s.isValidUTF8]
  rfl

theorem readsBack_text {s : String} (h : s.utf8ByteSize < UInt64.size) :
    ReadsBack readText (text s) s := by
  have hbytes := readsBack_bytes s.toByteArray.data.toList
  rw [length_bytes] at hbytes
  have htext :
      ReadsBack readText (varint s.utf8ByteSize ++ (s.toByteArray.data.toList ++ [])) s := by
    refine (readsBack_varint h).bind (hbytes.bind ?_)
    rw [fromUTF8?_bytes]
    exact readsBack_pure s
  rwa [List.append_nil] at htext

theorem readsBack_many {write : α → List UInt8} {as : List α}
    (h : ∀ a ∈ as, ReadsBack read (write a) a) :
    ReadsBack (readMany read as.length) (as.flatMap write) as := by
  induction as with
  | nil => exact readsBack_pure []
  | cons a as ih =>
    have hhead := h a List.mem_cons_self
    have htail := ih fun b hb => h b (List.mem_cons_of_mem a hb)
    exact hhead.bind (htail.map (a :: ·))

/-- **A list reads back if its members do.** -/
theorem readsBack_list {write : α → List UInt8} {as : List α}
    (h : ∀ a ∈ as, ReadsBack read (write a) a) (hlength : as.length < UInt64.size) :
    ReadsBack (readList read) (varint as.length ++ as.flatMap write) as :=
  (readsBack_varint hlength).bind (readsBack_many h)

end Stored

end Eligibility
