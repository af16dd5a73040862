/-!
# Numbers, texts and lists in storage

Whole numbers take one byte up to 250 and otherwise a marker byte and two, four or eight bytes, the
least significant first; writing takes the shortest form, reading takes any.  Texts and lists are
preceded by their length.

## Main definitions

* `Stored.littleEndian`, `Stored.ofLittleEndian` : a number of fixed width.
* `Stored.varint`, `Stored.text` : writing a number and a text.
* `Stored.Reader` : reading from the front of a string of bytes.
* `Stored.readVarint`, `Stored.readIndex`, `Stored.readText`, `Stored.readList` : reading a number,
  the index of a variant, a text and a list.

## Main results

* `Stored.ofLittleEndian_littleEndian_mod` : what reads back of a number of fixed width.
* `Stored.ofLittleEndian_littleEndian` : a number that fits its width reads back.
* `Stored.take?_append` : taking as many bytes as were put in front gives those bytes.
-/

namespace Eligibility

-- Powers of natural numbers are the core library's in every context.
attribute [local instance (100000)] instPowNat

namespace Stored

/-! ### Writing -/

/-- The lowest bytes of a number, as many as the width says. -/
def littleEndian : Nat → Nat → List UInt8
  | 0, _ => []
  | width + 1, n => UInt8.ofNat n :: littleEndian width (n / 256)

/-- A number of at most eight bytes, in the shortest form. -/
def varint (n : Nat) : List UInt8 :=
  if n < 251 then [UInt8.ofNat n]
  else if n < UInt16.size then 251 :: littleEndian 2 n
  else if n < UInt32.size then 252 :: littleEndian 4 n
  else 253 :: littleEndian 8 n

/-- A text, after its length in bytes. -/
def text (s : String) : List UInt8 :=
  varint s.utf8ByteSize ++ s.toByteArray.data.toList

/-! ### Reading -/

/-- A value at the front of a string of bytes, and the bytes after it. -/
abbrev Reader (α : Type) := StateT (List UInt8) Option α

/-- The number that bytes denote, the least significant first. -/
def ofLittleEndian : List UInt8 → Nat
  | [] => 0
  | b :: bytes => b.toNat + 256 * ofLittleEndian bytes

/-- The given number of bytes from the front, and the bytes after them. -/
def take? (n : Nat) (bytes : List UInt8) : Option (List UInt8 × List UInt8) :=
  let front := bytes.take n
  if front.length = n then some (front, bytes.drop n) else none

/-- The given number of bytes. -/
def readBytes (n : Nat) : Reader (List UInt8) :=
  fun bytes => take? n bytes

/-- A number of the given width. -/
def readFixed (width : Nat) : Reader Nat := do
  return ofLittleEndian (← readBytes width)

/-- A number after its first byte, of at most `widest` bytes. -/
def readAfter (widest : Nat) (first : Nat) : Reader Nat :=
  if first < 251 then pure first
  else if first = 251 then readFixed 2
  else if first = 252 then readFixed 4
  else if first = 253 ∧ widest = 8 then readFixed 8
  else failure

/-- A number of at most eight bytes. -/
def readVarint : Reader Nat := do
  readAfter 8 (← readFixed 1)

/-- The index of a variant, of at most four bytes. -/
def readIndex : Reader Nat := do
  readAfter 4 (← readFixed 1)

/-- One of a list of values, by its index. -/
def readChoice (choices : List α) : Reader α := do
  match choices[← readIndex]? with
  | some a => pure a
  | none => failure

/-- A text, after its length in bytes. -/
def readText : Reader String := do
  match String.fromUTF8? (← readBytes (← readVarint)).toByteArray with
  | some s => pure s
  | none => failure

/-- As many values as the number says. -/
def readMany (read : Reader α) : Nat → Reader (List α)
  | 0 => pure []
  | n + 1 => do return (← read) :: (← readMany read n)

/-- A list, after its length. -/
def readList (read : Reader α) : Reader (List α) := do
  readMany read (← readVarint)

/-! ### What is written reads back -/

@[simp] theorem length_littleEndian (width n : Nat) : (littleEndian width n).length = width := by
  induction width generalizing n with
  | zero => rfl
  | succ width ih => rw [littleEndian, List.length_cons, ih]

/-- What reads back of a number is what its width holds of it. -/
theorem ofLittleEndian_littleEndian_mod (width n : Nat) :
    ofLittleEndian (littleEndian width n) = n % 256 ^ width := by
  induction width generalizing n with
  | zero => rw [littleEndian, ofLittleEndian, Nat.pow_zero, Nat.mod_one]
  | succ width ih =>
    rw [Nat.pow_succ, Nat.mul_comm, Nat.mod_mul, littleEndian, ofLittleEndian, ih,
      UInt8.toNat_ofNat']

/-- A number that fits its width reads back. -/
theorem ofLittleEndian_littleEndian {width n : Nat} (h : n < 256 ^ width) :
    ofLittleEndian (littleEndian width n) = n := by
  rw [ofLittleEndian_littleEndian_mod, Nat.mod_eq_of_lt h]

/-- Taking as many bytes as were put in front gives those bytes. -/
@[simp] theorem take?_append (front rest : List UInt8) :
    take? front.length (front ++ rest) = some (front, rest) := by
  simp [take?]

end Stored

end Eligibility
