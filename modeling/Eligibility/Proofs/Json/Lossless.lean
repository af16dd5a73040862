import Eligibility.Json.Decode
import Eligibility.Json.Encode
import Eligibility.Proofs.Except

/-!
# What is written as JSON is read back or refused

JSON has a form for every text and for every finite number, and none for the others: an infinity or
a NaN is written as `null`, which is not a value.  So an expression is read back as it is, down to
the signs of zeros, or it is refused; nothing else ever comes of what was written for it.

## Main definitions

* `Value.Finite`, `Expr.FiniteNumbers` : the values and the expressions that JSON has a form for.

## Main results

* `Json.part_of_lookup`, `Json.exists_lookup_of_part` : a part of an object is read from what its
  key holds.
* `Json.item_eq_ok_iff_part` : an item of an array is a part that is there.
* `Limits.ofJson_toJson` : limits are read back.
* `Expr.readJson_toJson_eq_ok_iff` : **an expression is read back exactly if all its numbers are
  finite, and nothing else is read.**
-/

namespace Eligibility

/-! ### What has a form -/

/-- A value that JSON has a form for. -/
def Value.Finite : Value → Prop
  | number x => x.isFinite = true
  | text _ => True

/-- An expression that JSON has a form for: all its numbers are finite. -/
def Expr.FiniteNumbers : Expr → Prop
  | compare _ _ literal => literal.Finite
  | and l r => l.FiniteNumbers ∧ r.FiniteNumbers
  | or l r => l.FiniteNumbers ∧ r.FiniteNumbers
  | not e => e.FiniteNumbers

/-! ### Parts of objects -/

namespace Json

variable {α β : Type} {fields : List (String × β)} {key : String} {b : β}
  {read : β → Except JsonError α}

theorem part_of_lookup (h : fields.lookup key = some b) :
    part fields key read = (read b).map some := by
  rw [part, h]

theorem part_of_lookup_none (h : fields.lookup key = none) : part fields key read = .ok none := by
  rw [part, h]

/-- A part that was read is what its key holds. -/
theorem exists_lookup_of_part {a : α} (h : part fields key read = .ok (some a)) :
    ∃ b, fields.lookup key = some b ∧ read b = .ok a := by
  unfold part at h
  split at h
  · obtain ⟨a', hread, ha⟩ := Except.map_eq_ok_iff.1 h
    exact ⟨_, ‹_›, hread.trans (congrArg Except.ok (Option.some.inj ha))⟩
  · cases h

theorem eq_some_of_present {a? : Option α} {a : α} (h : present key a? = .ok a) :
    a? = some a := by
  cases a? with
  | none => cases h
  | some a' => rw [Except.ok.inj h]

/-- An item is a part that is there. -/
theorem item_eq_ok_iff_part {a : α} :
    item fields key read = .ok a ↔ part fields key read = .ok (some a) := by
  constructor
  · intro h
    obtain ⟨a?, hpart, h⟩ := Except.bind_eq_ok_iff.1 h
    cases a? with
    | none => cases h
    | some a' => rw [hpart, Except.ok.inj h]
  · intro h
    rw [item, h]
    rfl

end Json

/-! ### Values and limits -/

theorem Value.ofJson_toJson_eq_ok_iff {v w : Value} :
    ofJson v.toJson = .ok w ↔ v.Finite ∧ w = v := by
  cases v with
  | number x =>
    show ofJson (Json.ofNumber x) = .ok w ↔ x.isFinite = true ∧ w = number x
    unfold Json.ofNumber
    split
    · simp [ofJson, *, eq_comm]
    · simp [ofJson, *]
  | text s => simp [toJson, ofJson, Finite, eq_comm]

theorem Json.toBound_toNat (n : UInt64) : toBound (.int n.toNat) = .ok n := by
  have hsize : (n.toNat : Int) < UInt64.size := Int.ofNat_lt.2 n.toNat_lt_size
  rw [toBound, if_neg (by omega), if_pos hsize, Int.toNat_natCast, UInt64.ofNat_toNat]

/-- Limits are read back. -/
theorem Limits.ofJson_toJson (l : Limits) : ofJson l.toJson = .ok l := by
  have hbound : ∀ {fields : List (String × Json)} {key : String} {n : UInt64},
      fields.lookup key = some (.int n.toNat) →
        Json.part fields key Json.toBound = .ok (some n) := by
    intro fields key n hkey
    rw [Json.part_of_lookup hkey, Json.toBound_toNat]
    rfl
  rw [toJson, ofJson]
  refine Except.bind_eq_ok_iff.2 ⟨some l.maxDepth, hbound rfl, ?_⟩
  exact Except.bind_eq_ok_iff.2 ⟨some l.maxHeight, hbound rfl, rfl⟩

/-! ### Expressions -/

namespace Expr

variable {inner : Bool}

/-- What is written for an object of a form is read by that form. -/
theorem readJson_object (form : Form) (fields : List (String × Json)) :
    readJson inner (.object (("type", .string form.name) :: fields)) =
      ofFields (("type", .string form.name) :: fields)
        (operandsOfJson (("type", .string form.name) :: fields)) form := by
  rw [readJson]
  simp [Json.present, Json.toForm, Json.known, bind, Except.bind]

theorem readJson_toJson_compare (f : String) (op : CompareOp) (v : Value) :
    readJson inner (compare f op v).toJson =
      do return compare f op (← Value.ofJson v.toJson) := by
  rw [toJson, readJson_object]
  cases hv : Value.ofJson v.toJson <;>
    simp [ofFields, Json.part, Json.present, Json.asString, Json.toWord, Json.known,
      CompareOp.toJson, List.lookup_cons, Except.map, bind, Except.bind, pure, Except.pure, hv]

theorem operandPair_cons (form : Json) (left right : Except JsonError Expr) :
    operandPair [("type", readJson true form), ("left", left), ("right", right)] =
      do return (← left, ← right) := by
  cases left <;> cases right <;>
    simp [operandPair, Json.part, Json.present, List.lookup_cons, Except.map, bind, Except.bind,
      pure, Except.pure]

/-- Both connectives are read from their operands, the left one first. -/
theorem readJson_toJson_join (k : Connective) (l r : Expr) :
    readJson inner (k.join l r).toJson =
      do return k.join (← readJson true l.toJson) (← readJson true r.toJson) := by
  cases k with
  | and =>
    rw [Connective.join, toJson, readJson_object, ofFields]
    simp only [operandsOfJson, operandPair_cons, bind_assoc, pure_bind]
    rfl
  | or =>
    rw [Connective.join, toJson, readJson_object, ofFields]
    simp only [operandsOfJson, operandPair_cons, bind_assoc, pure_bind]
    rfl

theorem readJson_toJson_not (e : Expr) :
    readJson inner (not e).toJson = do return not (← readJson true e.toJson) := by
  rw [toJson, readJson_object, ofFields]
  cases he : readJson true e.toJson <;>
    simp [operandsOfJson, Json.part, Json.present, List.lookup_cons, Except.map, bind, Except.bind,
      pure, Except.pure, he]

/-- A chain is read back if its operands are. -/
theorem readJson_toJson_join_eq_ok_iff {k : Connective} {l r e' : Expr}
    (hl : ∀ {l'}, readJson true l.toJson = .ok l' ↔ l.FiniteNumbers ∧ l' = l)
    (hr : ∀ {r'}, readJson true r.toJson = .ok r' ↔ r.FiniteNumbers ∧ r' = r) :
    readJson inner (k.join l r).toJson = .ok e' ↔
      (l.FiniteNumbers ∧ r.FiniteNumbers) ∧ e' = k.join l r := by
  rw [readJson_toJson_join]
  constructor
  · intro h
    obtain ⟨l', hl', hrest⟩ := Except.bind_eq_ok_iff.1 h
    obtain ⟨r', hr', hwhole⟩ := Except.bind_eq_ok_iff.1 hrest
    obtain ⟨hleft, rfl⟩ := hl.1 hl'
    obtain ⟨hright, rfl⟩ := hr.1 hr'
    exact ⟨⟨hleft, hright⟩, (Except.ok.inj hwhole).symm⟩
  · rintro ⟨⟨hleft, hright⟩, rfl⟩
    rw [hl.2 ⟨hleft, rfl⟩, hr.2 ⟨hright, rfl⟩]
    rfl

/-- **An expression is read back exactly if all its numbers are finite, and nothing else is
read.** -/
theorem readJson_toJson_eq_ok_iff {e e' : Expr} :
    readJson inner e.toJson = .ok e' ↔ e.FiniteNumbers ∧ e' = e := by
  induction e generalizing inner e' with
  | compare f op v =>
    rw [readJson_toJson_compare, Except.bind_eq_ok_iff]
    simp only [Value.ofJson_toJson_eq_ok_iff]
    constructor
    · rintro ⟨w, ⟨hfinite, rfl⟩, h⟩
      exact ⟨hfinite, (Except.ok.inj h).symm⟩
    · rintro ⟨hfinite, rfl⟩
      exact ⟨v, ⟨hfinite, rfl⟩, rfl⟩
  | and l r hl hr => exact readJson_toJson_join_eq_ok_iff (k := .and) hl hr
  | or l r hl hr => exact readJson_toJson_join_eq_ok_iff (k := .or) hl hr
  | not e he =>
    rw [readJson_toJson_not, Except.bind_eq_ok_iff]
    simp only [he]
    constructor
    · rintro ⟨e'', ⟨hfinite, rfl⟩, h⟩
      exact ⟨hfinite, (Except.ok.inj h).symm⟩
    · rintro ⟨hfinite, rfl⟩
      exact ⟨e, ⟨hfinite, rfl⟩, rfl⟩

end Expr

end Eligibility
