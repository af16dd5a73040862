import Eligibility.Proofs.Json.Lossless
import Mathlib.Logic.Relation

/-!
# One expression, many JSON values

An expression is read by the keys of its objects: one that names the form and the few that the form
asks for.  So the order of the keys does not matter, and neither does what stands under any other
key.  The one exception is an object in place of an operator, which says all by having one key.

An array in place of an object has no keys, and each of its items counts.  It is read as if the
items stood under the keys that the form asks for, and the objects among its operands are as free as
any.

## Main definitions

* `Form.plainKeys`, `Form.operandKeys` : the keys that a form asks for.
* `Expr.MadeOf` : the expression that the parts of an object make.
* `Expr.Shows` : the form that an object or an array names, and the parts in it under their keys.
* `Expr.Restyled` : one change of an expression's value that does not touch what it says.
* `Json.FiniteNumbers` : a value whose numbers are finite, as all numbers in a JSON text are.

## Main results

* `Expr.readJson_eq_ok_iff` : when a value is read as an expression, and as which.
* `Expr.Restyled.readJson_eq` : a restyled value is read as the same expression.
* `Expr.finiteNumbers_of_readJson` : finite numbers are read as finite numbers.
* `Expr.ofJson_lossless` : **expressions are read back as they are or refused**, however the value
  is styled.
* `Expr.not_ofJson_of_annotated_operator` : an operator that is an object has no room for more keys.
-/

namespace Eligibility

/-! ### Looking up keys -/

section Lookup

variable {β : Type} {fields fields' before after : List (String × β)} {key key' : String} {b b' : β}

theorem lookup_eq_some_iff_mem (h : (fields.map Prod.fst).Nodup) :
    fields.lookup key = some b ↔ (key, b) ∈ fields := by
  induction fields with
  | nil => simp
  | cons entry fields ih =>
    obtain ⟨key', b'⟩ := entry
    rw [List.map_cons, List.nodup_cons] at h
    rw [List.lookup_cons, List.mem_cons, ← ih h.2]
    by_cases hkey : key = key'
    · subst hkey
      have hnone : fields.lookup key ≠ some b := by
        intro hlookup
        exact h.1 (List.mem_map.2 ⟨(key, b), (ih h.2).1 hlookup, rfl⟩)
      simp [hnone, eq_comm]
    · simp [beq_false_of_ne hkey, hkey]

/-- If no key comes twice, the order of the keys does not matter. -/
theorem lookup_of_perm (hnodup : (fields.map Prod.fst).Nodup) (hperm : fields.Perm fields')
    (h : fields.lookup key = some b) : fields'.lookup key = some b := by
  have hnodup' : (fields'.map Prod.fst).Nodup := (hperm.map Prod.fst).nodup_iff.1 hnodup
  exact (lookup_eq_some_iff_mem hnodup').2 (hperm.mem_iff.1 ((lookup_eq_some_iff_mem hnodup).1 h))

/-- A key that is new hides no other. -/
theorem lookup_cons_of_lookup_eq_none (hnew : fields.lookup key = none)
    (h : fields.lookup key' = some b) : ((key, b') :: fields).lookup key' = some b := by
  have hne : key' ≠ key := by
    rintro rfl
    rw [hnew] at h
    cases h
  rw [List.lookup_cons, beq_false_of_ne hne]
  exact h

theorem lookup_replace_of_ne (hne : key' ≠ key) :
    (before ++ (key, b') :: after).lookup key' = (before ++ (key, b) :: after).lookup key' := by
  rw [List.lookup_append, List.lookup_append, List.lookup_cons, List.lookup_cons,
    beq_false_of_ne hne]

end Lookup

/-! ### The parts of an object -/

namespace Json

variable {α : Type} {fields : List (String × Json)} {key : String}
  {read : Json → Except JsonError α} {a : α}

/-- A key of an object holds what is read as this. -/
def Holds (fields : List (String × Json)) (key : String) (read : Json → Except JsonError α)
    (a : α) : Prop :=
  ∃ value, fields.lookup key = some value ∧ read value = .ok a

/-- What is read is determined by what the key holds. -/
theorem Holds.unique {a' : α} (h : Holds fields key read a) (h' : Holds fields key read a') :
    a = a' := by
  obtain ⟨value, hvalue, hread⟩ := h
  obtain ⟨value', hvalue', hread'⟩ := h'
  obtain rfl := Option.some.inj (hvalue.symm.trans hvalue')
  exact Except.ok.inj (hread.symm.trans hread')

theorem part_eq_ok_some_iff : part fields key read = .ok (some a) ↔ Holds fields key read a := by
  constructor
  · exact exists_lookup_of_part
  · rintro ⟨value, hvalue, hread⟩
    rw [part_of_lookup hvalue, hread]
    rfl

theorem item_eq_ok_iff : item fields key read = .ok a ↔ Holds fields key read a :=
  item_eq_ok_iff_part.trans part_eq_ok_some_iff

theorem fits_eq_ok_iff {β : Type} {keys : List String} {items : List β} :
    fits keys items = .ok () ↔ items.length ≤ keys.length := by
  simp [fits]

end Json

/-- The keys that a form asks for, except for those of its operands. -/
def Form.plainKeys : Form → List String
  | compare => ["type", "field", "op", "literal"]
  | and | or | not => ["type"]

/-- The keys for the operands of a form. -/
def Form.operandKeys : Form → List String
  | compare => []
  | and | or => ["left", "right"]
  | not => ["operand"]

theorem Form.type_mem_plainKeys (form : Form) : "type" ∈ form.plainKeys := by
  cases form <;> decide

/-- No key is asked for as an operand and as something else. -/
theorem Form.notMem_plainKeys (form : Form) : ∀ key ∈ form.operandKeys, key ∉ form.plainKeys := by
  cases form <;> decide

/-- All parts of a form are operands, unless it is a comparison. -/
theorem Form.keys_eq_operandKeys {form : Form} (h : form ≠ compare) :
    form.keys = form.operandKeys := by
  cases form with
  | compare => exact absurd rfl h
  | and | or | not => rfl

namespace Expr

variable {fields fields' : List (String × Json)} {inner : Bool} {form : Form} {e l r : Expr}
  {type : Json} {items : List Json}

/-- The expression that the parts of an object of a form make. -/
inductive MadeOf (fields : List (String × Json)) : Form → Expr → Prop
  /-- A comparison of its three parts. -/
  | compare {field : String} {op : CompareOp} {literal : Value} :
    Json.Holds fields "field" Json.asString field →
    Json.Holds fields "op" (Json.toWord true CompareOp.ofSymbol?) op →
    Json.Holds fields "literal" Value.ofJson literal →
      MadeOf fields .compare (.compare field op literal)
  /-- A conjunction of its two operands. -/
  | and {l r : Expr} : Json.Holds fields "left" (readJson true) l →
    Json.Holds fields "right" (readJson true) r → MadeOf fields .and (.and l r)
  /-- A disjunction of its two operands. -/
  | or {l r : Expr} : Json.Holds fields "left" (readJson true) l →
    Json.Holds fields "right" (readJson true) r → MadeOf fields .or (.or l r)
  /-- A negation of its operand. -/
  | not {e : Expr} : Json.Holds fields "operand" (readJson true) e → MadeOf fields .not (.not e)

theorem lookup_operandsOfJson (fields : List (String × Json)) (key : String) :
    (operandsOfJson fields).lookup key = (fields.lookup key).map (readJson true) := by
  induction fields with
  | nil => simp [operandsOfJson]
  | cons entry fields ih =>
    obtain ⟨key', value⟩ := entry
    rw [operandsOfJson, List.lookup_cons, List.lookup_cons]
    cases key == key' with
    | true => rfl
    | false => exact ih

theorem part_operandsOfJson_eq_ok_some_iff {key : String} :
    Json.part (operandsOfJson fields) key id = .ok (some e) ↔
      Json.Holds fields key (readJson true) e := by
  rw [← Json.part_eq_ok_some_iff, Json.part, Json.part, lookup_operandsOfJson]
  cases fields.lookup key <;> rfl

theorem operandPair_eq_ok_iff : operandPair (operandsOfJson fields) = .ok (l, r) ↔
    Json.Holds fields "left" (readJson true) l ∧ Json.Holds fields "right" (readJson true) r := by
  rw [← part_operandsOfJson_eq_ok_some_iff, ← part_operandsOfJson_eq_ok_some_iff]
  constructor
  · intro h
    obtain ⟨left?, hleft, h⟩ := Except.bind_eq_ok_iff.1 h
    obtain ⟨right?, hright, h⟩ := Except.bind_eq_ok_iff.1 h
    obtain ⟨left, hl, h⟩ := Except.bind_eq_ok_iff.1 h
    obtain ⟨right, hr, h⟩ := Except.bind_eq_ok_iff.1 h
    obtain ⟨rfl, rfl⟩ := Prod.mk.inj (Except.ok.inj h)
    rw [Json.eq_some_of_present hl] at hleft
    rw [Json.eq_some_of_present hr] at hright
    exact ⟨hleft, hright⟩
  · rintro ⟨hleft, hright⟩
    rw [operandPair, hleft, hright]
    rfl

/-- **The parts of an object are read as the expression that they make.** -/
theorem ofFields_eq_ok_iff :
    ofFields fields (operandsOfJson fields) form = .ok e ↔ MadeOf fields form e := by
  constructor
  · intro h
    cases form with
    | compare =>
      obtain ⟨field?, hfield?, h⟩ := Except.bind_eq_ok_iff.1 h
      obtain ⟨literal?, hliteral?, h⟩ := Except.bind_eq_ok_iff.1 h
      obtain ⟨op?, hop?, h⟩ := Except.bind_eq_ok_iff.1 h
      obtain ⟨field, hfield, h⟩ := Except.bind_eq_ok_iff.1 h
      obtain ⟨op, hop, h⟩ := Except.bind_eq_ok_iff.1 h
      obtain ⟨literal, hliteral, h⟩ := Except.bind_eq_ok_iff.1 h
      obtain rfl := Except.ok.inj h
      rw [Json.eq_some_of_present hfield] at hfield?
      rw [Json.eq_some_of_present hop] at hop?
      rw [Json.eq_some_of_present hliteral] at hliteral?
      exact .compare (Json.part_eq_ok_some_iff.1 hfield?) (Json.part_eq_ok_some_iff.1 hop?)
        (Json.part_eq_ok_some_iff.1 hliteral?)
    | and =>
      obtain ⟨⟨l, r⟩, hpair, h⟩ := Except.bind_eq_ok_iff.1 h
      obtain rfl := Except.ok.inj h
      exact .and (operandPair_eq_ok_iff.1 hpair).1 (operandPair_eq_ok_iff.1 hpair).2
    | or =>
      obtain ⟨⟨l, r⟩, hpair, h⟩ := Except.bind_eq_ok_iff.1 h
      obtain rfl := Except.ok.inj h
      exact .or (operandPair_eq_ok_iff.1 hpair).1 (operandPair_eq_ok_iff.1 hpair).2
    | not =>
      obtain ⟨operand?, hoperand?, h⟩ := Except.bind_eq_ok_iff.1 h
      obtain ⟨operand, hoperand, h⟩ := Except.bind_eq_ok_iff.1 h
      obtain rfl := Except.ok.inj h
      rw [Json.eq_some_of_present hoperand] at hoperand?
      exact .not (part_operandsOfJson_eq_ok_some_iff.1 hoperand?)
  · intro h
    cases h with
    | compare hfield hop hliteral =>
      rw [ofFields, Json.part_eq_ok_some_iff.2 hfield, Json.part_eq_ok_some_iff.2 hop,
        Json.part_eq_ok_some_iff.2 hliteral]
      rfl
    | and hl hr | or hl hr =>
      rw [ofFields, operandPair_eq_ok_iff.2 ⟨hl, hr⟩]
      rfl
    | not he =>
      rw [ofFields, part_operandsOfJson_eq_ok_some_iff.2 he]
      rfl

/-- The items under some keys say as expressions what is under the keys. -/
theorem zip_operandsOfItems (keys : List String) (items : List Json) :
    keys.zip (operandsOfItems items) = operandsOfJson (keys.zip items) := by
  induction items generalizing keys with
  | nil => simp [operandsOfItems, operandsOfJson]
  | cons item items ih =>
    cases keys with
    | nil => rfl
    | cons key keys =>
      rw [operandsOfItems, List.zip_cons_cons, List.zip_cons_cons, operandsOfJson, ih]

theorem operandItem_eq_ok_iff {key : String} :
    Json.item (operandsOfJson fields) key id = .ok e ↔ Json.Holds fields key (readJson true) e :=
  Json.item_eq_ok_iff_part.trans part_operandsOfJson_eq_ok_some_iff

theorem operandItems_eq_ok_iff : operandItems (operandsOfJson fields) = .ok (l, r) ↔
    Json.Holds fields "left" (readJson true) l ∧ Json.Holds fields "right" (readJson true) r := by
  rw [← operandItem_eq_ok_iff, ← operandItem_eq_ok_iff]
  constructor
  · intro h
    obtain ⟨left, hl, h⟩ := Except.bind_eq_ok_iff.1 h
    obtain ⟨right, hr, h⟩ := Except.bind_eq_ok_iff.1 h
    obtain ⟨rfl, rfl⟩ := Prod.mk.inj (Except.ok.inj h)
    exact ⟨hl, hr⟩
  · rintro ⟨hl, hr⟩
    rw [operandItems, hl, hr]
    rfl

/-- **The items of an array are read as the expression that they make.** -/
theorem ofItems_eq_ok_iff :
    ofItems fields (operandsOfJson fields) form = .ok e ↔ MadeOf fields form e := by
  constructor
  · intro h
    cases form with
    | compare =>
      obtain ⟨field, hfield, h⟩ := Except.bind_eq_ok_iff.1 h
      obtain ⟨op, hop, h⟩ := Except.bind_eq_ok_iff.1 h
      obtain ⟨literal, hliteral, h⟩ := Except.bind_eq_ok_iff.1 h
      obtain rfl := Except.ok.inj h
      exact .compare (Json.item_eq_ok_iff.1 hfield) (Json.item_eq_ok_iff.1 hop)
        (Json.item_eq_ok_iff.1 hliteral)
    | and =>
      obtain ⟨⟨l, r⟩, hpair, h⟩ := Except.bind_eq_ok_iff.1 h
      obtain rfl := Except.ok.inj h
      exact .and (operandItems_eq_ok_iff.1 hpair).1 (operandItems_eq_ok_iff.1 hpair).2
    | or =>
      obtain ⟨⟨l, r⟩, hpair, h⟩ := Except.bind_eq_ok_iff.1 h
      obtain rfl := Except.ok.inj h
      exact .or (operandItems_eq_ok_iff.1 hpair).1 (operandItems_eq_ok_iff.1 hpair).2
    | not =>
      obtain ⟨operand, hoperand, h⟩ := Except.bind_eq_ok_iff.1 h
      obtain rfl := Except.ok.inj h
      exact .not (operandItem_eq_ok_iff.1 hoperand)
  · intro h
    cases h with
    | compare hfield hop hliteral =>
      rw [ofItems, Json.item_eq_ok_iff.2 hfield, Json.item_eq_ok_iff.2 hop,
        Json.item_eq_ok_iff.2 hliteral]
      rfl
    | and hl hr | or hl hr =>
      rw [ofItems, operandItems_eq_ok_iff.2 ⟨hl, hr⟩]
      rfl
    | not he =>
      rw [ofItems, operandItem_eq_ok_iff.2 he]
      rfl

/-- A value shows the form of an expression and its parts under their keys.  An object names the
form under a key of its own, and an array in the first place. -/
inductive Shows (inner : Bool) : Json → Form → List (String × Json) → Prop
  /-- The fields of an object. -/
  | object {fields : List (String × Json)} {form : Form} :
    Json.Holds fields "type" (Json.toForm inner) form → Shows inner (.object fields) form fields
  /-- The items of an array, which has none beyond those of the form. -/
  | array {type : Json} {items : List Json} {form : Form} :
    type.toForm inner = .ok form → items.length ≤ form.keys.length →
      Shows inner (.array (type :: items)) form (form.keys.zip items)

/-- **When a value is read as an expression**: it shows a form and the parts that make the
expression. -/
theorem readJson_eq_ok_iff {j : Json} : readJson inner j = .ok e ↔
    ∃ form fields, Shows inner j form fields ∧ MadeOf fields form e := by
  constructor
  · intro h
    cases j with
    | object fields =>
      rw [readJson] at h
      obtain ⟨type, htype, h⟩ := Except.bind_eq_ok_iff.1 h
      obtain ⟨form, hform, h⟩ := Except.bind_eq_ok_iff.1 h
      exact ⟨form, fields, .object ⟨type, Json.eq_some_of_present htype, hform⟩,
        ofFields_eq_ok_iff.1 h⟩
    | array items =>
      cases items with
      | nil => simp [readJson] at h
      | cons type items =>
        rw [readJson] at h
        obtain ⟨form, hform, h⟩ := Except.bind_eq_ok_iff.1 h
        obtain ⟨e', hmade, h⟩ := Except.bind_eq_ok_iff.1 h
        obtain ⟨_, hfits, h⟩ := Except.bind_eq_ok_iff.1 h
        obtain rfl := Except.ok.inj h
        rw [zip_operandsOfItems] at hmade
        exact ⟨form, _, .array hform (Json.fits_eq_ok_iff.1 hfits), ofItems_eq_ok_iff.1 hmade⟩
    | null | bool | int | number | string => simp [readJson] at h
  · rintro ⟨form, fields, hshows, hmade⟩
    cases hshows with
    | object hholds =>
      obtain ⟨type, htype, hform⟩ := hholds
      rw [readJson, htype]
      exact Except.bind_eq_ok_iff.2 ⟨type, rfl, Except.bind_eq_ok_iff.2
        ⟨form, hform, ofFields_eq_ok_iff.2 hmade⟩⟩
    | array hform hfits =>
      rw [readJson, hform, Except.ok_bind, zip_operandsOfItems, ofItems_eq_ok_iff.2 hmade,
        Except.ok_bind, Json.fits_eq_ok_iff.2 hfits]
      rfl

/-! ### Restyling -/

/-- One change of an expression's value that does not touch what it says.  It may lie in the object
of the expression itself, or in the one of an operand at any depth, be it in objects or in
arrays. -/
inductive Restyled : Json → Json → Prop
  /-- The keys, of which none comes twice, in another order. -/
  | reorder {fields fields' : List (String × Json)} : (fields.map Prod.fst).Nodup →
    fields.Perm fields' → Restyled (.object fields) (.object fields')
  /-- A key that was not there, with any value. -/
  | add {fields : List (String × Json)} {key : String} (value : Json) :
    fields.lookup key = none → Restyled (.object fields) (.object ((key, value) :: fields))
  /-- Any other value for a key that the form does not ask for. -/
  | ignored {form : Form} {before after : List (String × Json)} {key : String} {value : Json}
    (value' : Json) : Json.Holds (before ++ (key, value) :: after) "type" (Json.toForm true) form →
    key ∉ form.plainKeys → key ∉ form.operandKeys →
      Restyled (.object (before ++ (key, value) :: after))
        (.object (before ++ (key, value') :: after))
  /-- A change of an operand in an object. -/
  | operand {form : Form} {before after : List (String × Json)} {key : String}
    {value value' : Json} :
    Json.Holds (before ++ (key, value) :: after) "type" (Json.toForm true) form →
    key ∈ form.operandKeys → Restyled value value' →
      Restyled (.object (before ++ (key, value) :: after))
        (.object (before ++ (key, value') :: after))
  /-- A change of an operand in an array.  All items behind the form are operands, unless it is the
  one of a comparison. -/
  | item {type : Json} {form : Form} {before after : List Json} {value value' : Json} :
    type.toForm true = .ok form → form ≠ .compare → Restyled value value' →
      Restyled (.array (type :: (before ++ value :: after)))
        (.array (type :: (before ++ value' :: after)))

/-- What an object holds under the keys that a form asks for is there in another object, or is read
as the same expression if it is an operand. -/
structure Keeps (form : Form) (fields fields' : List (String × Json)) : Prop where
  plain : ∀ key ∈ form.plainKeys, ∀ value, fields.lookup key = some value →
    fields'.lookup key = some value
  operand : ∀ key ∈ form.operandKeys, ∀ e, Json.Holds fields key (readJson true) e →
    Json.Holds fields' key (readJson true) e

/-- An object that keeps all that another one holds keeps what a form asks for. -/
theorem keeps_of_lookup (form : Form) (h : ∀ key value, fields.lookup key = some value →
    fields'.lookup key = some value) : Keeps form fields fields' where
  plain key _ := h key
  operand key _ _ := fun ⟨value, hvalue, hread⟩ => ⟨value, h key value hvalue, hread⟩

/-- A value can be replaced if the form does not ask for it, or as an operand that is read as the
same expression. -/
theorem keeps_replace {before after : List (String × Json)} {key : String} {value value' : Json}
    (hplain : key ∉ form.plainKeys)
    (hoperand : key ∈ form.operandKeys → ∀ e, readJson true value = .ok e →
      readJson true value' = .ok e) :
    Keeps form (before ++ (key, value) :: after) (before ++ (key, value') :: after) where
  plain key' hkey' found hfound := by
    have hne : key' ≠ key := ne_of_mem_of_not_mem hkey' hplain
    rwa [lookup_replace_of_ne hne]
  operand key' hkey' e := by
    rintro ⟨found, hfound, hread⟩
    by_cases hne : key' = key
    · subst hne
      rw [List.lookup_append, List.lookup_cons_self] at hfound
      unfold Json.Holds
      rw [List.lookup_append, List.lookup_cons_self]
      -- an earlier entry for the key would hide the one that is replaced
      cases hbefore : before.lookup key' with
      | none =>
        rw [hbefore] at hfound
        obtain rfl := Option.some.inj hfound
        exact ⟨value', rfl, hoperand hkey' e hread⟩
      | some first =>
        rw [hbefore] at hfound
        exact ⟨found, hfound, hread⟩
    · exact ⟨found, (lookup_replace_of_ne hne).trans hfound, hread⟩

theorem Keeps.madeOf (h : Keeps form fields fields') (hmade : MadeOf fields form e) :
    MadeOf fields' form e := by
  have hplain : ∀ {α : Type} {key : String} {read : Json → Except JsonError α} {a : α},
      key ∈ form.plainKeys → Json.Holds fields key read a → Json.Holds fields' key read a :=
    fun hkey ⟨value, hvalue, hread⟩ => ⟨value, h.plain _ hkey value hvalue, hread⟩
  cases hmade with
  | compare hfield hop hliteral =>
    exact .compare (hplain (by decide) hfield) (hplain (by decide) hop)
      (hplain (by decide) hliteral)
  | and hl hr => exact .and (h.operand _ (by decide) _ hl) (h.operand _ (by decide) _ hr)
  | or hl hr => exact .or (h.operand _ (by decide) _ hl) (h.operand _ (by decide) _ hr)
  | not he => exact .not (h.operand _ (by decide) _ he)

/-- A form that can stand by itself can stand inside another expression. -/
theorem toForm_true_of_toForm {j : Json} (h : j.toForm inner = .ok form) :
    j.toForm true = .ok form := by
  cases j with
  | string word => exact h
  | int n =>
    cases inner with
    | true => exact h
    | false => simp [Json.toForm] at h
  | null | bool | number | array | object => cases h

/-- An object that keeps what its form asks for is read as the same expression. -/
theorem readJson_object_of_keeps (hread : readJson inner (.object fields) = .ok e)
    (h : ∀ form, Json.Holds fields "type" (Json.toForm true) form → Keeps form fields fields') :
    readJson inner (.object fields') = .ok e := by
  obtain ⟨form, _, hshows, hmade⟩ := readJson_eq_ok_iff.1 hread
  cases hshows with
  | object hholds =>
    obtain ⟨type, htype, hform⟩ := hholds
    have hkeeps := h form ⟨type, htype, toForm_true_of_toForm hform⟩
    have htype' := hkeeps.plain "type" form.type_mem_plainKeys type htype
    exact readJson_eq_ok_iff.2 ⟨form, fields', .object ⟨type, htype', hform⟩, hkeeps.madeOf hmade⟩

/-- An item of an array stands under the same key whatever it is. -/
theorem exists_zip_eq {β : Type} {keys : List String} {before after : List β}
    (h : before.length < keys.length) : ∃ key ∈ keys, ∃ front back, ∀ value : β,
      keys.zip (before ++ value :: after) = front ++ (key, value) :: back := by
  induction before generalizing keys with
  | nil =>
    obtain ⟨key, keys, rfl⟩ := List.exists_cons_of_length_pos h
    exact ⟨key, List.mem_cons_self, [], keys.zip after, fun value => rfl⟩
  | cons item before ih =>
    obtain ⟨key, keys, rfl⟩ := List.exists_cons_of_length_pos (Nat.zero_lt_of_lt h)
    obtain ⟨key', hkey', front, back, hzip⟩ := ih (Nat.lt_of_succ_lt_succ h)
    refine ⟨key', List.mem_cons_of_mem key hkey', (key, item) :: front, back, fun value => ?_⟩
    rw [List.cons_append, List.zip_cons_cons, hzip, List.cons_append]

/-- An array with another operand that is read alike is read as the same expression. -/
theorem readJson_array_of_item {before after : List Json} {value value' : Json}
    (hread : readJson inner (.array (type :: (before ++ value :: after))) = .ok e)
    (hform : type.toForm true = .ok form) (hne : form ≠ .compare)
    (h : ∀ e, readJson true value = .ok e → readJson true value' = .ok e) :
    readJson inner (.array (type :: (before ++ value' :: after))) = .ok e := by
  obtain ⟨form', _, hshows, hmade⟩ := readJson_eq_ok_iff.1 hread
  cases hshows with
  | array hform' hfits =>
    obtain rfl := Except.ok.inj (hform.symm.trans (toForm_true_of_toForm hform'))
    have hfits' : (before ++ value' :: after).length ≤ form.keys.length := by
      simpa using hfits
    have hplace : before.length < form.keys.length := by
      simp only [List.length_append, List.length_cons] at hfits
      omega
    obtain ⟨key, hkey, front, back, hzip⟩ := exists_zip_eq hplace
    rw [Form.keys_eq_operandKeys hne] at hkey
    have hkeeps : Keeps form (front ++ (key, value) :: back) (front ++ (key, value') :: back) :=
      keeps_replace (form.notMem_plainKeys key hkey) fun _ => h
    rw [← hzip, ← hzip] at hkeeps
    exact readJson_eq_ok_iff.2 ⟨form, _, .array hform' hfits', hkeeps.madeOf hmade⟩

/-- **A restyled value is read as the same expression.** -/
theorem Restyled.readJson_eq {j j' : Json} (h : Restyled j j')
    (hread : readJson inner j = .ok e) : readJson inner j' = .ok e := by
  induction h generalizing inner e with
  | reorder hnodup hperm =>
    refine readJson_object_of_keeps hread fun form _ => keeps_of_lookup form fun _ _ hvalue => ?_
    exact lookup_of_perm hnodup hperm hvalue
  | add value hnew =>
    refine readJson_object_of_keeps hread fun form _ => keeps_of_lookup form fun _ _ hvalue => ?_
    exact lookup_cons_of_lookup_eq_none hnew hvalue
  | ignored value' hform hplain hoperand =>
    refine readJson_object_of_keeps hread fun form' hform' => ?_
    obtain rfl := hform.unique hform'
    exact keeps_replace hplain fun hkey => absurd hkey hoperand
  | @operand form before after key value value' hform hkey _ ih =>
    refine readJson_object_of_keeps hread fun form' hform' => ?_
    obtain rfl := hform.unique hform'
    exact keeps_replace (form.notMem_plainKeys key hkey) fun _ _ hvalue => ih hvalue
  | item hform hne _ ih => exact readJson_array_of_item hread hform hne fun _ hvalue => ih hvalue

/-- **A value that is restyled in any number of places is read as the same expression.** -/
theorem ofJson_of_restyled {j j' : Json} (h : Relation.ReflTransGen Restyled j j')
    (hread : ofJson j = .ok e) : ofJson j' = .ok e := by
  induction h with
  | refl => exact hread
  | tail _ hstep ih => exact hstep.readJson_eq ih

end Expr

/-! ### Finite numbers -/

/-- All numbers in a value are finite.  A JSON text has no form for any others. -/
inductive Json.FiniteNumbers : Json → Prop
  /-- No number. -/
  | null : FiniteNumbers .null
  /-- No number. -/
  | bool (b : Bool) : FiniteNumbers (.bool b)
  /-- An integer within the range of the numbers. -/
  | int {n : Int} : (Binary64.ofInt n).isFinite = true → FiniteNumbers (.int n)
  /-- A finite number. -/
  | number {x : Binary64} : x.isFinite = true → FiniteNumbers (.number x)
  /-- No number. -/
  | string (s : String) : FiniteNumbers (.string s)
  /-- Finite numbers in all items. -/
  | array {items : List Json} : (∀ item ∈ items, FiniteNumbers item) → FiniteNumbers (.array items)
  /-- Finite numbers in all fields. -/
  | object {fields : List (String × Json)} : (∀ field ∈ fields, FiniteNumbers field.2) →
    FiniteNumbers (.object fields)

/-- The parts that a value with finite numbers shows have finite numbers. -/
theorem Expr.Shows.finiteNumbers {inner : Bool} {j : Json} {form : Form}
    {fields : List (String × Json)} (h : Shows inner j form fields) (hj : j.FiniteNumbers) :
    (Json.object fields).FiniteNumbers := by
  cases h with
  | object _ => exact hj
  | array _ _ =>
    cases hj with
    | array hitems =>
      refine .object fun field hfield => hitems field.2 (List.mem_cons_of_mem _ ?_)
      exact (List.of_mem_zip hfield).2

/-- What is read from a part of an object comes from a value with finite numbers. -/
theorem Json.Holds.exists_finite {α : Type} {fields : List (String × Json)} {key : String}
    {read : Json → Except JsonError α} {a : α} (h : Holds fields key read a)
    (hj : FiniteNumbers (.object fields)) : ∃ value, FiniteNumbers value ∧ read value = .ok a := by
  obtain ⟨value, hvalue, hread⟩ := h
  obtain ⟨before, after, rfl, -⟩ := List.lookup_eq_some_iff.1 hvalue
  cases hj with
  | object hfields => exact ⟨value, hfields (key, value) (by simp), hread⟩

theorem Value.finite_of_ofJson {j : Json} {v : Value} (hj : j.FiniteNumbers)
    (h : ofJson j = .ok v) : v.Finite := by
  cases hj with
  | int hn =>
    obtain rfl := Except.ok.inj h
    exact hn
  | number hx =>
    obtain rfl := Except.ok.inj h
    exact hx
  | string s =>
    obtain rfl := Except.ok.inj h
    trivial
  | null | bool | array | object => cases h

namespace Expr

/-- An expression that is read from finite numbers is made of parts with finite numbers. -/
theorem exists_finite_of_readJson {inner : Bool} {j : Json} {e : Expr} (hj : j.FiniteNumbers)
    (h : readJson inner j = .ok e) :
    ∃ form fields, MadeOf fields form e ∧ (Json.object fields).FiniteNumbers := by
  obtain ⟨form, fields, hshows, hmade⟩ := readJson_eq_ok_iff.1 h
  exact ⟨form, fields, hmade, hshows.finiteNumbers hj⟩

/-- **Finite numbers are read as finite numbers.** -/
theorem finiteNumbers_of_readJson {inner : Bool} {j : Json} {e : Expr} (hj : j.FiniteNumbers)
    (h : readJson inner j = .ok e) : e.FiniteNumbers := by
  induction e generalizing inner j with
  | compare field op literal =>
    obtain ⟨form, fields, hmade, hfields⟩ := exists_finite_of_readJson hj h
    cases hmade with
    | compare _ _ hliteral =>
      obtain ⟨value, hvalue, hread⟩ := hliteral.exists_finite hfields
      exact Value.finite_of_ofJson hvalue hread
  | and l r hl hr =>
    obtain ⟨form, fields, hmade, hfields⟩ := exists_finite_of_readJson hj h
    cases hmade with
    | and hleft hright =>
      obtain ⟨left, hleft, hreadl⟩ := hleft.exists_finite hfields
      obtain ⟨right, hright, hreadr⟩ := hright.exists_finite hfields
      exact ⟨hl hleft hreadl, hr hright hreadr⟩
  | or l r hl hr =>
    obtain ⟨form, fields, hmade, hfields⟩ := exists_finite_of_readJson hj h
    cases hmade with
    | or hleft hright =>
      obtain ⟨left, hleft, hreadl⟩ := hleft.exists_finite hfields
      obtain ⟨right, hright, hreadr⟩ := hright.exists_finite hfields
      exact ⟨hl hleft hreadl, hr hright hreadr⟩
  | not e he =>
    obtain ⟨form, fields, hmade, hfields⟩ := exists_finite_of_readJson hj h
    cases hmade with
    | not hoperand =>
      obtain ⟨operand, hoperand, hread⟩ := hoperand.exists_finite hfields
      exact he hoperand hread

/-! ### All together -/

/-- **Expressions are read back as they are or refused.**  What is written for an expression is read
as this expression, down to the patterns of its numbers, if these are finite, and is refused if any
is not.  A value that is read as an expression is read as the same one however it is restyled, and
the expression is read back from what is written for it. -/
theorem ofJson_lossless :
    (∀ e : Expr, (e.FiniteNumbers → ofJson e.toJson = .ok e) ∧
      (¬e.FiniteNumbers → ∃ err, ofJson e.toJson = .error err)) ∧
    ∀ (j : Json) (e : Expr), ofJson j = .ok e →
      (∀ j', Relation.ReflTransGen Restyled j j' → ofJson j' = .ok e) ∧
      (j.FiniteNumbers → ofJson e.toJson = .ok e) := by
  have hback : ∀ e : Expr, e.FiniteNumbers → ofJson e.toJson = .ok e :=
    fun e he => readJson_toJson_eq_ok_iff.2 ⟨he, rfl⟩
  refine ⟨fun e => ⟨hback e, fun hinfinite => ?_⟩,
    fun j e hread => ⟨fun j' hj' => ?_, fun hj => ?_⟩⟩
  · cases h : ofJson e.toJson with
    | error err => exact ⟨err, rfl⟩
    | ok e' => exact absurd (readJson_toJson_eq_ok_iff.1 h).1 hinfinite
  · exact ofJson_of_restyled hj' hread
  · exact hback e (finiteNumbers_of_readJson hj hread)

/-- A negated conjunction that is given as an array of an object and another array.  The inner
object gives its form by the index and its operator as an object, and then there are further keys in
both objects and all keys in the opposite order. -/
theorem ofJson_lossless_of_annotated :
    let fields : List (String × Json) := [("type", .int 0), ("field", .string "a"),
      ("op", .object [("<", .null)]), ("literal", .int 1)]
    let plain : Json := .array [.string "compare", .string "a", .string "<", .int 1]
    let given : Json := .object [("type", .string "not"),
      ("operand", .array [.string "and", .object fields, plain])]
    let styled : Json := .object [("operand", .array [.string "and",
        .object (("note", .array [.null]) :: fields).reverse, plain]),
      ("type", .string "not"), ("left", .bool true)]
    let one : Binary64 := ⟨0x3FF0000000000000⟩
    let infinity : Binary64 := ⟨0x7FF0000000000000⟩
    let e (bound : Binary64) : Expr :=
      .not (.and (.compare "a" .lt (.number one)) (.compare "a" .lt (.number bound)))
    (ofJson given = .ok (e one) ∧ Relation.ReflTransGen Restyled given styled ∧
        ofJson styled = .ok (e one)) ∧
      ((e one).FiniteNumbers ∧ given.FiniteNumbers ∧ ofJson (e one).toJson = .ok (e one)) ∧
      ¬(e infinity).FiniteNumbers ∧ ∃ err, ofJson (e infinity).toJson = .error err := by
  intro fields plain given styled one infinity e
  obtain ⟨hwritten, hread⟩ := ofJson_lossless
  have hgiven : ofJson given = .ok (e one) := by decide +kernel
  have hone : one.isFinite = true := by decide
  have he : (e one).FiniteNumbers := ⟨hone, hone⟩
  have hinfinite : ¬(e infinity).FiniteNumbers := by
    rintro ⟨-, hbound⟩
    have : infinity.isFinite = true := hbound
    revert this
    decide
  have hobject : (Json.object fields).FiniteNumbers := by
    have hop : (Json.object [("<", .null)]).FiniteNumbers :=
      .object (List.forall_mem_singleton.2 .null)
    refine .object ?_
    simp only [fields, List.forall_mem_cons]
    exact ⟨.int (by decide +kernel), .string "a", hop, .int (by decide +kernel), nofun⟩
  have hplain : plain.FiniteNumbers := by
    refine .array ?_
    simp only [List.forall_mem_cons]
    exact ⟨.string "compare", .string "a", .string "<", .int (by decide +kernel), nofun⟩
  have hoperand : (Json.array [.string "and", .object fields, plain]).FiniteNumbers := by
    refine .array ?_
    simp only [List.forall_mem_cons]
    exact ⟨.string "and", hobject, hplain, nofun⟩
  have hfinite : given.FiniteNumbers := by
    refine .object ?_
    simp only [List.forall_mem_cons]
    exact ⟨.string "not", hoperand, nofun⟩
  have hform : ∀ value, Json.Holds ([("type", .string "not")] ++ ("operand", value) :: []) "type"
      (Json.toForm true) .not := fun value => ⟨.string "not", rfl, rfl⟩
  have hitem : ∀ {value value' : Json}, Restyled value value' →
      Restyled (.array (.string "and" :: ([] ++ value :: [plain])))
        (.array (.string "and" :: ([] ++ value' :: [plain]))) := .item rfl nofun
  have hstyled : Relation.ReflTransGen Restyled given styled :=
    .head (.operand (hform _) (by decide) (hitem (.add (.array [.null]) rfl)))
      (.head (.operand (hform _) (by decide)
          (hitem (.reorder (by decide) (List.reverse_perm _).symm)))
        (.head (.add (.bool true) rfl)
          (.single (.reorder (by decide) (List.reverse_perm [_, _, _]).symm))))
  obtain ⟨hany, hback⟩ := hread given (e one) hgiven
  exact ⟨⟨hgiven, hstyled, hany styled hstyled⟩, ⟨he, hfinite, hback hfinite⟩, hinfinite,
    (hwritten (e infinity)).2 hinfinite⟩

/-- **An operator that is an object has no room for more keys.**  The value with the plain object is
read, and the one with a further key in it is refused. -/
theorem not_ofJson_of_annotated_operator :
    let given (operator : List (String × Json)) : Json := .object [("type", .string "compare"),
      ("field", .string "a"), ("op", .object operator), ("literal", .int 1)]
    ofJson (given [("==", .null)]) =
        .ok (.compare "a" .eq (.number ⟨0x3FF0000000000000⟩)) ∧
      ofJson (given [("==", .null), ("note", .int 1)]) = .error .invalidValue := by
  decide +kernel

end Expr

end Eligibility
