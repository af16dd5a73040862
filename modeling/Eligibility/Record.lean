import Eligibility.Value
import Std.Data.TreeMap

/-!
# Records

A record holds the values of the fields of one applicant.  Its fields are listed in the order of
the code points of their names.

## Main definitions

* `Record`, `Record.get?`, `Record.insert`, `Record.erase` : a record, its view and its updates.
* `Record.ofList` : the record of a list of fields, of which the last of one name counts.
* `Record.ofForm` : the record of the answers in a form.
* `Record.same` : equality of the fields, numbers being compared by value.

## Main results

* `Record.get?_insert`, `Record.get?_erase` : what an update does to the view.
-/

namespace Eligibility

open Std

/-- The values of named fields. -/
structure Record where
  /-- The values by name. -/
  values : TreeMap String Value

namespace Record

/-- The record without fields. -/
def empty : Record := ⟨∅⟩

instance : Inhabited Record := ⟨empty⟩

/-- The value of a field. -/
def get? (r : Record) (field : String) : Option Value :=
  r.values[field]?

/-- The record in which a field has the given value. -/
def insert (r : Record) (field : String) (v : Value) : Record :=
  ⟨r.values.insert field v⟩

/-- The record without a field. -/
def erase (r : Record) (field : String) : Record :=
  ⟨r.values.erase field⟩

/-- The number of fields. -/
def size (r : Record) : Nat :=
  r.values.size

/-- The fields in the order of their names. -/
def toList (r : Record) : List (String × Value) :=
  r.values.toList

/-- The record of a list of fields; of several entries for one field the last one counts. -/
def ofList (entries : List (String × Value)) : Record :=
  entries.foldl (fun r entry => r.insert entry.1 entry.2) empty

/-- The field that an answer in a form stands for: its trimmed text, or none for a blank one. -/
def ofAnswer? (answer : String × String) : Option (String × Value) :=
  if Text.IsBlank answer.2 then none else some (answer.1, .text (Text.trim answer.2))

/-- The record of the answers in a form, without the blank ones. -/
def ofForm (answers : List (String × String)) : Record :=
  ofList (answers.filterMap ofAnswer?)

/-- Whether two records have the same fields with the same values. -/
def same (r s : Record) : Bool :=
  r.size == s.size && r.toList.all fun (field, v) =>
    match s.get? field with
    | some w => v.same w
    | none => false

/-! ### Views -/

@[simp] theorem get?_empty (field : String) : empty.get? field = none := by
  simp [get?, empty]

theorem get?_insert (r : Record) (field other : String) (v : Value) :
    (r.insert field v).get? other = if field = other then some v else r.get? other := by
  simp [get?, insert, TreeMap.getElem?_insert]

@[simp] theorem get?_insert_self (r : Record) (field : String) (v : Value) :
    (r.insert field v).get? field = some v := by
  rw [get?_insert, if_pos rfl]

theorem get?_erase (r : Record) (field other : String) :
    (r.erase field).get? other = if field = other then none else r.get? other := by
  simp [get?, erase, TreeMap.getElem?_erase]

end Record

end Eligibility
