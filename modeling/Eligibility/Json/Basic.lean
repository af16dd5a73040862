import Eligibility.Binary64.Rounding

/-!
# JSON values

## Main definitions

* `Json` : the values, with whole numbers apart from other numbers.
* `Json.ofNumber` : a number as it can be written; what is not finite becomes `null`.
-/

namespace Eligibility

/-- A JSON value.  An object has each key once. -/
inductive Json
  /-- The value `null`. -/
  | null
  /-- A truth value. -/
  | bool (b : Bool)
  /-- A number written as an integer. -/
  | int (n : Int)
  /-- A number written with a point or an exponent. -/
  | number (x : Binary64)
  /-- A string. -/
  | string (s : String)
  /-- An array. -/
  | array (items : List Json)
  /-- An object. -/
  | object (fields : List (String × Json))

namespace Json

/-- A number as it can be written: there is no form for an infinity or a NaN. -/
def ofNumber (x : Binary64) : Json :=
  if x.isFinite then .number x else .null

end Json

end Eligibility
