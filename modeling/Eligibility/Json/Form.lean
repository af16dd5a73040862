/-!
# The forms of expressions

An expression as a JSON object says under `type` which of the four forms it has, and as a JSON array
in the first place.

## Main definitions

* `Form` : the four forms.
* `Form.name`, `Form.ofName?` : a form and the word for it.
* `Form.ofIndex?` : the form of an index.
* `Form.keys` : the keys of the parts of an expression of a form.
-/

namespace Eligibility

/-- The form of an expression. -/
inductive Form
  /-- A comparison. -/
  | compare
  /-- A conjunction. -/
  | and
  /-- A disjunction. -/
  | or
  /-- A negation. -/
  | not
  deriving DecidableEq

namespace Form

/-- All forms, in the order of their indices. -/
def all : List Form := [compare, and, or, not]

/-- The word for a form. -/
def name : Form → String
  | compare => "compare"
  | and => "and"
  | or => "or"
  | not => "not"

/-- The form of a word. -/
def ofName? (s : String) : Option Form :=
  all.find? fun form => form.name == s

/-- The form of an index. -/
def ofIndex? (i : Nat) : Option Form :=
  all[i]?

/-- The keys of the parts, in the order in which they are written. -/
def keys : Form → List String
  | compare => ["field", "op", "literal"]
  | and | or => ["left", "right"]
  | not => ["operand"]

@[simp] theorem ofName?_name (form : Form) : ofName? form.name = some form := by
  cases form <;> decide

end Form

end Eligibility
