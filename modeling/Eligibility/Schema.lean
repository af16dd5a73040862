import Eligibility.Expr.Basic
import Std.Data.TreeMap

/-!
# Schemas

A schema declares the fields that rules may use and the kind of value that each holds, so that a
rule that cannot be evaluated is refused before it meets a record.

## Main definitions

* `Schema`, `Schema.kindOf?`, `Schema.declare` : declarations, their view and their update.
* `Schema.eligibility` : the fields of the standard application.
* `SchemaError` : what a schema objects to.
* `Schema.checkComparison` : the check of one comparison.
* `Schema.check` : the check of an expression, which reports the leftmost fault.
-/

namespace Eligibility

open Std

/-- The declared fields with their kinds. -/
structure Schema where
  /-- The kinds by name of the field. -/
  kinds : TreeMap String Kind

/-- What a schema objects to in a comparison. -/
inductive SchemaError
  /-- The field is not declared. -/
  | undefinedField (field : String)
  /-- The literal is not of the declared kind. -/
  | kindMismatch (field : String) (declared literal : Kind)
  /-- The operator orders, and the field holds texts. -/
  | unsupportedOperator (field : String) (op : CompareOp)
  deriving DecidableEq

/-- The wording of an objection. -/
def SchemaError.message : SchemaError → String
  | undefinedField f => "field '" ++ f ++ "' is not part of the schema"
  | kindMismatch f declared literal =>
    "field '" ++ f ++ "' holds " ++ declared.name ++ " values but is compared with a " ++
      literal.name ++ " literal"
  | unsupportedOperator f op =>
    "operator '" ++ op.symbol ++ "' cannot be used on text field '" ++ f ++ "'"

namespace Schema

/-- The schema without fields. -/
def empty : Schema := ⟨∅⟩

instance : Inhabited Schema := ⟨empty⟩

/-- The declared kind of a field. -/
def kindOf? (s : Schema) (field : String) : Option Kind :=
  s.kinds[field]?

/-- The schema in which a field has the given kind. -/
def declare (s : Schema) (field : String) (k : Kind) : Schema :=
  ⟨s.kinds.insert field k⟩

/-- The number of declared fields. -/
def size (s : Schema) : Nat :=
  s.kinds.size

/-- The declarations in the order of the field names. -/
def toList (s : Schema) : List (String × Kind) :=
  s.kinds.toList

/-- The schema of a list of declarations; of several for one field the last one counts. -/
def ofList (declarations : List (String × Kind)) : Schema :=
  declarations.foldl (fun s d => s.declare d.1 d.2) empty

/-- The fields of the standard application. -/
def eligibility : Schema :=
  ofList [("age", .number), ("department", .text), ("salary", .number), ("experience", .number)]

/-- The check of one comparison. -/
def checkComparison (s : Schema) (field : String) (op : CompareOp) (literal : Value) :
    Except SchemaError Unit :=
  match s.kindOf? field with
  | none => .error (.undefinedField field)
  | some declared =>
    if declared ≠ literal.kind then .error (.kindMismatch field declared literal.kind)
    else if declared = .text ∧ op.isOrdering then .error (.unsupportedOperator field op)
    else .ok ()

/-- The check of an expression, from left to right. -/
def check (s : Schema) : Expr → Except SchemaError Unit
  | .compare field op literal => s.checkComparison field op literal
  | .and l r => do s.check l; s.check r
  | .or l r => do s.check l; s.check r
  | .not e => s.check e

/-! ### Views -/

@[simp] theorem kindOf?_empty (field : String) : empty.kindOf? field = none := by
  simp [kindOf?, empty]

theorem kindOf?_declare (s : Schema) (field other : String) (k : Kind) :
    (s.declare field k).kindOf? other = if field = other then some k else s.kindOf? other := by
  simp [kindOf?, declare, TreeMap.getElem?_insert]

end Schema

end Eligibility
