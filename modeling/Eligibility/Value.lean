import Eligibility.Binary64.Shortest
import Eligibility.Text.Blank

/-!
# Values

A field of a record holds a number or a text, and a comparison has one of the two as its literal.
A number that arrives as text stays text until a comparison asks for a number.

## Main definitions

* `Kind` : number or text.
* `Value`, `Value.kind` : a value and its kind.
* `Value.asNumber?`, `Value.asText?` : the views that comparisons use.
* `Value.same` : equality in which numbers are equal by value.
* `Value.render` : the value as a literal of the language of rules.
-/

namespace Eligibility

/-- The kind of a value. -/
inductive Kind
  /-- A number. -/
  | number
  /-- A text. -/
  | text
  deriving DecidableEq

namespace Kind

/-- The name of a kind. -/
def name : Kind → String
  | number => "number"
  | text => "text"

/-- The kind of a name. -/
def ofName? (s : String) : Option Kind :=
  [number, text].find? fun k => k.name == s

@[simp] theorem ofName?_name (k : Kind) : ofName? k.name = some k := by
  cases k <;> decide

end Kind

/-- A value of a field, or the literal of a comparison. -/
inductive Value
  /-- A number. -/
  | number (x : Binary64)
  /-- A text. -/
  | text (s : String)
  deriving DecidableEq

namespace Value

/-- The kind of a value. -/
def kind : Value → Kind
  | number _ => .number
  | text _ => .text

/-- The value as a number: a text counts if, trimmed, it is a numeral of finite size. -/
def asNumber? : Value → Option Binary64
  | number x => some x
  | text s => (Binary64.ofNumeral? (Text.trimChars s.toList)).filter Binary64.isFinite

/-- The value as a text. -/
def asText? : Value → Option String
  | number _ => none
  | text s => some s

/-- Equality of kind and content, numbers being compared by value. -/
def same : Value → Value → Bool
  | number x, number y => x.same y
  | text s, text t => s == t
  | _, _ => false

/-- A text between double quotes, or between single quotes if it holds a double quote. -/
def quote (s : String) : String :=
  if s.toList.contains '"' then "'" ++ s ++ "'" else "\"" ++ s ++ "\""

/-- The value as a literal. -/
def render : Value → String
  | number x => x.text
  | text s => quote s

@[simp] theorem kind_number (x : Binary64) : (number x).kind = .number := rfl

@[simp] theorem kind_text (s : String) : (text s).kind = .text := rfl

@[simp] theorem asNumber?_number (x : Binary64) : (number x).asNumber? = some x := rfl

@[simp] theorem asText?_number (x : Binary64) : (number x).asText? = none := rfl

@[simp] theorem asText?_text (s : String) : (text s).asText? = some s := rfl

@[simp] theorem same_number (x y : Binary64) : (number x).same (number y) = x.same y := rfl

@[simp] theorem same_text (s t : String) : (text s).same (text t) = (s == t) := rfl

@[simp] theorem same_number_text (x : Binary64) (s : String) :
    (number x).same (text s) = false := rfl

@[simp] theorem same_text_number (s : String) (x : Binary64) :
    (text s).same (number x) = false := rfl

end Value

end Eligibility
