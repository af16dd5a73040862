import Eligibility.Json.Basic
import Eligibility.Json.Form
import Eligibility.RuleSet.Basic

/-!
# Reading from JSON

Objects may have further keys, which are ignored.  The parts of an object are read in the order of
their keys, and only then is a missing part reported, the first one in the order in which the parts
are written.  The parts of a rule are not trusted: its source is read again and has to say what the
given expression says.

An expression, a rule and limits may be given as an array too, whose items are the parts in the
order in which they are written; in front of those of an expression stands its form.  The items are
read one after the other, and as soon as one is missing that is reported.  Only what has a default
may be missing, and no further items may follow.

A word may be given as a string or as an object whose only key is the word.  What such an object
holds is `null`; inside an expression it may also be an empty object.  The form of an expression
inside another one may also be given by its index.

## Main definitions

* `JsonError` : why a value cannot be read.
* `Json.toWord` : reading one of a family of words.
* `Json.part`, `Json.present` : reading a part of an object.
* `Json.item`, `Json.fits` : reading a part of an array, whose items go under the keys of the parts.
* `Value.ofJson`, `Expr.ofJson`, `Record.ofJson`, `Schema.ofJson`, `Limits.ofJson`, `Rule.ofJson`
* `CompareOp.ofJson`, `Kind.ofJson`, `Combine.ofJson`
-/

namespace Eligibility

/-- Why a JSON value cannot be read. -/
inductive JsonError
  /-- An object lacks a key. -/
  | missingField (key : String)
  /-- A string is none of the words that may stand here. -/
  | unknownVariant (word : String)
  /-- Neither a number nor a string stands where a value has to. -/
  | noValue
  /-- A JSON value of another type has to stand here. -/
  | invalidType
  /-- A number is out of range. -/
  | invalidValue
  /-- An array has too few items or too many. -/
  | invalidLength
  /-- The parts of a rule do not make one. -/
  | rule (e : RuleError)
  deriving DecidableEq

/-- The wording of an error. -/
def JsonError.message : JsonError → String
  | missingField key => "missing field \x60" ++ key ++ "\x60"
  | unknownVariant word => "unknown variant \x60" ++ word ++ "\x60"
  | noValue => "data did not match any variant of untagged enum Value"
  | invalidType => "invalid type"
  | invalidValue => "invalid value"
  | invalidLength => "invalid length"
  | rule e => e.message

namespace Json

/-- The string that a value is. -/
def asString : Json → Except JsonError String
  | string s => .ok s
  | _ => .error .invalidType

/-- The fields of the object that a value is. -/
def asFields : Json → Except JsonError (List (String × Json))
  | object fields => .ok fields
  | _ => .error .invalidType

/-- Whether a value says no more than that it is there.  Inside an expression an empty object does,
and everywhere `null`. -/
def isUnit (inner : Bool) : Json → Bool
  | null => true
  | object fields => inner && fields.isEmpty
  | _ => false

/-- What a word stands for, if it is one of a family. -/
def known (ofWord? : String → Option α) (word : String) : Except JsonError α :=
  match ofWord? word with
  | some a => .ok a
  | none => .error (.unknownVariant word)

/-- One of a family of words, by itself or inside an expression. -/
def toWord (inner : Bool) (ofWord? : String → Option α) : Json → Except JsonError α
  | string word => known ofWord? word
  | object [(word, content)] => do
    let a ← known ofWord? word
    if content.isUnit inner then return a else throw .invalidType
  | object _ => .error .invalidValue
  | _ => .error .invalidType

/-- The form of an expression, which may stand by itself or inside another one. -/
def toForm (inner : Bool) : Json → Except JsonError Form
  | string word => known Form.ofName? word
  | int n =>
    if inner ∧ 0 ≤ n ∧ n < UInt64.size then
      match Form.ofIndex? n.toNat with
      | some form => .ok form
      | none => .error .invalidValue
    else .error .invalidType
  | _ => .error .invalidType

/-- What a key of an object holds, if the key is there. -/
def part (fields : List (String × β)) (key : String) (read : β → Except JsonError α) :
    Except JsonError (Option α) :=
  match fields.lookup key with
  | some b => (read b).map some
  | none => .ok none

/-- A part of an object that must not be missing. -/
def present (key : String) : Option α → Except JsonError α
  | some a => .ok a
  | none => .error (.missingField key)

/-- A part of an array, given the items under the keys of the parts.  It must not be missing. -/
def item (fields : List (String × β)) (key : String) (read : β → Except JsonError α) :
    Except JsonError α := do
  match ← part fields key read with
  | some a => return a
  | none => throw .invalidLength

/-- An array has no items beyond those for the keys. -/
def fits (keys : List String) (items : List β) : Except JsonError Unit :=
  if items.length ≤ keys.length then .ok () else .error .invalidLength

/-- A bound, which is a whole number of at most 64 bits. -/
def toBound : Json → Except JsonError UInt64
  | int n =>
    if n < 0 then .error .invalidValue
    else if n < UInt64.size then .ok (UInt64.ofNat n.toNat)
    else .error .invalidType
  | _ => .error .invalidType

end Json

/-- A value, from a number or a string. -/
def Value.ofJson : Json → Except JsonError Value
  | .int n => .ok (.number (.ofInt n))
  | .number x => .ok (.number x)
  | .string s => .ok (.text s)
  | _ => .error .noValue

/-- An operator, from its symbol. -/
def CompareOp.ofJson : Json → Except JsonError CompareOp :=
  Json.toWord false ofSymbol?

/-- A kind, from its name. -/
def Kind.ofJson : Json → Except JsonError Kind :=
  Json.toWord false ofName?

/-- A way to combine, from its name. -/
def Combine.ofJson : Json → Except JsonError Combine :=
  Json.toWord false ofName?

namespace Expr

/-- The two operands of a connective. -/
def operandPair (operands : List (String × Except JsonError Expr)) :
    Except JsonError (Expr × Expr) := do
  let left ← Json.part operands "left" id
  let right ← Json.part operands "right" id
  return (← Json.present "left" left, ← Json.present "right" right)

/-- The expression of a form, given the fields of an object and what each says as an expression. -/
def ofFields (fields : List (String × Json)) (operands : List (String × Except JsonError Expr)) :
    Form → Except JsonError Expr
  | .compare => do
    let field ← Json.part fields "field" Json.asString
    let literal ← Json.part fields "literal" Value.ofJson
    let op ← Json.part fields "op" (Json.toWord true CompareOp.ofSymbol?)
    return compare (← Json.present "field" field) (← Json.present "op" op)
      (← Json.present "literal" literal)
  | .and => do
    let (left, right) ← operandPair operands
    return and left right
  | .or => do
    let (left, right) ← operandPair operands
    return or left right
  | .not => do
    let operand ← Json.part operands "operand" id
    return not (← Json.present "operand" operand)

/-- The two operands of a connective, out of an array. -/
def operandItems (operands : List (String × Except JsonError Expr)) :
    Except JsonError (Expr × Expr) := do
  let left ← Json.item operands "left" id
  let right ← Json.item operands "right" id
  return (left, right)

/-- The expression of a form, given the items of an array under the keys of the form and what each
says as an expression. -/
def ofItems (fields : List (String × Json)) (operands : List (String × Except JsonError Expr)) :
    Form → Except JsonError Expr
  | .compare => do
    let field ← Json.item fields "field" Json.asString
    let op ← Json.item fields "op" (Json.toWord true CompareOp.ofSymbol?)
    let literal ← Json.item fields "literal" Value.ofJson
    return compare field op literal
  | .and => do
    let (left, right) ← operandItems operands
    return and left right
  | .or => do
    let (left, right) ← operandItems operands
    return or left right
  | .not => do
    let operand ← Json.item operands "operand" id
    return not operand

mutual

/-- An expression, by itself or inside another one, from an object that names its form, or from an
array that starts with the form. -/
def readJson (inner : Bool) : Json → Except JsonError Expr
  | .object fields => do
    let type ← Json.present "type" (fields.lookup "type")
    ofFields fields (operandsOfJson fields) (← type.toForm inner)
  | .array [] => .error (.missingField "type")
  | .array (type :: items) => do
    let form ← type.toForm inner
    let e ← ofItems (form.keys.zip items) (form.keys.zip (operandsOfItems items)) form
    Json.fits form.keys items
    return e
  | _ => .error .invalidType

/-- What the fields of an object say as expressions. -/
def operandsOfJson : List (String × Json) → List (String × Except JsonError Expr)
  | [] => []
  | (key, value) :: fields => (key, readJson true value) :: operandsOfJson fields

/-- What the items of an array say as expressions. -/
def operandsOfItems : List Json → List (Except JsonError Expr)
  | [] => []
  | item :: items => readJson true item :: operandsOfItems items

end

/-- An expression, from an object or an array that names its form. -/
def ofJson (j : Json) : Except JsonError Expr :=
  readJson false j

end Expr

/-- A record, from an object of values. -/
def Record.ofJson (j : Json) : Except JsonError Record := do
  let fields ← j.asFields
  let entries ← fields.mapM fun (field, v) => return (field, ← Value.ofJson v)
  return ofList entries

/-- A schema, from an object of names of kinds. -/
def Schema.ofJson (j : Json) : Except JsonError Schema := do
  let fields ← j.asFields
  let declarations ← fields.mapM fun (field, k) => return (field, ← Kind.ofJson k)
  return ofList declarations

/-- The keys of limits, in the order in which they are written. -/
def Limits.keys : List String := ["max_depth", "max_height"]

/-- Limits, from their parts; a bound that is missing has its default. -/
def Limits.ofFields (fields : List (String × Json)) : Except JsonError Limits := do
  let maxDepth ← Json.part fields "max_depth" Json.toBound
  let maxHeight ← Json.part fields "max_height" Json.toBound
  let defaults : Limits := {}
  return ⟨maxDepth.getD defaults.maxDepth, maxHeight.getD defaults.maxHeight⟩

/-- Limits, from an object or an array of bounds. -/
def Limits.ofJson : Json → Except JsonError Limits
  | .object fields => ofFields fields
  | .array items => do
    let limits ← ofFields (keys.zip items)
    Json.fits keys items
    return limits
  | _ => .error .invalidType

/-- The keys of a rule, in the order in which they are written. -/
def Rule.keys : List String := ["name", "source", "expr", "options"]

/-- A rule, made again of parts that were read. -/
def Rule.ofParts (name source : String) (expr : Expr) (limits : Option Limits) :
    Except JsonError Rule :=
  (restore name source expr (limits.getD {})).mapError .rule

/-- A rule, from an object or an array of its parts, of which the limits may be missing. -/
def Rule.ofJson : Json → Except JsonError Rule
  | .object fields => do
    let expr ← Json.part fields "expr" Expr.ofJson
    let name ← Json.part fields "name" Json.asString
    let limits ← Json.part fields "options" Limits.ofJson
    let source ← Json.part fields "source" Json.asString
    let name ← Json.present "name" name
    let source ← Json.present "source" source
    let expr ← Json.present "expr" expr
    ofParts name source expr limits
  | .array items => do
    let fields := keys.zip items
    let name ← Json.item fields "name" Json.asString
    let source ← Json.item fields "source" Json.asString
    let expr ← Json.item fields "expr" Expr.ofJson
    let limits ← Json.part fields "options" Limits.ofJson
    Json.fits keys items
    ofParts name source expr limits
  | _ => .error .invalidType

end Eligibility
