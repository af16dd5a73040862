import Eligibility.RuleSet.Basic
import Eligibility.Stored.Condition
import Eligibility.Stored.Wire

/-!
# The payload of a stored set

The payload of a stored set of rules holds the number of its rules, how they combine, and for each
rule its name, its source, its limits and its condition.  Nothing that is read from storage is
trusted: the set is checked, and the source of each rule has to say what its condition says.

## Main definitions

* `StoredRule`, `StoredSet` : what is stored of a rule and of a set.
* `StoredSet.write`, `StoredSet.read` : the bytes of a stored set.
* `RuleSet.toStored` : what is stored of a set of rules.
* `StoredSet.Fault` : what is wrong with a stored set.
* `StoredSet.validate`, `StoredSet.restore` : the check, and the set of rules.
-/

namespace Eligibility

/-- What is stored of a rule. -/
structure StoredRule where
  /-- The name. -/
  name : String
  /-- The text. -/
  source : String
  /-- The limits under which the text was read. -/
  limits : Limits
  /-- What the text says. -/
  condition : Condition

/-- What is stored of a set of rules. -/
structure StoredSet where
  /-- The number of rules, as declared. -/
  ruleCount : Nat
  /-- How the verdicts combine. -/
  combine : Combine
  /-- The rules. -/
  rules : List StoredRule

namespace Stored

/-! ### Writing -/

/-- A value, after the index of its kind. -/
def value : Value → List UInt8
  | .number x => varint 0 ++ littleEndian 8 x.bits.toNat
  | .text s => varint 1 ++ text s

/-- The index of an operator. -/
def operator (op : CompareOp) : List UInt8 :=
  varint (CompareOp.all.idxOf op)

mutual

/-- A condition, after the index of its form. -/
def condition : Condition → List UInt8
  | .compare field op literal => varint 0 ++ text field ++ operator op ++ value literal
  | .and cs => varint 1 ++ varint cs.length ++ conditions cs
  | .or cs => varint 2 ++ varint cs.length ++ conditions cs
  | .not c => varint 3 ++ condition c

/-- Conditions one after the other. -/
def conditions : List Condition → List UInt8
  | [] => []
  | c :: cs => condition c ++ conditions cs

end

/-- A rule. -/
def rule (r : StoredRule) : List UInt8 :=
  text r.name ++ text r.source ++ varint r.limits.maxDepth.toNat ++
    varint r.limits.maxHeight.toNat ++ condition r.condition

/-! ### Reading -/

/-- A value, after the index of its kind. -/
def readValue : Reader Value := do
  match ← readIndex with
  | 0 => return .number ⟨UInt64.ofNat (← readFixed 8)⟩
  | 1 => return .text (← readText)
  | _ => failure

/-- A condition of at most the given height. -/
def readCondition : Nat → Reader Condition
  | 0 => failure
  | height + 1 => do
    match ← readIndex with
    | 0 =>
      let field ← readText
      let op ← readChoice CompareOp.all
      return .compare field op (← readValue)
    | 1 => return .and (← readList (readCondition height))
    | 2 => return .or (← readList (readCondition height))
    | 3 => return .not (← readCondition height)
    | _ => failure

/-- A rule whose condition has at most the given height. -/
def readRule (height : Nat) : Reader StoredRule := do
  let name ← readText
  let source ← readText
  let maxDepth := UInt64.ofNat (← readVarint)
  let maxHeight := UInt64.ofNat (← readVarint)
  return ⟨name, source, { maxDepth, maxHeight }, ← readCondition height⟩

end Stored

namespace StoredSet

/-- The bytes of a stored set. -/
def write (s : StoredSet) : List UInt8 :=
  Stored.varint s.ruleCount ++ Stored.varint ([Combine.all, .any].idxOf s.combine) ++
    Stored.varint s.rules.length ++ s.rules.flatMap Stored.rule

/-- The stored set at the front of a string of bytes.  Each level of a condition takes a byte, so
the number of bytes bounds the height of every condition. -/
def read (bytes : List UInt8) : Option StoredSet :=
  let reader : Stored.Reader StoredSet := do
    let ruleCount ← Stored.readVarint
    let combine ← Stored.readChoice [Combine.all, .any]
    return ⟨ruleCount, combine, ← Stored.readList (Stored.readRule bytes.length)⟩
  (reader bytes).map Prod.fst

/-- What is wrong with a stored set. -/
inductive Fault
  /-- The declared number of rules is wrong. -/
  | ruleCount (declared actual : Nat)
  /-- There are no rules. -/
  | noRules
  /-- The name of a rule is blank. -/
  | blankName
  /-- A comparison has no field. -/
  | emptyField
  /-- The number literal in a comparison of this field is not finite. -/
  | nonFinite (field : String)
  /-- A chain has no operands. -/
  | emptyChain
  /-- The parts of a rule do not make one. -/
  | rejected (rule : String) (e : RuleError)
  deriving DecidableEq

/-- The wording of a fault. -/
def Fault.message : Fault → String
  | ruleCount declared actual =>
    "metadata says " ++ toString declared ++ " rules but payload has " ++ toString actual
  | noRules => "rule set contains no rules"
  | blankName => "empty rule name"
  | emptyField => "comparison with an empty field name"
  | nonFinite field => "non-finite number literal on field '" ++ field ++ "'"
  | emptyChain => "empty And/Or expression"
  | rejected _ (.sourceMismatch rule) => (RuleError.sourceMismatch rule).message
  | rejected rule e => "rule '" ++ rule ++ "': " ++ e.message

/-! ### The check -/

/-- The check of a comparison. -/
def validateComparison (field : String) : Value → Except Fault Unit
  | .number x =>
    if field = "" then .error .emptyField
    else if x.isFinite then .ok ()
    else .error (.nonFinite field)
  | .text _ => if field = "" then .error .emptyField else .ok ()

mutual

/-- The check of a condition, from left to right. -/
def validateCondition : Condition → Except Fault Unit
  | .compare field _ literal => validateComparison field literal
  | .and cs => validateChain cs
  | .or cs => validateChain cs
  | .not c => validateCondition c

/-- The check of the operands of a chain, of which there has to be one. -/
def validateChain : List Condition → Except Fault Unit
  | [] => .error .emptyChain
  | c :: cs => do validateCondition c; validateConditions cs

/-- The check of conditions one after the other. -/
def validateConditions : List Condition → Except Fault Unit
  | [] => .ok ()
  | c :: cs => do validateCondition c; validateConditions cs

end

/-- The check of a rule. -/
def validateRule (r : StoredRule) : Except Fault Unit :=
  if Text.IsBlank r.name then .error .blankName else validateCondition r.condition

/-- The check of a set. -/
def validate (s : StoredSet) : Except Fault Unit :=
  if s.ruleCount ≠ s.rules.length then .error (.ruleCount s.ruleCount s.rules.length)
  else if s.rules.isEmpty then .error .noRules
  else s.rules.forM validateRule

/-! ### Storing and restoring -/

/-- The rule that was stored. -/
def restoreRule (r : StoredRule) : Except Fault Rule :=
  match r.condition.toExpr? with
  | none => .error .emptyChain
  | some e =>
    match Rule.restore r.name r.source e r.limits with
    | .ok rule => .ok rule
    | .error err => .error (.rejected r.name err)

/-- The set that was stored, if nothing is wrong with it. -/
def restore (s : StoredSet) : Except Fault RuleSet := do
  s.validate
  let rules ← s.rules.mapM restoreRule
  return { rules, combine := s.combine }

end StoredSet

/-- What is stored of a rule. -/
def Rule.toStored (r : Rule) : StoredRule :=
  ⟨r.name, r.source, r.limits, .ofExpr r.expr⟩

/-- What is stored of a set of rules. -/
def RuleSet.toStored (s : RuleSet) : StoredSet :=
  ⟨s.rules.length, s.combine, s.rules.map Rule.toStored⟩

end Eligibility
