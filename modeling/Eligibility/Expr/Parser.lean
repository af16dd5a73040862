import Eligibility.Expr.Basic
import Eligibility.Limits
import Eligibility.Token.Lexer

/-!
# Reading an expression

Disjunction binds weaker than conjunction, conjunction weaker than negation, and negation weaker
than a comparison or a group in parentheses; chains of one connective lean to the left.  Tokens are
read one at a time.  Between two tokens the reader remembers, for the groups that are open and for
the innermost level, the chains still under way and the negations that wait for an operand.

A chain that grows too high is not refused at once: the text may go on with a fault of its own,
which is then the one to report.  The chain keeps the place where it first became too high until it
is complete.

## Main definitions

* `Subtree` : a finished expression with its height.
* `Chain`, `Chain.extend`, `Chain.close` : the left part of a chain of one connective.
* `Level` : the chains and the negations under way between two parentheses.
* `Phase`, `ParseState` : what may come next, and all that the reader remembers.
* `ParseState.step`, `ParseState.finish` : one token, and the end of the text.
* `Expr.ofTokens`, `Expr.parse` : the expression of a list of tokens, and of a text.
-/

namespace Eligibility

/-! ### Finished parts -/

/-- An expression with its height. -/
structure Subtree where
  /-- The expression. -/
  expr : Expr
  /-- Its height. -/
  height : Nat
  height_eq : height = expr.height

namespace Subtree

/-- A comparison. -/
def compare (field : String) (op : CompareOp) (literal : Value) : Subtree :=
  ⟨.compare field op literal, 1, rfl⟩

/-- A negation. -/
def not (t : Subtree) : Subtree :=
  ⟨.not t.expr, 1 + t.height, by rw [t.height_eq, Expr.height_not]⟩

end Subtree

/-- Two subtrees under a connective. -/
def Subtree.join (c : Connective) (l r : Subtree) : Subtree :=
  ⟨c.join l.expr r.expr, 1 + max l.height r.height,
    by rw [l.height_eq, r.height_eq, Connective.height_join]⟩

/-! ### Chains under way -/

/-- The left part of a chain of one connective, which ends in a connective without right operand. -/
structure Chain where
  /-- The operands so far, joined to the left. -/
  left : Subtree
  /-- Where the last connective stands. -/
  offset : Nat
  /-- Where the connective stands that first made the chain too high. -/
  fault : Option Nat

namespace Chain

/-- A chain, if there is one, with its right operand: the whole, and where it first became higher
than the limit. -/
def attach (c : Connective) (limit : UInt64) : Option Chain → Subtree → Subtree × Option Nat
  | none, t => (t, none)
  | some chain, t =>
    let whole := chain.left.join c t
    let fault := if whole.height ≤ limit.toNat then none else some chain.offset
    (whole, chain.fault.or fault)

/-- A chain that goes on after its right operand with one more connective. -/
def extend (c : Connective) (limit : UInt64) (chain : Option Chain) (t : Subtree) (offset : Nat) :
    Chain :=
  let (left, fault) := attach c limit chain t
  ⟨left, offset, fault⟩

/-- The expression of a chain that ends with its right operand. -/
def close (c : Connective) (limit : UInt64) (chain : Option Chain) (t : Subtree) :
    Except ParseError Subtree :=
  match attach c limit chain t with
  | (whole, none) => .ok whole
  | (_, some offset) => .error ⟨.treeTooDeep limit, offset⟩

@[simp] theorem attach_none (c : Connective) (limit : UInt64) (t : Subtree) :
    attach c limit none t = (t, none) := rfl

@[simp] theorem close_none (c : Connective) (limit : UInt64) (t : Subtree) :
    close c limit none t = .ok t := rfl

/-- A chain is refused exactly if it has a fault, at the first one. -/
theorem close_eq (c : Connective) (limit : UInt64) (chain : Option Chain) (t : Subtree) :
    close c limit chain t =
      match (attach c limit chain t).2 with
      | none => .ok (attach c limit chain t).1
      | some offset => .error ⟨.treeTooDeep limit, offset⟩ := by
  unfold close
  split <;> simp [*]

end Chain

/-! ### The state of the reader -/

/-- What is under way between two parentheses. -/
structure Level where
  /-- The disjunction under way. -/
  disjunction : Option Chain := none
  /-- The conjunction under way, an operand of that disjunction. -/
  conjunction : Option Chain := none
  /-- Where the negations stand that wait for an operand, the innermost first. -/
  negations : List Nat := []

/-- A level that waits for the group inside it to end. -/
structure Enclosing where
  /-- The level. -/
  level : Level
  /-- Where the parenthesis stands that opens the group. -/
  offset : Nat

/-- What may come next. -/
inductive Phase
  /-- An expression has to start. -/
  | operand
  /-- A comparison operator has to follow a field name, which stands at the given offset. -/
  | operator (field : String) (offset : Nat)
  /-- A literal has to follow a comparison operator. -/
  | literal (field : String) (offset : Nat) (op : CompareOp)
  /-- An operand is complete. -/
  | complete (t : Subtree)

/-- What the reader remembers between two tokens. -/
structure ParseState where
  /-- The levels around the groups that are open, the innermost first. -/
  outer : List Enclosing := []
  /-- The innermost level. -/
  level : Level := {}
  /-- What may come next. -/
  phase : Phase := .operand

/-- How many parentheses and negations are open in the enclosing levels, innermost first, counting
the parenthesis around each next inner one. -/
def Enclosing.depth : List Enclosing → Nat
  | [] => 0
  | e :: outer => e.level.negations.length + 1 + depth outer

namespace Level

/-- The negations of an operand, from the innermost outwards. -/
def negate (limits : Limits) : List Nat → Subtree → Except ParseError Subtree
  | [], t => .ok t
  | offset :: offsets, t =>
    if t.not.height ≤ limits.maxHeight.toNat then negate limits offsets t.not
    else .error ⟨.treeTooDeep limits.maxHeight, offset⟩

/-- The expression of a level whose last operand is complete. -/
def close (limits : Limits) (level : Level) (t : Subtree) : Except ParseError Subtree := do
  let conjunction ← Chain.close .and limits.maxHeight level.conjunction t
  Chain.close .or limits.maxHeight level.disjunction conjunction

end Level

namespace ParseState

/-- How many parentheses and negations are open. -/
def depth (s : ParseState) : Nat :=
  Enclosing.depth s.outer + s.level.negations.length

/-- The state after an operand without its negations. -/
def complete (limits : Limits) (outer : List Enclosing) (level : Level) (t : Subtree) :
    Except ParseError ParseState := do
  let operand ← Level.negate limits level.negations t
  return { outer, level := { level with negations := [] }, phase := .complete operand }

/-- The state after a comparison of the field that stands at `offset`. -/
def completeComparison (limits : Limits) (s : ParseState) (field : String) (offset : Nat)
    (op : CompareOp) (literal : Value) : Except ParseError ParseState :=
  if 1 ≤ limits.maxHeight.toNat then
    complete limits s.outer s.level (.compare field op literal)
  else .error ⟨.treeTooDeep limits.maxHeight, offset⟩

/-- The state after one more token. -/
def step (limits : Limits) (s : ParseState) (next : Located) : Except ParseError ParseState :=
  match s.phase, next.token with
  -- an expression starts
  | .operand, .not =>
    if s.depth < limits.maxDepth.toNat then
      .ok { s with level := { s.level with negations := next.offset :: s.level.negations } }
    else .error ⟨.nestingTooDeep limits.maxDepth, next.offset⟩
  | .operand, .lparen =>
    if s.depth < limits.maxDepth.toNat then
      .ok { outer := ⟨s.level, next.offset⟩ :: s.outer, level := {}, phase := .operand }
    else .error ⟨.nestingTooDeep limits.maxDepth, next.offset⟩
  | .operand, .ident field => .ok { s with phase := .operator field next.offset }
  | .operand, .number _ | .operand, .text _ =>
    .error ⟨.unexpected .fieldName next.token, next.offset⟩
  | .operand, _ => .error ⟨.unexpected .expression next.token, next.offset⟩
  -- a comparison goes on
  | .operator field offset, .op op => .ok { s with phase := .literal field offset op }
  | .operator _ _, _ => .error ⟨.unexpected .operator next.token, next.offset⟩
  | .literal field offset op, .number x => s.completeComparison limits field offset op (.number x)
  | .literal field offset op, .text v => s.completeComparison limits field offset op (.text v)
  | .literal _ _ _, _ => .error ⟨.unexpected .literal next.token, next.offset⟩
  -- an operand is complete
  | .complete t, .and =>
    let chain := Chain.extend .and limits.maxHeight s.level.conjunction t next.offset
    .ok { s with level := { s.level with conjunction := some chain }, phase := .operand }
  | .complete t, .or => do
    let conjunction ← Chain.close .and limits.maxHeight s.level.conjunction t
    let chain := Chain.extend .or limits.maxHeight s.level.disjunction conjunction next.offset
    return { s with level := { disjunction := some chain }, phase := .operand }
  | .complete t, found => do
    let whole ← s.level.close limits t
    match s.outer, found with
    | enclosing :: outer, .rparen => complete limits outer enclosing.level whole
    | _ :: _, _ => .error ⟨.unexpected .rparen found, next.offset⟩
    | [], .rparen => .error ⟨.unmatchedParen, next.offset⟩
    | [], _ => .error ⟨.trailing found, next.offset⟩

/-- The expression of a text that ends here, at the given offset. -/
def finish (limits : Limits) (endOffset : Nat) (s : ParseState) : Except ParseError Expr :=
  match s.phase with
  | .operand => .error ⟨.missing .expression, endOffset⟩
  | .operator _ _ => .error ⟨.missing .operator, endOffset⟩
  | .literal _ _ _ => .error ⟨.missing .literal, endOffset⟩
  | .complete t => do
    let whole ← s.level.close limits t
    match s.outer with
    | [] => return whole.expr
    | enclosing :: _ => .error ⟨.unmatchedParen, enclosing.offset⟩

end ParseState

namespace Expr

/-- The expression of a list of tokens whose text ends at the given offset. -/
def ofTokens (limits : Limits) (endOffset : Nat) (tokens : List Located) :
    Except ParseError Expr :=
  if tokens.isEmpty then .error ⟨.empty, 0⟩
  else do
    let s ← tokens.foldlM (ParseState.step limits) {}
    s.finish limits endOffset

/-- The expression of a text. -/
def parse (limits : Limits) (source : String) : Except ParseError Expr := do
  let tokens ← Token.scanText source
  ofTokens limits source.utf8ByteSize tokens

end Expr

end Eligibility
