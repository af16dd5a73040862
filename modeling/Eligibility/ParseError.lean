import Eligibility.Token.Basic

/-!
# Errors of reading an expression

## Main definitions

* `Expected` : what a reader was looking for.
* `ParseError.Kind` : the causes.
* `ParseError` : a cause and the byte offset that it concerns.
* `ParseError.Kind.message`, `ParseError.message` : their wording.
-/

namespace Eligibility

/-- What has to come next in a text that is read as an expression. -/
inductive Expected
  /-- The start of an expression. -/
  | expression
  /-- A field name, where a literal was found. -/
  | fieldName
  /-- A comparison operator after a field name. -/
  | operator
  /-- A literal after a comparison operator. -/
  | literal
  /-- The end of a group. -/
  | rparen
  deriving DecidableEq

/-- How an expectation is named in a message. -/
def Expected.describe : Expected → String
  | expression => "an expression"
  | fieldName => "a field name"
  | operator => "a comparison operator"
  | literal => "a literal"
  | rparen => "')'"

/-- Why a text is no expression. -/
inductive ParseError.Kind
  /-- There are no tokens. -/
  | empty
  /-- The closing quote of a text literal is missing. -/
  | unterminatedString
  /-- No token starts with this character. -/
  | unrecognized (c : Char)
  /-- A run of operator characters is no operator. -/
  | unknownOperator (run : String)
  /-- A number literal is too large for a finite number. -/
  | numberOutOfRange (numeral : String)
  /-- The text ends where something has to follow. -/
  | missing (expected : Expected)
  /-- A token stands where something else has to. -/
  | unexpected (expected : Expected) (found : Token)
  /-- A parenthesis has no partner. -/
  | unmatchedParen
  /-- A token follows a complete expression. -/
  | trailing (found : Token)
  /-- Too many parentheses and negations are open at once. -/
  | nestingTooDeep (limit : UInt64)
  /-- The expression is too high. -/
  | treeTooDeep (limit : UInt64)
  deriving DecidableEq

/-- The wording of a cause. -/
def ParseError.Kind.message : ParseError.Kind → String
  | empty => "rule text is empty"
  | unterminatedString => "unterminated string literal"
  | unrecognized c => "unrecognized token '" ++ c.toString ++ "'"
  | unknownOperator run => "unknown comparison operator '" ++ run ++ "'"
  | numberOutOfRange numeral => "number literal '" ++ numeral ++ "' is out of range"
  | missing expected => "expected " ++ expected.describe ++ " but reached the end of the rule"
  | unexpected expected found => "expected " ++ expected.describe ++ " but found " ++ found.describe
  | unmatchedParen => "unmatched parenthesis"
  | trailing found => "unexpected " ++ found.describe ++ " after a complete expression"
  | nestingTooDeep limit => "expression nesting exceeds the limit of " ++ toString limit.toNat
  | treeTooDeep limit => "expression tree is deeper than " ++ toString limit.toNat ++ " levels"

/-- Why and where a text is no expression. -/
structure ParseError where
  /-- The cause. -/
  kind : ParseError.Kind
  /-- The byte offset that the cause concerns. -/
  offset : Nat
  deriving DecidableEq

/-- The wording of an error. -/
def ParseError.message (e : ParseError) : String :=
  "parse error at offset " ++ toString e.offset ++ ": " ++ e.kind.message

end Eligibility
