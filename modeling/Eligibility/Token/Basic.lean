import Eligibility.CompareOp
import Eligibility.Value

/-!
# Tokens

## Main definitions

* `Token` : the tokens of the language of rules.
* `Token.describe` : how a token is named in a message.
* `Located` : a token and the byte offset at which it starts.
-/

namespace Eligibility

/-- A token of the language of rules. -/
inductive Token
  /-- A field name. -/
  | ident (name : String)
  /-- A number literal. -/
  | number (x : Binary64)
  /-- A text literal, without its quotes. -/
  | text (s : String)
  /-- A comparison operator. -/
  | op (o : CompareOp)
  /-- The keyword for conjunction. -/
  | and
  /-- The keyword for disjunction. -/
  | or
  /-- The keyword for negation. -/
  | not
  /-- An opening parenthesis. -/
  | lparen
  /-- A closing parenthesis. -/
  | rparen
  deriving DecidableEq

/-- How a token is named in a message. -/
def Token.describe : Token → String
  | ident name => "field name '" ++ name ++ "'"
  | number x => "number " ++ x.text
  | text s => "string \"" ++ s ++ "\""
  | op o => "operator '" ++ o.symbol ++ "'"
  | and => "'AND'"
  | or => "'OR'"
  | not => "'NOT'"
  | lparen => "'('"
  | rparen => "')'"

/-- A token in its place. -/
structure Located where
  /-- The token. -/
  token : Token
  /-- The byte offset at which it starts. -/
  offset : Nat
  deriving DecidableEq

end Eligibility
