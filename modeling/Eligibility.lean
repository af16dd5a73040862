import Eligibility.Binary64.Basic
import Eligibility.Binary64.Decimal
import Eligibility.Binary64.Rounding
import Eligibility.Binary64.Shortest
import Eligibility.Blake3
import Eligibility.CompareOp
import Eligibility.Expr.Basic
import Eligibility.Expr.Evaluation
import Eligibility.Expr.Grammar
import Eligibility.Expr.Parser
import Eligibility.Expr.Render
import Eligibility.Json.Basic
import Eligibility.Json.Decode
import Eligibility.Json.Encode
import Eligibility.Json.Form
import Eligibility.Limits
import Eligibility.ParseError
import Eligibility.Proofs.Except
import Eligibility.Proofs.Expr.Comparisons
import Eligibility.Proofs.Expr.Laws
import Eligibility.Proofs.Expr.Same
import Eligibility.Proofs.Expr.Views
import Eligibility.Proofs.Grammar.Prefixes
import Eligibility.Proofs.Grammar.Unambiguous
import Eligibility.Proofs.Json.Lossless
import Eligibility.Proofs.Json.Restyled
import Eligibility.Proofs.LastSetting
import Eligibility.Proofs.Parser.Exact
import Eligibility.Proofs.Parser.Failures
import Eligibility.Proofs.Parser.Misfit
import Eligibility.Proofs.Parser.Moved
import Eligibility.Proofs.Parser.Offsets
import Eligibility.Proofs.Parser.Relaxed
import Eligibility.Proofs.Parser.Respelled
import Eligibility.Proofs.Parser.Run
import Eligibility.Proofs.Parser.Transitions
import Eligibility.Proofs.Record.Answers
import Eligibility.Proofs.Render.Nesting
import Eligibility.Proofs.Render.Parentheses
import Eligibility.Proofs.Render.RoundTrip
import Eligibility.Proofs.Render.Tokens
import Eligibility.Proofs.Rule.Invariant
import Eligibility.Proofs.Rule.Promise
import Eligibility.Proofs.Rule.Restored
import Eligibility.Proofs.Rule.Untrusted
import Eligibility.Proofs.RuleBook.Body
import Eligibility.Proofs.RuleBook.Layout
import Eligibility.Proofs.RuleBook.Names
import Eligibility.Proofs.RuleBook.Reading
import Eligibility.Proofs.RuleBook.Sections
import Eligibility.Proofs.RuleBook.Written
import Eligibility.Proofs.RuleSet.Calls
import Eligibility.Proofs.RuleSet.Chain
import Eligibility.Proofs.RuleSet.Checked
import Eligibility.Proofs.RuleSet.Detailed
import Eligibility.Proofs.RuleSet.Growth
import Eligibility.Proofs.RuleSet.Order
import Eligibility.Proofs.Schema.Conforming
import Eligibility.Proofs.Stored.Accepted
import Eligibility.Proofs.Stored.Compact
import Eligibility.Proofs.Stored.Damage
import Eligibility.Proofs.Stored.Height
import Eligibility.Proofs.Stored.Length
import Eligibility.Proofs.Stored.Overlong
import Eligibility.Proofs.Stored.Payload
import Eligibility.Proofs.Stored.Restore
import Eligibility.Proofs.Stored.RoundTrip
import Eligibility.Proofs.Stored.Wire
import Eligibility.Proofs.Text.Submitted
import Eligibility.Proofs.Text.Trim
import Eligibility.Proofs.Token.Denotes
import Eligibility.Proofs.Token.Dissection
import Eligibility.Proofs.Token.Lexemes
import Eligibility.Proofs.Token.Literals
import Eligibility.Proofs.Token.Scans
import Eligibility.Proofs.Token.Writable
import Eligibility.Record
import Eligibility.Rule
import Eligibility.RuleBook
import Eligibility.RuleError
import Eligibility.RuleSet.Basic
import Eligibility.RuleSet.Builder
import Eligibility.RuleSet.File
import Eligibility.RuleSet.Report
import Eligibility.Schema
import Eligibility.Stored.Condition
import Eligibility.Stored.Frame
import Eligibility.Stored.Payload
import Eligibility.Stored.Wire
import Eligibility.Text.Blank
import Eligibility.Token.Basic
import Eligibility.Token.Lexer
import Eligibility.Value
