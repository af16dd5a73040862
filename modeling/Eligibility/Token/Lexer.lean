import Eligibility.ParseError

/-!
# Cutting a text into tokens

A text is layout and lexemes.  A lexeme is a parenthesis, a word, a run of operator characters, a
text between quotes without any escapes, or a numeral without exponent; each one is as long as it
can be.

## Main definitions

* `Token.isLayout`, `Token.isWordStart`, `Token.isWordChar`, `Token.isOperatorChar` : the classes of
  characters.
* `Token.ofWord` : the keyword or field name that a word denotes.
* `Lexeme`, `Lexeme.cut` : a token with its characters, and the one at the front of a text.
* `Token.scan`, `Token.scanText` : all tokens of a text, each with its byte offset.

## Main results

* `Lexeme.cut_append` : a lexeme and what it leaves make up the text.
-/

namespace Eligibility

namespace Token

/-- The characters between lexemes: space, tab, carriage return and line feed. -/
def isLayout (c : Char) : Bool :=
  c == ' ' || c == '\t' || c == '\r' || c == '\n'

/-- The characters that a word may start with. -/
def isWordStart (c : Char) : Bool :=
  c.isAlpha || c == '_'

/-- The characters that a word may go on with. -/
def isWordChar (c : Char) : Bool :=
  c.isAlphanum || c == '_'

/-- The characters of operators. -/
def isOperatorChar (c : Char) : Bool :=
  c == '<' || c == '>' || c == '=' || c == '!'

/-- The token that a word denotes: a keyword in any mixture of cases, or else a field name. -/
def ofWord (word : List Char) : Token :=
  let lower := word.map Char.toLower
  if lower = ['a', 'n', 'd'] then .and
  else if lower = ['o', 'r'] then .or
  else if lower = ['n', 'o', 't'] then .not
  else .ident (String.ofList word)

end Token

/-- A token with the characters that denote it. -/
structure Lexeme where
  /-- The characters. -/
  text : List Char
  /-- The token that they denote. -/
  token : Token

namespace Lexeme

/-- A point and at least one digit: the digits, and the text after them.  Without both, there are
no digits and nothing is taken off the text. -/
def cutFraction : List Char → List Char × List Char
  | '.' :: cs =>
    if cs.takeWhile Char.isDigit = [] then ([], '.' :: cs)
    else (cs.takeWhile Char.isDigit, cs.dropWhile Char.isDigit)
  | cs => ([], cs)

/-- The characters of a numeral with the given parts. -/
def numeral (negative : Bool) (whole fraction : List Char) : List Char :=
  (if negative then ['-'] else []) ++ whole ++ (if fraction = [] then [] else '.' :: fraction)

/-- The numeral at the front of a text, after its minus sign if it has one. -/
def cutNumber (negative : Bool) (cs : List Char) :
    Except ParseError.Kind (Lexeme × List Char) :=
  let whole := cs.takeWhile Char.isDigit
  let (fraction, rest) := cutFraction (cs.dropWhile Char.isDigit)
  let text := numeral negative whole fraction
  let value := (Decimal.ofDigits whole fraction).round negative
  if whole = [] then .error (.unrecognized '-')
  else if value.isFinite then .ok (⟨text, .number value⟩, rest)
  else .error (.numberOutOfRange (String.ofList text))

/-- The text literal after an opening quote: everything up to the next such quote. -/
def cutQuoted (quote : Char) (cs : List Char) : Except ParseError.Kind (Lexeme × List Char) :=
  let body := cs.takeWhile (· ≠ quote)
  match cs.dropWhile (· ≠ quote) with
  | [] => .error .unterminatedString
  | _ :: rest => .ok (⟨quote :: body ++ [quote], .text (String.ofList body)⟩, rest)

/-- The lexeme at the front of a text that starts with `c`, and the text after it. -/
def cut (c : Char) (cs : List Char) : Except ParseError.Kind (Lexeme × List Char) :=
  if c = '(' then .ok (⟨[c], .lparen⟩, cs)
  else if c = ')' then .ok (⟨[c], .rparen⟩, cs)
  else if c = '\'' ∨ c = '"' then cutQuoted c cs
  else if c = '-' then cutNumber true cs
  else if c.isDigit then cutNumber false (c :: cs)
  else if Token.isOperatorChar c then
    let run := c :: cs.takeWhile Token.isOperatorChar
    match CompareOp.ofSymbol? (String.ofList run) with
    | some op => .ok (⟨run, .op op⟩, cs.dropWhile Token.isOperatorChar)
    | none => .error (.unknownOperator (String.ofList run))
  else if Token.isWordStart c then
    let word := c :: cs.takeWhile Token.isWordChar
    .ok (⟨word, .ofWord word⟩, cs.dropWhile Token.isWordChar)
  else .error (.unrecognized c)

/-! ### A lexeme is a piece of the text -/

theorem cutFraction_append {cs fraction rest : List Char} (h : cutFraction cs = (fraction, rest)) :
    (if fraction = [] then [] else '.' :: fraction) ++ rest = cs := by
  unfold cutFraction at h
  split at h
  · split at h
    · obtain ⟨rfl, rfl⟩ := Prod.mk.inj h
      rfl
    · rename_i hne
      obtain ⟨rfl, rfl⟩ := Prod.mk.inj h
      rw [if_neg hne, List.cons_append, List.takeWhile_append_dropWhile]
  · obtain ⟨rfl, rfl⟩ := Prod.mk.inj h
    rfl

theorem cutNumber_append {negative : Bool} {cs rest : List Char} {l : Lexeme}
    (h : cutNumber negative cs = .ok (l, rest)) :
    l.text ≠ [] ∧ l.text ++ rest = (if negative then ['-'] else []) ++ cs := by
  cases hf : cutFraction (cs.dropWhile Char.isDigit) with
  | mk fraction rest' =>
    simp only [cutNumber, hf] at h
    split at h
    · cases h
    rename_i hwhole
    split at h
    · obtain ⟨rfl, rfl⟩ := Prod.mk.inj (Except.ok.inj h)
      refine ⟨by simp [numeral, hwhole], ?_⟩
      simp only [numeral, List.append_assoc, cutFraction_append hf, List.takeWhile_append_dropWhile]
    · cases h

theorem cutQuoted_append {quote : Char} {cs rest : List Char} {l : Lexeme}
    (h : cutQuoted quote cs = .ok (l, rest)) : l.text ≠ [] ∧ l.text ++ rest = quote :: cs := by
  unfold cutQuoted at h
  cases hd : cs.dropWhile (· ≠ quote) with
  | nil =>
    rw [hd] at h
    cases h
  | cons c cs' =>
    -- the first character that is no longer different from the quote is the quote
    have hc : c = quote := by
      have := List.head?_dropWhile_not (· ≠ quote) cs
      rw [hd] at this
      simpa using this
    rw [hd] at h
    obtain ⟨rfl, rfl⟩ := Prod.mk.inj (Except.ok.inj h)
    have hsplit := List.takeWhile_append_dropWhile (p := (· ≠ quote)) (l := cs)
    rw [hd, hc] at hsplit
    exact ⟨by simp, by simpa using hsplit⟩

/-- **A lexeme is not empty, and with what it leaves makes up the text it was cut from.** -/
theorem cut_append {c : Char} {cs rest : List Char} {l : Lexeme}
    (h : cut c cs = .ok (l, rest)) : l.text ≠ [] ∧ l.text ++ rest = c :: cs := by
  simp only [cut] at h
  split at h
  · obtain ⟨rfl, rfl⟩ := Prod.mk.inj (Except.ok.inj h)
    exact ⟨by simp, rfl⟩
  split at h
  · obtain ⟨rfl, rfl⟩ := Prod.mk.inj (Except.ok.inj h)
    exact ⟨by simp, rfl⟩
  split at h
  · exact cutQuoted_append h
  split at h
  · rename_i hc
    rw [hc]
    exact cutNumber_append h
  split at h
  · exact cutNumber_append h
  split at h
  · split at h
    · obtain ⟨rfl, rfl⟩ := Prod.mk.inj (Except.ok.inj h)
      exact ⟨by simp, by simp [List.takeWhile_append_dropWhile]⟩
    · cases h
  split at h
  · obtain ⟨rfl, rfl⟩ := Prod.mk.inj (Except.ok.inj h)
    exact ⟨by simp, by simp [List.takeWhile_append_dropWhile]⟩
  · cases h

theorem length_lt_of_cut {c : Char} {cs rest : List Char} {l : Lexeme}
    (h : cut c cs = .ok (l, rest)) : rest.length < (c :: cs).length := by
  obtain ⟨hne, happ⟩ := cut_append h
  have hpos := List.length_pos_iff.2 hne
  have hlen := congrArg List.length happ
  rw [List.length_append] at hlen
  omega

end Lexeme

namespace Token

/-- How many bytes a text takes. -/
def byteLength : List Char → Nat
  | [] => 0
  | c :: cs => c.utf8Size + byteLength cs

@[simp] theorem byteLength_nil : byteLength [] = 0 := rfl

@[simp] theorem byteLength_cons (c : Char) (cs : List Char) :
    byteLength (c :: cs) = c.utf8Size + byteLength cs := rfl

@[simp] theorem byteLength_append (cs ds : List Char) :
    byteLength (cs ++ ds) = byteLength cs + byteLength ds := by
  induction cs with
  | nil => rw [List.nil_append, byteLength_nil, Nat.zero_add]
  | cons c cs ih => rw [List.cons_append, byteLength_cons, byteLength_cons, ih, Nat.add_assoc]

/-- The bytes of the characters are the bytes of the text. -/
theorem utf8ByteSize_ofList (cs : List Char) :
    (String.ofList cs).utf8ByteSize = byteLength cs := by
  induction cs with
  | nil => rfl
  | cons c cs ih =>
    rw [String.ofList_cons, String.utf8ByteSize_append, String.utf8ByteSize_singleton, ih,
      byteLength_cons]

/-- The tokens of a text, whose first character stands at the given byte offset. -/
def scan (offset : Nat) : List Char → Except ParseError (List Located)
  | [] => .ok []
  | c :: cs =>
    if isLayout c then scan (offset + 1) cs
    else
      match _h : Lexeme.cut c cs with
      | .error kind => .error ⟨kind, offset⟩
      | .ok (l, rest) =>
        (scan (offset + byteLength l.text) rest).map (⟨l.token, offset⟩ :: ·)
termination_by cs => cs.length
decreasing_by
  · simp
  · exact Lexeme.length_lt_of_cut _h

/-- The tokens of a text. -/
def scanText (s : String) : Except ParseError (List Located) :=
  scan 0 s.toList

end Token

end Eligibility
