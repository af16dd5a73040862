import Eligibility.Proofs.Parser.Exact
import Eligibility.Proofs.Parser.Failures
import Eligibility.Proofs.Token.Yields

/-!
# Errors are located at what they name

A text that is no expression fails to be cut, at the first place where no lexeme stands, or its
tokens fail to be read, at one of them or at the end.  Both ways the place in the error is a place
in the text, counted in bytes, however wide the characters before it are and however long ago that
place was read.

## Main definitions

* `ParseError.AtFault source err` : the text cannot be cut at the place of the error.
* `ParseError.InPlace limits source err` : the error is located at what it names in the text.

## Main results

* `ParseError.PointsAt.empty_or_missing_or_mem` : an error of reading is at a token, or at an end.
* `Expr.inPlace_of_parse` : **every error of reading a text is located at what it names.**
-/

namespace Eligibility

variable {limits : Limits} {source : String} {err : ParseError} {ts : List Located}

/-! ### Errors at tokens -/

theorem Outgrows.exists_mem {limit i : Nat} (h : Outgrows limit ts i) : ∃ t ∈ ts, t.offset = i := by
  cases h with
  | @join c before us vs after l r i m n hts =>
    refine ⟨⟨c.token, i⟩, ?_, rfl⟩
    simp [hts]
  | @not before us after e i n hts =>
    refine ⟨⟨.not, i⟩, ?_, rfl⟩
    simp [hts]
  | @comparison before us after field e i n hts =>
    refine ⟨⟨.ident field, i⟩, ?_, rfl⟩
    simp [hts]

/-- An error of reading is at a token unless there are none or something is missing at the end. -/
theorem ParseError.PointsAt.empty_or_missing_or_mem {stop : Nat} (h : err.PointsAt limits stop ts) :
    err = ⟨.empty, 0⟩ ∨ (∃ expected, err = ⟨.missing expected, stop⟩) ∨
      (err.kind ≠ .empty ∧ (∀ expected, err.kind ≠ .missing expected) ∧
        ∃ t ∈ ts, t.offset = err.offset) := by
  cases h with
  | empty => exact .inl rfl
  | missing expected => exact .inr (.inl ⟨expected, rfl⟩)
  | unexpected _ hmem | trailing hmem | unmatchedParen hmem =>
    exact .inr (.inr ⟨nofun, nofun, _, hmem, rfl⟩)
  | @nestingTooDeep before after t hts =>
    exact .inr (.inr ⟨nofun, nofun, t, by simp [hts], rfl⟩)
  | treeTooDeep houtgrows => exact .inr (.inr ⟨nofun, nofun, houtgrows.exists_mem⟩)

/-! ### Places in the text -/

/-- Up to the place of the error the text is layout and lexemes, and there it starts with no lexeme,
for the reason that the error states. -/
def ParseError.AtFault (source : String) (err : ParseError) : Prop :=
  ∃ before rest ts, source.toList = before ++ rest ∧ err.offset = Token.byteLength before ∧
    Token.Yields 0 before rest ts ∧ Lexeme.Faulty err.kind rest

/-- The error is located at what it names in the text. -/
structure ParseError.InPlace (limits : Limits) (source : String) (err : ParseError) : Prop where
  /-- It is not behind the end of the text. -/
  le_end : err.offset ≤ source.utf8ByteSize
  /-- It is between two characters, or at one of the ends. -/
  isValid : String.Pos.Raw.IsValid source ⟨err.offset⟩
  /-- If there are no tokens, it is at the beginning. -/
  eq_zero : err.kind = .empty → err.offset = 0
  /-- If something is missing, it is at the end. -/
  eq_end : ∀ expected, err.kind = .missing expected → err.offset = source.utf8ByteSize
  /-- Otherwise a character other than layout starts there. -/
  startsAt : err.kind ≠ .empty → (∀ expected, err.kind ≠ .missing expected) →
    Token.StartsAt source.toList err.offset
  /-- The text cannot be cut there, or else it is cut into tokens, and the error points at what it
  names among them. -/
  named : err.AtFault source ∨
    ∃ ts, Token.Yields 0 source.toList [] ts ∧ err.PointsAt limits source.utf8ByteSize ts

namespace ParseError

theorem inPlace_of_startsAt (hempty : err.kind ≠ .empty)
    (hmissing : ∀ expected, err.kind ≠ .missing expected)
    (hstarts : Token.StartsAt source.toList err.offset)
    (hnamed : err.AtFault source ∨
      ∃ ts, Token.Yields 0 source.toList [] ts ∧ err.PointsAt limits source.utf8ByteSize ts) :
    err.InPlace limits source where
  le_end := hstarts.isValid.le_utf8ByteSize
  isValid := hstarts.isValid
  eq_zero := fun h => absurd h hempty
  eq_end := fun expected h => absurd h (hmissing expected)
  startsAt := fun _ _ => hstarts
  named := hnamed

/-- An error of cutting a text is located at what cannot be cut. -/
theorem inPlace_of_scanText (h : Token.scanText source = .error err) :
    err.InPlace limits source := by
  obtain ⟨before, rest, ts, happ, hoffset, hyields, hfaulty, hlayout⟩ := Token.scan_eq_error h
  rw [Nat.zero_add] at hoffset
  -- no fault is of the kinds that are located at an end, and none is behind the last character
  have hkind : (err.kind ≠ .empty ∧ ∀ expected, err.kind ≠ .missing expected) ∧ rest ≠ [] := by
    generalize err.kind = kind at hfaulty
    cases hfaulty with
    | unterminatedString | minus | unrecognized => exact ⟨⟨nofun, nofun⟩, List.cons_ne_nil _ _⟩
    | unknownOperator hne => exact ⟨⟨nofun, nofun⟩, by simp [hne]⟩
    | numberOutOfRange hne => exact ⟨⟨nofun, nofun⟩, by simp [Lexeme.numeral, hne]⟩
  obtain ⟨⟨hempty, hmissing⟩, hrest⟩ := hkind
  obtain ⟨c, cs, rfl⟩ := List.exists_cons_of_ne_nil hrest
  refine inPlace_of_startsAt hempty hmissing ⟨before, c, cs, happ, hlayout c rfl, hoffset⟩ ?_
  exact .inl ⟨before, c :: cs, ts, happ, hoffset, hyields, hfaulty⟩

/-- An error that points at what it names among the tokens of a text does so in the text. -/
theorem PointsAt.inPlace (h : err.PointsAt limits source.utf8ByteSize ts)
    (hyields : Token.Yields 0 source.toList [] ts) : err.InPlace limits source := by
  have hnamed : err.AtFault source ∨ ∃ ts, Token.Yields 0 source.toList [] ts ∧
      err.PointsAt limits source.utf8ByteSize ts := .inr ⟨ts, hyields, h⟩
  rcases h.empty_or_missing_or_mem with rfl | ⟨expected, rfl⟩ | ⟨hempty, hmissing, t, hmem, hoffset⟩
  · exact {
      le_end := Nat.zero_le _
      isValid := String.Pos.Raw.isValid_zero
      eq_zero := fun _ => rfl
      eq_end := nofun
      startsAt := fun hne => absurd rfl hne
      named := hnamed }
  · exact {
      le_end := Nat.le_refl _
      isValid := String.Pos.Raw.isValid_rawEndPos
      eq_zero := nofun
      eq_end := fun _ _ => rfl
      startsAt := fun _ hne => absurd rfl (hne expected)
      named := hnamed }
  · refine inPlace_of_startsAt hempty hmissing ?_ hnamed
    rw [← hoffset]
    exact hyields.startsAt_of_mem t hmem

end ParseError

/-- **Every error of reading a text is located at what it names.**  Its place is within the text and
between two characters: the end if something is missing there, the beginning if there are no tokens,
and otherwise the first byte of a character that is no layout.  If the text cannot be cut, that
character starts what is no lexeme.  If it can, the place is that of the token that was found, of a
parenthesis without partner, of a parenthesis or a negation inside as many as may be open, or of the
topmost token of a part that is one level too high while its operands are not. -/
theorem Expr.inPlace_of_parse (h : parse limits source = .error err) :
    err.InPlace limits source := by
  cases hscan : Token.scanText source with
  | error err' =>
    rw [parse, hscan] at h
    obtain rfl := Except.error.inj h
    exact ParseError.inPlace_of_scanText hscan
  | ok ts =>
    rw [parse_of_scanText hscan] at h
    exact (pointsAt_of_ofTokens h).inPlace (Token.yields_iff_scan.2 hscan)

/-- The negation is the one that is too high, behind a character of two bytes.  That shows only once
the disjunction in its group is complete. -/
theorem Expr.inPlace_of_negated_disjunction :
    let source := "a == 'é' AND NOT (b == 1 OR c == 2)"
    parse ⟨64, 2⟩ source = .error ⟨.treeTooDeep 2, 14⟩ ∧
      String.Pos.Raw.IsValid source ⟨14⟩ ∧
      ∃ ts, Token.Yields 0 source.toList [] ts ∧ Outgrows 2 ts 14 := by
  intro source
  have hparse : parse ⟨64, 2⟩ source = .error ⟨.treeTooDeep 2, 14⟩ := by decide +kernel
  have hplace := inPlace_of_parse hparse
  refine ⟨hparse, hplace.isValid, ?_⟩
  rcases hplace.named with ⟨_, _, _, -, -, -, hfaulty⟩ | ⟨ts, hyields, hpoints⟩
  · cases hfaulty
  · cases hpoints with
    | treeTooDeep houtgrows => exact ⟨ts, hyields, houtgrows⟩

end Eligibility
