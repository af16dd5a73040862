import Eligibility.Proofs.Token.Literals
import Eligibility.Proofs.Token.Writable

/-!
# The lexemes of the language

Which lexemes there are, and before which rest of a text each of them ends, can be said without
cutting a text: a lexeme ends where no character follows that it could go on with.  A text starts
with one such lexeme or with none, and cutting finds it.

## Main definitions

* `Lexeme.Stands l rest` : `l` is a lexeme, and it ends before `rest`.
* `Lexeme.classes` : the classes of characters that lexemes go on with.
* `Lexeme.isPlain` : the characters of lexemes outside quotes.

## Main results

* `Lexeme.cut_eq_ok_iff` : **cutting takes the lexeme off that stands at the front of a text.**
* `Lexeme.Stands.of_classes`, `Lexeme.Stands.congr` : a lexeme that ends before one rest ends before
  others as well.
* `Lexeme.Stands.plain_or_quoted`, `Lexeme.Stands.isBlank_ends` : the characters of a lexeme.
-/

namespace Eligibility

namespace Lexeme

/-- A lexeme, and a rest of a text before which it ends. -/
inductive Stands : Lexeme → List Char → Prop
  /-- An opening parenthesis. -/
  | lparen {rest : List Char} : Stands ⟨['('], .lparen⟩ rest
  /-- A closing parenthesis. -/
  | rparen {rest : List Char} : Stands ⟨[')'], .rparen⟩ rest
  /-- A text between quotes that it does not hold. -/
  | quoted {quote : Char} {body rest : List Char} (hquote : quote = '\'' ∨ quote = '"')
      (hbody : quote ∉ body) :
    Stands ⟨quote :: (body ++ [quote]), .text (String.ofList body)⟩ rest
  /-- A numeral of finite value, before no digit that would belong to it. -/
  | number {negative : Bool} {whole fraction rest : List Char} (hne : whole ≠ [])
      (hwhole : whole.all Char.isDigit = true) (hfraction : fraction.all Char.isDigit = true)
      (hfinite : ((Decimal.ofDigits whole fraction).round negative).isFinite = true)
      (hrest : NumberStops fraction rest) :
    Stands ⟨numeral negative whole fraction,
      .number ((Decimal.ofDigits whole fraction).round negative)⟩ rest
  /-- An operator, before no further character of operators. -/
  | operator {op : CompareOp} {rest : List Char}
      (hrest : ∀ c ∈ rest.head?, Token.isOperatorChar c = false) :
    Stands ⟨op.symbol.toList, .op op⟩ rest
  /-- A word, before no further character of words. -/
  | word {c : Char} {cs rest : List Char} (hc : Token.isWordStart c = true)
      (hcs : cs.all Token.isWordChar = true)
      (hrest : ∀ c ∈ rest.head?, Token.isWordChar c = false) :
    Stands ⟨c :: cs, .ofWord (c :: cs)⟩ rest

variable {c : Char} {cs rest other : List Char} {l : Lexeme}

/-! ### Cutting finds lexemes -/

/-- What is left of a text after a run of characters of a class does not start with one of it. -/
theorem stop_dropWhile (p : Char → Bool) (cs : List Char) :
    ∀ c ∈ (cs.dropWhile p).head?, p c = false := by
  intro c hc
  have hstop := List.head?_dropWhile_not p cs
  rw [Option.mem_def.1 hc] at hstop
  exact hstop

/-- A text starts with its first character only. -/
theorem stop_cons {p : Char → Bool} (hc : p c = false) (cs : List Char) :
    ∀ d ∈ (c :: cs).head?, p d = false := by
  intro d hd
  obtain rfl := Option.some.inj hd
  exact hc

/-- A fraction is cut off unless there are no digits behind the point. -/
theorem numberStops_of_cutFraction {fraction : List Char} (hcs : ∀ c ∈ cs.head?, c.isDigit = false)
    (h : cutFraction cs = (fraction, rest)) :
    fraction.all Char.isDigit = true ∧ NumberStops fraction rest := by
  unfold cutFraction at h
  split at h
  · rename_i ds
    split at h
    · rename_i hnone
      obtain ⟨rfl, rfl⟩ := Prod.mk.inj h
      refine ⟨rfl, hcs, ?_⟩
      rintro - d ds' hds
      obtain rfl := (List.cons.inj hds).2
      cases hd : d.isDigit with
      | false => rfl
      | true => simp [hd] at hnone
    · rename_i hsome
      obtain ⟨rfl, rfl⟩ := Prod.mk.inj h
      exact ⟨List.all_takeWhile, stop_dropWhile _ ds, fun hnil => absurd hnil hsome⟩
  · rename_i hpoint
    obtain ⟨rfl, rfl⟩ := Prod.mk.inj h
    exact ⟨rfl, hcs, fun _ d ds hds => absurd hds (hpoint (d :: ds))⟩

theorem stands_of_cutNumber {negative : Bool} (h : cutNumber negative cs = .ok (l, rest)) :
    l.Stands rest := by
  cases hf : cutFraction (cs.dropWhile Char.isDigit) with
  | mk fraction rest' =>
    simp only [cutNumber, hf] at h
    split at h
    · cases h
    rename_i hne
    split at h
    · rename_i hfinite
      obtain ⟨rfl, rfl⟩ := Prod.mk.inj (Except.ok.inj h)
      obtain ⟨hfraction, hrest⟩ := numberStops_of_cutFraction (stop_dropWhile _ cs) hf
      exact .number hne List.all_takeWhile hfraction hfinite hrest
    · cases h

theorem stands_of_cutQuoted {quote : Char} (hquote : quote = '\'' ∨ quote = '"')
    (h : cutQuoted quote cs = .ok (l, rest)) : l.Stands rest := by
  unfold cutQuoted at h
  split at h
  · cases h
  · obtain ⟨rfl, rfl⟩ := Prod.mk.inj (Except.ok.inj h)
    exact .quoted hquote (notMem_takeWhile_ne quote cs)

theorem stands_of_cut (h : cut c cs = .ok (l, rest)) : l.Stands rest := by
  simp only [cut] at h
  split at h
  · rename_i hc
    obtain ⟨rfl, rfl⟩ := Prod.mk.inj (Except.ok.inj h)
    exact hc ▸ .lparen
  split at h
  · rename_i hc
    obtain ⟨rfl, rfl⟩ := Prod.mk.inj (Except.ok.inj h)
    exact hc ▸ .rparen
  split at h
  · rename_i hquote
    exact stands_of_cutQuoted hquote h
  split at h
  · exact stands_of_cutNumber h
  split at h
  · exact stands_of_cutNumber h
  split at h
  · split at h
    · rename_i op hop
      obtain ⟨rfl, rfl⟩ := Prod.mk.inj (Except.ok.inj h)
      have hsymbol := CompareOp.ofSymbol?_eq_some_iff.1 hop
      have hchars : c :: cs.takeWhile Token.isOperatorChar = op.symbol.toList := by
        rw [← hsymbol, String.toList_ofList]
      rw [hchars]
      exact .operator (stop_dropWhile _ cs)
    · cases h
  split at h
  · rename_i hc
    obtain ⟨rfl, rfl⟩ := Prod.mk.inj (Except.ok.inj h)
    exact .word hc List.all_takeWhile (stop_dropWhile _ cs)
  · cases h

/-! ### Lexemes are found by cutting -/

/-- A lexeme has a first character, which is not layout, and is cut off by it. -/
theorem Stands.cut_eq (h : l.Stands rest) : ∃ c cs, l.text = c :: cs ∧
    Token.isLayout c = false ∧ cut c (cs ++ rest) = .ok (l, rest) := by
  cases h with
  | lparen => exact ⟨'(', [], rfl, rfl, rfl⟩
  | rparen => exact ⟨')', [], rfl, rfl, rfl⟩
  | @quoted quote body _ hquote hbody => exact ⟨_, _, rfl, Token.cut_quoted hquote hbody rest⟩
  | @number negative whole fraction _ hne hwhole hfraction hfinite hrest =>
    have hnil : numeral negative whole fraction ≠ [] := by
      simp [numeral, hne]
    obtain ⟨c, cs, hnumeral⟩ := List.exists_cons_of_ne_nil hnil
    have hcut := Token.cut_numeral hnumeral hne hwhole hfraction hfinite hrest
    rw [← hnumeral] at hcut
    exact ⟨c, cs, hnumeral, hcut⟩
  | @operator op _ hrest =>
    obtain ⟨c, cs, hsymbol⟩ : ∃ c cs, op.symbol.toList = c :: cs := by
      cases op <;> exact ⟨_, _, rfl⟩
    have hcut := Token.cut_operator hsymbol hrest
    rw [← hsymbol] at hcut
    exact ⟨c, cs, hsymbol, hcut⟩
  | word hc hcs hrest => exact ⟨_, _, rfl, Token.cut_word hc hcs hrest⟩

theorem Stands.text_ne_nil (h : l.Stands rest) : l.text ≠ [] := by
  obtain ⟨c, cs, htext, -, -⟩ := h.cut_eq
  rw [htext]
  exact List.cons_ne_nil c cs

/-- **Cutting takes the lexeme off that stands at the front of a text.** -/
theorem cut_eq_ok_iff : cut c cs = .ok (l, rest) ↔ l.text ++ rest = c :: cs ∧ l.Stands rest := by
  constructor
  · intro h
    exact ⟨(cut_append h).2, stands_of_cut h⟩
  · rintro ⟨happ, hstands⟩
    obtain ⟨d, ds, htext, -, hcut⟩ := hstands.cut_eq
    rw [htext, List.cons_append] at happ
    obtain ⟨rfl, rfl⟩ := List.cons.inj happ
    exact hcut

/-! ### Other rests -/

/-- The classes of the characters that lexemes go on with, but for points. -/
def classes : List (Char → Bool) := [Char.isDigit, Token.isOperatorChar, Token.isWordChar]

/-- **A lexeme that ends before one rest ends before others as well**: before a rest that starts
with no character of a class that the first rest does not start with.  A point is left out, since
what is behind it matters. -/
theorem Stands.of_classes (h : l.Stands rest) (hpoint : ∀ c ∈ other.head?, c ≠ '.')
    (hclass : ∀ p ∈ classes, (∀ c ∈ rest.head?, p c = false) → ∀ c ∈ other.head?, p c = false) :
    l.Stands other := by
  cases h with
  | lparen => exact .lparen
  | rparen => exact .rparen
  | quoted hquote hbody => exact .quoted hquote hbody
  | number hne hwhole hfraction hfinite hrest =>
    refine .number hne hwhole hfraction hfinite ⟨hclass _ (by simp [classes]) hrest.digit, ?_⟩
    rintro - d ds rfl
    exact absurd rfl (hpoint '.' rfl)
  | operator hrest => exact .operator (hclass _ (by simp [classes]) hrest)
  | word hc hcs hrest => exact .word hc hcs (hclass _ (by simp [classes]) hrest)

/-- No class has layout or a closing parenthesis in it. -/
theorem stop_of_mem_classes {p : Char → Bool} (hp : p ∈ classes) (hother : Token.Boundary other) :
    ∀ c ∈ other.head?, p c = false := by
  refine hother.stop ?_
  simp only [classes, List.mem_cons, List.not_mem_nil, or_false] at hp
  rcases hp with rfl | rfl | rfl <;> decide

/-- In particular it ends before a rest that starts alike, before layout and before a closing
parenthesis. -/
theorem Stands.congr (h : l.Stands rest) (hother : ∀ c ∈ other.head?, c ≠ '.' ∧
    (c ∈ rest.head? ∨ Token.isLayout c = true ∨ c = ')')) : l.Stands other := by
  refine h.of_classes (fun c hc => (hother c hc).1) fun p hp hstop c hc => ?_
  rcases (hother c hc).2 with hsame | hboundary
  · exact hstop c hsame
  · have hstops : Token.Boundary [c] := by
      intro d hd
      obtain rfl := Option.some.inj hd
      exact hboundary
    exact stop_of_mem_classes hp hstops c rfl

/-! ### The characters of a lexeme -/

/-- The characters of the lexemes that are no texts. -/
def isPlain (c : Char) : Bool :=
  c == '(' || c == ')' || c == '-' || c == '.' || Token.isOperatorChar c || Token.isWordChar c

theorem isPlain_of_isWordChar (hc : Token.isWordChar c = true) : isPlain c = true := by
  simp [isPlain, hc]

theorem isPlain_of_isWordStart (hc : Token.isWordStart c = true) : isPlain c = true := by
  refine isPlain_of_isWordChar ?_
  rw [Token.isWordStart, Bool.or_eq_true] at hc
  rcases hc with hc | hc <;> simp [Token.isWordChar, Char.isAlphanum, hc]

theorem isPlain_of_isDigit (hc : c.isDigit = true) : isPlain c = true :=
  isPlain_of_isWordChar (by simp [Token.isWordChar, Char.isAlphanum, hc])

/-- Letters and digits lie between the space and the delete character. -/
theorem toNat_of_isAlphanum (hc : c.isAlphanum = true) : 0x20 < c.toNat ∧ c.toNat < 0x7F := by
  have hclasses : ((decide ('A'.val ≤ c.val ∧ c.val ≤ 'Z'.val) ||
      (decide ('a'.val ≤ c.val) && decide (c.val ≤ 'z'.val))) ||
      (decide ('0'.val ≤ c.val) && decide (c.val ≤ '9'.val))) = true := hc
  simp only [Bool.or_eq_true, Bool.and_eq_true, decide_eq_true_eq,
    UInt32.le_iff_toNat_le] at hclasses
  have hranges : ((65 ≤ c.toNat ∧ c.toNat ≤ 90) ∨ (97 ≤ c.toNat ∧ c.toNat ≤ 122)) ∨
      (48 ≤ c.toNat ∧ c.toNat ≤ 57) := hclasses
  omega

/-- No plain character is a blank. -/
theorem isBlank_of_isPlain (hc : isPlain c = true) : Text.isBlank c = false := by
  simp only [isPlain, Token.isOperatorChar, Token.isWordChar, Bool.or_eq_true, beq_iff_eq] at hc
  rcases hc with ((((rfl | rfl) | rfl) | rfl) | ((rfl | rfl) | rfl) | rfl) | hc | rfl
  case inr.inl =>
    have hbounds := toNat_of_isAlphanum hc
    simp only [Text.isBlank, Bool.or_eq_false_iff, Bool.and_eq_false_iff, decide_eq_false_iff_not,
      beq_eq_false_iff_ne]
    omega
  all_goals rfl

theorem all_isPlain_numeral {negative : Bool} {whole fraction : List Char}
    (hwhole : whole.all Char.isDigit = true) (hfraction : fraction.all Char.isDigit = true) :
    (numeral negative whole fraction).all isPlain = true := by
  have hdigits : ∀ ds : List Char, ds.all Char.isDigit = true → ds.all isPlain = true := by
    intro ds hds
    rw [List.all_eq_true] at hds ⊢
    exact fun d hd => isPlain_of_isDigit (hds d hd)
  rw [numeral, List.all_append, List.all_append, hdigits whole hwhole, Bool.and_true,
    Bool.and_eq_true]
  constructor
  · cases negative <;> rfl
  · split
    · rfl
    · rw [List.all_cons, hdigits fraction hfraction]
      rfl

/-- A lexeme consists of plain characters, or else it is a text between quotes. -/
theorem Stands.plain_or_quoted (h : l.Stands rest) : l.text.all isPlain = true ∨
    ∃ quote body, (quote = '\'' ∨ quote = '"') ∧ l.text = quote :: (body ++ [quote]) ∧
      l.token = .text (String.ofList body) := by
  cases h with
  | lparen => exact .inl rfl
  | rparen => exact .inl rfl
  | quoted hquote hbody => exact .inr ⟨_, _, hquote, rfl, rfl⟩
  | number hne hwhole hfraction hfinite hrest =>
    exact .inl (all_isPlain_numeral hwhole hfraction)
  | @operator op _ hrest =>
    left
    cases op <;> rfl
  | word hc hcs hrest =>
    left
    rw [List.all_cons, isPlain_of_isWordStart hc, Bool.true_and, List.all_eq_true]
    exact fun d hd => isPlain_of_isWordChar (List.all_eq_true.1 hcs d hd)

/-- A lexeme starts and ends with characters that are not blank. -/
theorem Stands.isBlank_ends (h : l.Stands rest) : (∀ c ∈ l.text.head?, Text.isBlank c = false) ∧
    ∀ c ∈ l.text.getLast?, Text.isBlank c = false := by
  rcases h.plain_or_quoted with hplain | ⟨quote, body, hquote, htext, -⟩
  · rw [List.all_eq_true] at hplain
    constructor
    · exact fun c hc => isBlank_of_isPlain (hplain c (List.mem_of_mem_head? hc))
    · exact fun c hc => isBlank_of_isPlain (hplain c (List.mem_of_mem_getLast? hc))
  · have hends : Text.isBlank quote = false := by
      rcases hquote with rfl | rfl <;> rfl
    rw [htext]
    constructor
    · intro c hc
      obtain rfl := Option.some.inj hc
      exact hends
    · intro c hc
      rw [← List.cons_append, List.getLast?_concat] at hc
      obtain rfl := Option.some.inj hc
      exact hends

end Lexeme

end Eligibility
