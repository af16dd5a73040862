import Eligibility.Proofs.Token.Scans

/-!
# The tokens of written literals

A text stands between quotes that it does not hold itself.  A number is written by its digits, with
a point only if digits follow it; before a boundary the numeral cannot go on, so it is read whole,
and what is written for a number reads back as that number.

## Main definitions

* `Lexeme.NumberStops fraction rest` : a numeral does not go on into `rest`.
* `Value.token` : the token of a literal.

## Main results

* `Token.cut_quoted`, `Token.scans_quote` : a text in quotes.
* `Binary64.toList_text` : the numeral of a finite number, by its parts.
* `Token.cut_numeral`, `Token.scans_number` : a numeral, and the one of a finite number.
* `Token.scans_literal` : **a literal that can be written down is cut off as it is written.**
-/

namespace Eligibility

/-! ### Texts -/

namespace Lexeme

theorem cutQuoted_of_notMem {quote : Char} {body : List Char} (h : quote ∉ body)
    (rest : List Char) : cutQuoted quote (body ++ quote :: rest) =
      .ok (⟨quote :: body ++ [quote], .text (String.ofList body)⟩, rest) := by
  have hbody : body.all (fun c => decide (c ≠ quote)) = true := by
    rw [List.all_eq_true]
    intro c hc
    rw [decide_eq_true_eq]
    rintro rfl
    exact h hc
  have hstop : ∀ c ∈ (quote :: rest).head?, decide (c ≠ quote) = false := by
    intro c hc
    obtain rfl := Option.some.inj hc
    simp
  obtain ⟨htake, hdrop⟩ := Token.takeWhile_append_of_stop hbody hstop
  rw [cutQuoted, hdrop, htake]

end Lexeme

namespace Token

/-- A text between two quotes is cut off, whatever comes after it. -/
theorem cut_quoted {quote : Char} (hquote : quote = '\'' ∨ quote = '"') {body : List Char}
    (h : quote ∉ body) (rest : List Char) : isLayout quote = false ∧
      Lexeme.cut quote (body ++ [quote] ++ rest) =
        .ok (⟨quote :: (body ++ [quote]), .text (String.ofList body)⟩, rest) := by
  have hcut : Lexeme.cut quote (body ++ [quote] ++ rest) =
      Lexeme.cutQuoted quote (body ++ quote :: rest) := by
    rw [List.append_assoc, List.singleton_append]
    rcases hquote with rfl | rfl <;> rfl
  rw [hcut, Lexeme.cutQuoted_of_notMem h]
  refine ⟨?_, rfl⟩
  rcases hquote with rfl | rfl <;> rfl

theorem scans_between {quote : Char} (hquote : quote = '\'' ∨ quote = '"') {s : String}
    (h : quote ∉ s.toList) : Scans (quote :: (s.toList ++ [quote])) [.text s] := by
  have hcut := cut_quoted hquote h
  rw [String.ofList_toList] at hcut
  exact scans_of_cut (hcut []).1 fun rest _ => (hcut rest).2

/-- A text that leaves one of the quotes free is cut off as it is written. -/
theorem scans_quote {s : String} (h : (Value.text s).Representable) :
    Scans (Value.quote s).toList [.text s] := by
  unfold Value.quote
  split
  · rename_i hdouble
    have hsingle : '\'' ∉ s.toList := fun hsingle => h ⟨hsingle, by simpa using hdouble⟩
    have hscans := scans_between (.inl rfl) hsingle
    simpa using hscans
  · rename_i hdouble
    have hfree : '"' ∉ s.toList := by simpa using hdouble
    have hscans := scans_between (.inr rfl) hfree
    simpa using hscans

end Token

/-! ### Numerals -/

namespace Decimal

theorem all_isDigit_toDigits (n : Nat) : (Nat.toDigits 10 n).all Char.isDigit = true :=
  List.all_eq_true.2 fun _ hc => Nat.isDigit_of_mem_toDigits (by decide) (by decide) hc

theorem all_isDigit_wholeDigits (d : Decimal) : d.wholeDigits.all Char.isDigit = true :=
  all_isDigit_toDigits _

theorem wholeDigits_ne_nil (d : Decimal) : d.wholeDigits ≠ [] :=
  Nat.toDigits_ne_nil

theorem all_isDigit_fractionDigits (d : Decimal) : d.fractionDigits.all Char.isDigit = true := by
  unfold fractionDigits
  split
  · rfl
  · rw [List.leftpad, List.all_append, all_isDigit_toDigits, Bool.and_true, List.all_replicate]
    split <;> rfl

/-- The text of a decimal fraction is a numeral without a sign. -/
theorem chars_eq_numeral (d : Decimal) :
    d.chars = Lexeme.numeral false d.wholeDigits d.fractionDigits := by
  have hlength := d.length_fractionDigits
  unfold chars Lexeme.numeral
  by_cases hplaces : d.places = 0
  · have hnil : d.fractionDigits = [] := List.length_eq_zero_iff.1 (by omega)
    rw [if_pos hplaces, if_pos hnil, List.append_nil]
    rfl
  · have hne : d.fractionDigits ≠ [] := by
      intro hnil
      rw [hnil] at hlength
      exact hplaces hlength.symm
    rw [if_neg hplaces, if_neg hne]
    rfl

end Decimal

/-- The text of a finite number is the numeral of its shortest decimal fraction. -/
theorem Binary64.toList_text {x : Binary64} (hx : x.isFinite = true) :
    x.text.toList =
      Lexeme.numeral x.isNegative x.shortest.wholeDigits x.shortest.fractionDigits := by
  have hnan : ¬x.isNaN = true := by
    rw [isNaN_eq_false_of_isFinite hx]
    exact Bool.false_ne_true
  simp only [text]
  rw [if_neg hnan, if_pos hx]
  cases x.isNegative with
  | true =>
    rw [if_pos rfl, String.toList_append, Decimal.chars_eq_numeral]
    simp only [String.toList_ofList]
    rfl
  | false => rw [if_neg Bool.false_ne_true, String.toList_ofList, Decimal.chars_eq_numeral]

namespace Lexeme

variable {negative : Bool} {whole fraction rest : List Char}

/-- What a numeral leaves: no further digit, and no fraction if it has none. -/
structure NumberStops (fraction rest : List Char) : Prop where
  digit : ∀ c ∈ rest.head?, c.isDigit = false
  point : fraction = [] → ∀ d ds, rest = '.' :: d :: ds → d.isDigit = false

theorem NumberStops.of_boundary (h : Token.Boundary rest) : NumberStops fraction rest := by
  refine ⟨h.stop (by decide), ?_⟩
  rintro - d ds rfl
  exact absurd (h '.' rfl) (by decide)

theorem cutFraction_append_of_stop (hfraction : fraction.all Char.isDigit = true)
    (hrest : NumberStops fraction rest) :
    cutFraction ((if fraction = [] then [] else '.' :: fraction) ++ rest) = (fraction, rest) := by
  by_cases hnil : fraction = []
  · -- without a fraction the point, if there is one, is not the numeral's
    rw [if_pos hnil, hnil, List.nil_append]
    unfold cutFraction
    split
    · rename_i cs
      have hdigits : cs.takeWhile Char.isDigit = [] := by
        cases cs with
        | nil => rfl
        | cons d ds => simp [hrest.point hnil d ds rfl]
      rw [if_pos hdigits]
    · rfl
  · obtain ⟨htake, hdrop⟩ := Token.takeWhile_append_of_stop hfraction hrest.digit
    rw [if_neg hnil, List.cons_append, cutFraction, htake, hdrop, if_neg hnil]

/-- **A numeral that does not go on is cut off as it is written.** -/
theorem cutNumber_append_of_stop (hne : whole ≠ []) (hwhole : whole.all Char.isDigit = true)
    (hfraction : fraction.all Char.isDigit = true) (hrest : NumberStops fraction rest)
    (hfinite : ((Decimal.ofDigits whole fraction).round negative).isFinite = true) :
    cutNumber negative (whole ++ ((if fraction = [] then [] else '.' :: fraction) ++ rest)) =
      .ok (⟨numeral negative whole fraction,
        .number ((Decimal.ofDigits whole fraction).round negative)⟩, rest) := by
  have hstop : ∀ c ∈ ((if fraction = [] then [] else '.' :: fraction) ++ rest).head?,
      c.isDigit = false := by
    intro c hc
    by_cases hnil : fraction = []
    · rw [if_pos hnil, List.nil_append] at hc
      exact hrest.digit c hc
    · rw [if_neg hnil] at hc
      obtain rfl := Option.some.inj hc
      rfl
  obtain ⟨htake, hdrop⟩ := Token.takeWhile_append_of_stop hwhole hstop
  rw [cutNumber, htake, hdrop, cutFraction_append_of_stop hfraction hrest]
  simp only [if_neg hne, if_pos hfinite]

end Lexeme

namespace Token

/-- A numeral that does not go on is cut off. -/
theorem cut_numeral {negative : Bool} {c : Char} {cs whole fraction rest : List Char}
    (hnumeral : Lexeme.numeral negative whole fraction = c :: cs) (hne : whole ≠ [])
    (hwhole : whole.all Char.isDigit = true) (hfraction : fraction.all Char.isDigit = true)
    (hfinite : ((Decimal.ofDigits whole fraction).round negative).isFinite = true)
    (hrest : Lexeme.NumberStops fraction rest) : isLayout c = false ∧
      Lexeme.cut c (cs ++ rest) = .ok (⟨c :: cs,
        .number ((Decimal.ofDigits whole fraction).round negative)⟩, rest) := by
  have hcut := Lexeme.cutNumber_append_of_stop hne hwhole hfraction hrest hfinite
  rw [hnumeral] at hcut
  cases negative with
  | true =>
    obtain ⟨rfl, rfl⟩ : '-' = c ∧ (whole ++ if fraction = [] then [] else '.' :: fraction) = cs :=
      List.cons.inj hnumeral
    refine ⟨rfl, ?_⟩
    rw [Lexeme.cut, if_neg (by decide), if_neg (by decide), if_neg (by decide), if_pos rfl,
      List.append_assoc]
    exact hcut
  | false =>
    obtain ⟨d, ds, rfl⟩ := List.exists_cons_of_ne_nil hne
    obtain ⟨rfl, rfl⟩ : d = c ∧ (ds ++ if fraction = [] then [] else '.' :: fraction) = cs :=
      List.cons.inj hnumeral
    have hd : d.isDigit = true := by
      rw [List.all_cons, Bool.and_eq_true] at hwhole
      exact hwhole.1
    refine ⟨isLayout_of_class hd (by decide), ?_⟩
    rw [Lexeme.cut, if_neg (ne_of_class hd rfl), if_neg (ne_of_class hd rfl),
      if_neg (not_or.2 ⟨ne_of_class hd rfl, ne_of_class hd rfl⟩), if_neg (ne_of_class hd rfl),
      if_pos hd, List.append_assoc]
    exact hcut

theorem scans_numeral {negative : Bool} {whole fraction : List Char} (hne : whole ≠ [])
    (hwhole : whole.all Char.isDigit = true) (hfraction : fraction.all Char.isDigit = true)
    (hfinite : ((Decimal.ofDigits whole fraction).round negative).isFinite = true) :
    Scans (Lexeme.numeral negative whole fraction)
      [.number ((Decimal.ofDigits whole fraction).round negative)] := by
  have hnil : Lexeme.numeral negative whole fraction ≠ [] := by
    simp [Lexeme.numeral, hne]
  obtain ⟨c, cs, hnumeral⟩ := List.exists_cons_of_ne_nil hnil
  have hcut := fun rest (hrest : Boundary rest) =>
    cut_numeral hnumeral hne hwhole hfraction hfinite (.of_boundary hrest)
  rw [hnumeral]
  exact scans_of_cut (hcut [] boundary_nil).1 fun rest hrest => (hcut rest hrest).2

/-- The numeral of a finite number is cut off as it is written, and denotes the number. -/
theorem scans_number {x : Binary64} (hx : x.isFinite = true) :
    Scans x.text.toList [.number x] := by
  have hround : (Decimal.ofDigits x.shortest.wholeDigits x.shortest.fractionDigits).round
      x.isNegative = x := by
    rw [Decimal.ofDigits_digits, Binary64.round_shortest hx]
  have hfinite := hx
  rw [← hround] at hfinite
  have hscans := scans_numeral x.shortest.wholeDigits_ne_nil x.shortest.all_isDigit_wholeDigits
    x.shortest.all_isDigit_fractionDigits hfinite
  rwa [hround, ← Binary64.toList_text hx] at hscans

end Token

/-! ### Both kinds -/

/-- The token of a literal. -/
def Value.token : Value → Token
  | number x => .number x
  | text s => .text s

/-- **A literal that can be written down is cut off as it is written.** -/
theorem Token.scans_literal {v : Value} (h : v.Representable) :
    Scans v.render.toList [v.token] := by
  cases v with
  | number x => exact scans_number h
  | text s => exact scans_quote h

end Eligibility
