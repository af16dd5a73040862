import Eligibility.Expr.Grammar
import Mathlib.Data.List.Basic

/-!
# The tokens of a written text

Every lexeme is as long as it can be, so which tokens a piece of text is cut into depends on what
comes after it.  Before the end of the text, before layout and before a closing parenthesis no
lexeme goes on; a text that is put together with only these between its lexemes is cut into the
tokens of its parts.

## Main definitions

* `Token.Boundary rest` : no lexeme goes on into `rest`.
* `Token.Scans cs ts` : before such a boundary, `cs` is cut into `ts`.

## Main results

* `Scans.space`, `Scans.group` : two parts with a space between them, and a part in parentheses.
* `cut_operator`, `cut_word`, `scans_operator`, `scans_word` : an operator, and a word.
* `Scans.scanText_eq` : the tokens of a whole text.
-/

namespace Eligibility

namespace Token

variable {c : Char} {cs ds rest : List Char} {ts us : List Token} {t : Token}

/-- No lexeme goes on here: nothing follows, or layout, or a closing parenthesis. -/
def Boundary (rest : List Char) : Prop :=
  ∀ c ∈ rest.head?, isLayout c = true ∨ c = ')'

/-- Before a boundary, the characters are cut into these tokens. -/
def Scans (cs : List Char) (ts : List Token) : Prop :=
  ∀ offset, ∃ us : List Located, us.map Located.token = ts ∧ ∀ rest, Boundary rest →
    scan offset (cs ++ rest) = (scan (offset + byteLength cs) rest).map (us ++ ·)

theorem boundary_nil : Boundary [] := by
  intro c hc
  cases hc

theorem boundary_space (cs : List Char) : Boundary (' ' :: cs) := by
  intro c hc
  obtain rfl := Option.some.inj hc
  exact .inl rfl

theorem boundary_rparen (cs : List Char) : Boundary (')' :: cs) := by
  intro c hc
  obtain rfl := Option.some.inj hc
  exact .inr rfl

/-! ### Putting parts together -/

theorem scan_layout (hc : isLayout c = true) (offset : Nat) (cs : List Char) :
    scan offset (c :: cs) = scan (offset + 1) cs := by
  rw [scan, if_pos hc]

theorem scan_cut {l : Lexeme} (hc : isLayout c = false) (h : Lexeme.cut c cs = .ok (l, rest))
    (offset : Nat) : scan offset (c :: cs) =
      (scan (offset + byteLength l.text) rest).map (⟨l.token, offset⟩ :: ·) := by
  rw [scan, if_neg (by rw [hc]; exact Bool.false_ne_true)]
  split
  · rename_i hcut
    rw [h] at hcut
    cases hcut
  · rename_i hcut
    rw [h] at hcut
    obtain ⟨rfl, rfl⟩ := Prod.mk.inj (Except.ok.inj hcut)
    rfl

theorem map_append_map {ε α : Type} (x : Except ε (List α)) (as bs : List α) :
    (x.map (bs ++ ·)).map (as ++ ·) = x.map (as ++ bs ++ ·) := by
  cases x with
  | error e => rfl
  | ok cs => exact congrArg Except.ok (List.append_assoc as bs cs).symm

/-- One lexeme, whatever comes after it. -/
theorem scans_of_cut (hc : isLayout c = false)
    (h : ∀ rest, Boundary rest → Lexeme.cut c (cs ++ rest) = .ok (⟨c :: cs, t⟩, rest)) :
    Scans (c :: cs) [t] := by
  intro offset
  refine ⟨[⟨t, offset⟩], rfl, fun rest hrest => ?_⟩
  exact scan_cut hc (h rest hrest) offset

/-- One part after another, if it starts where no lexeme goes on. -/
theorem Scans.append (hcs : Scans cs ts) (hds : Scans ds us)
    (hboundary : ∀ rest, Boundary (ds ++ rest)) : Scans (cs ++ ds) (ts ++ us) := by
  intro offset
  obtain ⟨vs, rfl, hvs⟩ := hcs offset
  obtain ⟨ws, rfl, hws⟩ := hds (offset + byteLength cs)
  refine ⟨vs ++ ws, List.map_append, fun rest hrest => ?_⟩
  rw [List.append_assoc, hvs _ (hboundary rest), hws rest hrest, map_append_map,
    byteLength_append, Nat.add_assoc]

theorem Scans.cons_space (hcs : Scans cs ts) : Scans (' ' :: cs) ts := by
  intro offset
  obtain ⟨vs, rfl, hvs⟩ := hcs (offset + 1)
  refine ⟨vs, rfl, fun rest hrest => ?_⟩
  rw [List.cons_append, scan_layout rfl, hvs rest hrest, byteLength_cons, ← Nat.add_assoc]
  rfl

theorem Scans.cons_lparen (hcs : Scans cs ts) : Scans ('(' :: cs) (.lparen :: ts) := by
  intro offset
  obtain ⟨vs, rfl, hvs⟩ := hcs (offset + 1)
  refine ⟨⟨.lparen, offset⟩ :: vs, rfl, fun rest hrest => ?_⟩
  have hcut : Lexeme.cut '(' (cs ++ rest) = .ok (⟨['('], .lparen⟩, cs ++ rest) := rfl
  have hwidth : byteLength ['('] = 1 := rfl
  rw [List.cons_append, scan_cut rfl hcut, hwidth, hvs rest hrest, byteLength_cons,
    ← Nat.add_assoc]
  exact map_append_map _ [⟨.lparen, offset⟩] vs

theorem scans_rparen : Scans [')'] [.rparen] :=
  scans_of_cut rfl fun _ _ => rfl

/-- **Two parts with a space between them.** -/
theorem Scans.space (hcs : Scans cs ts) (hds : Scans ds us) :
    Scans (cs ++ ' ' :: ds) (ts ++ us) :=
  hcs.append hds.cons_space fun _ => boundary_space _

/-- **A part in parentheses.** -/
theorem Scans.group (hcs : Scans cs ts) :
    Scans ('(' :: cs ++ [')']) (.lparen :: ts ++ [.rparen]) :=
  hcs.cons_lparen.append scans_rparen fun _ => boundary_rparen _

/-! ### Runs of characters of one class -/

/-- A run of characters of a class ends before a character that is not in it. -/
theorem takeWhile_append_of_stop {p : Char → Bool} (hcs : cs.all p = true)
    (hrest : ∀ c ∈ rest.head?, p c = false) :
    (cs ++ rest).takeWhile p = cs ∧ (cs ++ rest).dropWhile p = rest := by
  have hall := List.all_eq_true.1 hcs
  rw [List.takeWhile_append_of_pos hall, List.dropWhile_append_of_pos hall]
  cases rest with
  | nil => exact ⟨List.append_nil cs, rfl⟩
  | cons c rest =>
    have hc : ¬p c = true := by
      rw [hrest c rfl]
      exact Bool.false_ne_true
    rw [List.takeWhile_cons_of_neg hc, List.dropWhile_cons_of_neg hc]
    exact ⟨List.append_nil cs, rfl⟩

/-- A class without layout and closing parentheses ends at every boundary. -/
theorem Boundary.stop {p : Char → Bool} (h : Boundary rest)
    (hp : p ' ' = false ∧ p '\t' = false ∧ p '\r' = false ∧ p '\n' = false ∧ p ')' = false) :
    ∀ c ∈ rest.head?, p c = false := by
  intro c hc
  obtain ⟨hspace, htab, hreturn, hfeed, hparen⟩ := hp
  rcases h c hc with hlayout | rfl
  · simp only [isLayout, Bool.or_eq_true, beq_iff_eq] at hlayout
    rcases hlayout with ((rfl | rfl) | rfl) | rfl <;> assumption
  · exact hparen

theorem ne_of_class {p : Char → Bool} {d : Char} (hc : p c = true) (hd : p d = false) : c ≠ d := by
  rintro rfl
  rw [hc] at hd
  cases hd

theorem isLayout_of_class {p : Char → Bool} (hc : p c = true)
    (hp : p ' ' = false ∧ p '\t' = false ∧ p '\r' = false ∧ p '\n' = false) :
    isLayout c = false := by
  obtain ⟨hspace, htab, hreturn, hfeed⟩ := hp
  simp only [isLayout, Bool.or_eq_false_iff, beq_eq_false_iff_ne]
  exact ⟨⟨⟨ne_of_class hc hspace, ne_of_class hc htab⟩, ne_of_class hc hreturn⟩,
    ne_of_class hc hfeed⟩

/-! ### Operators and words -/

theorem isDigit_of_isOperatorChar (hc : isOperatorChar c = true) : c.isDigit = false := by
  simp only [isOperatorChar, Bool.or_eq_true, beq_iff_eq] at hc
  rcases hc with ((rfl | rfl) | rfl) | rfl <;> rfl

theorem isDigit_of_isWordStart (hc : isWordStart c = true) : c.isDigit = false := by
  rw [isWordStart, Bool.or_eq_true, beq_iff_eq] at hc
  rcases hc with halpha | rfl
  · have hletter : (decide ('A'.val ≤ c.val ∧ c.val ≤ 'Z'.val) ||
        (decide ('a'.val ≤ c.val) && decide (c.val ≤ 'z'.val))) = true := halpha
    show (decide ('0'.val ≤ c.val) && decide (c.val ≤ '9'.val)) = false
    simp only [Bool.or_eq_true, Bool.and_eq_true, decide_eq_true_eq] at hletter
    rw [Bool.and_eq_false_iff, decide_eq_false_iff_not, decide_eq_false_iff_not]
    grind
  · rfl

theorem isOperatorChar_of_isWordStart (hc : isWordStart c = true) : isOperatorChar c = false := by
  simp only [isOperatorChar, Bool.or_eq_false_iff, beq_eq_false_iff_ne]
  exact ⟨⟨⟨ne_of_class hc rfl, ne_of_class hc rfl⟩, ne_of_class hc rfl⟩, ne_of_class hc rfl⟩

/-- An operator that does not go on is cut off. -/
theorem cut_operator {op : CompareOp} (hsymbol : op.symbol.toList = c :: cs)
    (hrest : ∀ d ∈ rest.head?, isOperatorChar d = false) : isLayout c = false ∧
      Lexeme.cut c (cs ++ rest) = .ok (⟨c :: cs, .op op⟩, rest) := by
  have hchars : (c :: cs).all isOperatorChar = true := by
    rw [← hsymbol]
    cases op <;> rfl
  rw [List.all_cons, Bool.and_eq_true] at hchars
  obtain ⟨hc, hcs⟩ := hchars
  have hop : CompareOp.ofSymbol? (String.ofList (c :: cs)) = some op := by
    rw [← hsymbol, String.ofList_toList, CompareOp.ofSymbol?_symbol]
  refine ⟨isLayout_of_class hc (by decide), ?_⟩
  obtain ⟨htake, hdrop⟩ := takeWhile_append_of_stop hcs hrest
  have hdigit : ¬c.isDigit = true := by
    rw [isDigit_of_isOperatorChar hc]
    exact Bool.false_ne_true
  rw [Lexeme.cut, if_neg (ne_of_class hc rfl), if_neg (ne_of_class hc rfl),
    if_neg (not_or.2 ⟨ne_of_class hc rfl, ne_of_class hc rfl⟩), if_neg (ne_of_class hc rfl),
    if_neg hdigit, if_pos hc]
  simp only [htake, hdrop, hop]

/-- **An operator is cut off as it is written.** -/
theorem scans_operator (op : CompareOp) : Scans op.symbol.toList [.op op] := by
  obtain ⟨c, cs, hsymbol⟩ : ∃ c cs, op.symbol.toList = c :: cs := by
    cases op <;> exact ⟨_, _, rfl⟩
  rw [hsymbol]
  have hcut := fun rest (hrest : Boundary rest) => cut_operator hsymbol (hrest.stop (by decide))
  exact scans_of_cut (hcut [] boundary_nil).1 fun rest hrest => (hcut rest hrest).2

/-- A word that does not go on is cut off. -/
theorem cut_word (hc : isWordStart c = true) (hcs : cs.all isWordChar = true)
    (hrest : ∀ d ∈ rest.head?, isWordChar d = false) : isLayout c = false ∧
      Lexeme.cut c (cs ++ rest) = .ok (⟨c :: cs, ofWord (c :: cs)⟩, rest) := by
  refine ⟨isLayout_of_class hc (by decide), ?_⟩
  obtain ⟨htake, hdrop⟩ := takeWhile_append_of_stop hcs hrest
  have hdigit : ¬c.isDigit = true := by
    rw [isDigit_of_isWordStart hc]
    exact Bool.false_ne_true
  have hoperator : ¬isOperatorChar c = true := by
    rw [isOperatorChar_of_isWordStart hc]
    exact Bool.false_ne_true
  rw [Lexeme.cut, if_neg (ne_of_class hc rfl), if_neg (ne_of_class hc rfl),
    if_neg (not_or.2 ⟨ne_of_class hc rfl, ne_of_class hc rfl⟩), if_neg (ne_of_class hc rfl),
    if_neg hdigit, if_neg hoperator, if_pos hc]
  simp only [htake, hdrop]

/-- **A word is cut off as it is written.** -/
theorem scans_word (hc : isWordStart c = true) (hcs : cs.all isWordChar = true) :
    Scans (c :: cs) [ofWord (c :: cs)] :=
  scans_of_cut (isLayout_of_class hc (by decide)) fun _ hrest =>
    (cut_word hc hcs (hrest.stop (by decide))).2

/-- A field name is cut off as it is written. -/
theorem scans_ident {name : String} (h : IsWord name) : Scans name.toList [.ident name] := by
  obtain ⟨c, cs, hname, hc, hcs, hword⟩ := h
  rw [hname, ← hword]
  exact scans_word hc hcs

theorem Scans.scanText_eq {s : String} (h : Scans s.toList ts) :
    ∃ us, us.map Located.token = ts ∧ scanText s = .ok us := by
  obtain ⟨us, hus, hscan⟩ := h 0
  refine ⟨us, hus, ?_⟩
  have hall := hscan [] boundary_nil
  rw [List.append_nil, scan] at hall
  rw [scanText, hall]
  exact congrArg Except.ok (List.append_nil us)

end Token

end Eligibility
