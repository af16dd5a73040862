import Eligibility.Proofs.Parser.Exact
import Eligibility.Proofs.Text.Trim
import Eligibility.Proofs.Token.Yields

/-!
# What a text denotes

A text is layout and lexemes, and the tokens that its lexemes stand for are all that reading makes
use of.  So texts with the same lexemes say the same expression, wherever layout stands in them;
layout may be taken off the ends, put between any two lexemes, and two texts may be put together
with layout between them.

## Main definitions

* `Token.Denotes cs ts` : the characters are layout and lexemes that stand for the tokens.
* `Token.SpacedOut cs ds` : `ds` is `cs` with more or other layout before, between or behind its
  lexemes.

## Main results

* `Token.denotes_iff_scan` : **cutting a text gives the tokens that it denotes.**
* `Denotes.append`, `Denotes.trimChars`, `SpacedOut.exists_denotes` : texts with other layout.
* `Expr.parse_eq_ok_iff_of_denotes` : **texts that denote the same tokens say the same.**
-/

namespace Eligibility

namespace Token

/-- The characters are layout and lexemes, and the lexemes stand for the tokens. -/
inductive Denotes : List Char → List Token → Prop
  /-- Nothing at all. -/
  | nil : Denotes [] []
  /-- Layout. -/
  | layout {c : Char} {cs : List Char} {ts : List Token} (hc : isLayout c = true)
      (hcs : Denotes cs ts) : Denotes (c :: cs) ts
  /-- A lexeme. -/
  | lexeme {l : Lexeme} {rest : List Char} {ts : List Token} (hl : l.Stands rest)
      (hrest : Denotes rest ts) : Denotes (l.text ++ rest) (l.token :: ts)

/-- The second text is the first one with more or other layout before, between or behind its
lexemes. -/
inductive SpacedOut : List Char → List Char → Prop
  /-- Nothing at all. -/
  | nil : SpacedOut [] []
  /-- More layout. -/
  | insert {c : Char} {cs ds : List Char} (hc : isLayout c = true) (hcs : SpacedOut cs ds) :
    SpacedOut cs (c :: ds)
  /-- Layout that was there before, or other layout in its place. -/
  | layout {c d : Char} {cs ds : List Char} (hc : isLayout c = true) (hd : isLayout d = true)
      (hcs : SpacedOut cs ds) : SpacedOut (c :: cs) (d :: ds)
  /-- A lexeme. -/
  | lexeme {l : Lexeme} {rest ds : List Char} (hl : l.Stands rest) (hrest : SpacedOut rest ds) :
    SpacedOut (l.text ++ rest) (l.text ++ ds)

variable {c : Char} {cs ds rest : List Char} {ts us : List Token} {l : Lexeme}

/-! ### Cutting gives what a text denotes -/

/-- A text denotes the tokens that it gives, whatever their places are. -/
theorem denotes_iff_yields (offset : Nat) :
    Denotes cs ts ↔ ∃ us, Yields offset cs [] us ∧ us.map Located.token = ts := by
  constructor
  · intro h
    induction h generalizing offset with
    | nil => exact ⟨[], .nil, rfl⟩
    | layout hc _ ih =>
      obtain ⟨us, hus, rfl⟩ := ih (offset + 1)
      exact ⟨us, .layout hc hus, rfl⟩
    | @lexeme l rest ts hl _ ih =>
      obtain ⟨us, hus, rfl⟩ := ih (offset + byteLength l.text)
      rw [← List.append_nil rest] at hl
      exact ⟨⟨l.token, offset⟩ :: us, .lexeme hl hus, rfl⟩
  · rintro ⟨us, hus, rfl⟩
    generalize hrest : ([] : List Char) = rest at hus
    induction hus with
    | nil => exact .nil
    | layout hc _ ih => exact .layout hc (ih hrest)
    | lexeme hl _ ih =>
      rw [← hrest, List.append_nil] at hl
      exact .lexeme hl (ih hrest)

/-- **Cutting a text gives the tokens that it denotes**, wherever the text stands. -/
theorem denotes_iff_scan (offset : Nat) :
    Denotes cs ts ↔ ∃ us, scan offset cs = .ok us ∧ us.map Located.token = ts := by
  rw [denotes_iff_yields offset]
  exact exists_congr fun us => and_congr_left fun _ => yields_iff_scan

theorem Denotes.unique (h : Denotes cs ts) (h' : Denotes cs us) : ts = us := by
  obtain ⟨vs, hvs, rfl⟩ := (denotes_iff_scan 0).1 h
  obtain ⟨ws, hws, rfl⟩ := (denotes_iff_scan 0).1 h'
  rw [Except.ok.inj (hvs.symm.trans hws)]

/-! ### Texts with other layout -/

/-- What a text starts with: layout, or the first character of a lexeme, which is neither a point
nor the mark of a comment. -/
theorem Denotes.head (h : Denotes cs ts) : ∀ c ∈ cs.head?, c ≠ '.' ∧ c ≠ '#' := by
  cases h with
  | nil => simp
  | layout hc hcs =>
    intro d hd
    obtain rfl := Option.some.inj hd
    exact ⟨ne_of_class hc rfl, ne_of_class hc rfl⟩
  | @lexeme l rest ts hl hrest =>
    -- no lexeme can be cut off that starts with one of the two
    obtain ⟨c, cs, htext, -, hcut⟩ := hl.cut_eq
    intro d hd
    rw [htext] at hd
    obtain rfl := Option.some.inj hd
    constructor
    · rintro rfl
      cases hcut
    · rintro rfl
      cases hcut

/-- A lexeme before another rest, which starts like the rest it stood before or where no lexeme goes
on. -/
theorem Denotes.lexeme_of_head (hl : l.Stands rest) (hds : Denotes ds ts)
    (hhead : ∀ c ∈ ds.head?, c ∈ rest.head? ∨ isLayout c = true ∨ c = ')') :
    Denotes (l.text ++ ds) (l.token :: ts) :=
  .lexeme (hl.congr fun c hc => ⟨(hds.head c hc).1, hhead c hc⟩) hds

/-- **One text after another**, if no lexeme goes on from the first one into the second one. -/
theorem Denotes.append (hcs : Denotes cs ts) (hds : Denotes ds us) (hboundary : Boundary ds) :
    Denotes (cs ++ ds) (ts ++ us) := by
  induction hcs with
  | nil => exact hds
  | layout hc _ ih => exact .layout hc ih
  | @lexeme l rest ts hl _ ih =>
    rw [List.append_assoc]
    refine lexeme_of_head hl ih fun c hc => ?_
    -- behind the last lexeme it is the second text that must not go on with it
    cases rest with
    | nil => exact .inr (hboundary c hc)
    | cons d rest => exact .inl hc

/-- More or other layout leaves the first character as it is, or puts layout before it. -/
theorem SpacedOut.head (h : SpacedOut cs ds) :
    ∀ c ∈ ds.head?, c ∈ cs.head? ∨ isLayout c = true := by
  intro d hd
  cases h with
  | nil => cases hd
  | insert hc hcs =>
    obtain rfl := Option.some.inj hd
    exact .inr hc
  | layout hc hd' hcs =>
    obtain rfl := Option.some.inj hd
    exact .inr hd'
  | @lexeme l rest ds hl hrest =>
    obtain ⟨c, cs, htext, -, -⟩ := hl.cut_eq
    rw [htext] at hd ⊢
    exact .inl hd

/-- **More or other layout makes no difference to what a text denotes.** -/
theorem SpacedOut.exists_denotes (h : SpacedOut cs ds) : ∃ ts, Denotes cs ts ∧ Denotes ds ts := by
  induction h with
  | nil => exact ⟨[], .nil, .nil⟩
  | insert hc _ ih =>
    obtain ⟨ts, hcs, hds⟩ := ih
    exact ⟨ts, hcs, .layout hc hds⟩
  | layout hc hd _ ih =>
    obtain ⟨ts, hcs, hds⟩ := ih
    exact ⟨ts, .layout hc hcs, .layout hd hds⟩
  | @lexeme l rest ds hl hspaced ih =>
    obtain ⟨ts, hrest, hds⟩ := ih
    refine ⟨l.token :: ts, .lexeme hl hrest, Denotes.lexeme_of_head hl hds fun c hc => ?_⟩
    rcases hspaced.head c hc with hsame | hlayout
    · exact .inl hsame
    · exact .inr (.inl hlayout)

/-! ### Trimming -/

theorem isBlank_of_isLayout (hc : isLayout c = true) : Text.isBlank c = true := by
  simp only [isLayout, Bool.or_eq_true, beq_iff_eq] at hc
  rcases hc with ((rfl | rfl) | rfl) | rfl <;> rfl

theorem Denotes.dropWhile (h : Denotes cs ts) : Denotes (cs.dropWhile Text.isBlank) ts := by
  induction h with
  | nil => exact .nil
  | layout hc _ ih => rwa [List.dropWhile_cons_of_pos (isBlank_of_isLayout hc)]
  | @lexeme l rest ts hl hrest _ =>
    obtain ⟨c, cs, htext, -, -⟩ := hl.cut_eq
    have hstop : (l.text ++ rest).dropWhile Text.isBlank = l.text ++ rest := by
      have hc := hl.isBlank_ends.1 c (by rw [htext]; rfl)
      simp [htext, hc]
    rw [hstop]
    exact .lexeme hl hrest

theorem Denotes.rdropWhile (h : Denotes cs ts) : Denotes (cs.rdropWhile Text.isBlank) ts := by
  induction h with
  | nil => exact .nil
  | @layout c cs ts hc _ ih =>
    -- the layout in front goes as well if nothing is left behind it
    rw [Text.rdropWhile_cons]
    split
    · rename_i hnil
      rwa [hnil.1] at ih
    · exact .layout hc ih
  | @lexeme l rest ts hl _ ih =>
    obtain ⟨front, c, htext⟩ := (List.eq_nil_or_concat' l.text).resolve_left hl.text_ne_nil
    have hc : Text.isBlank c = false := hl.isBlank_ends.2 c (by simp [htext])
    have hdrop : (l.text ++ rest).rdropWhile Text.isBlank =
        l.text ++ rest.rdropWhile Text.isBlank := by
      rw [htext, List.append_assoc, List.singleton_append, Text.rdropWhile_append_cons hc,
        List.append_assoc, List.singleton_append]
    rw [hdrop]
    refine lexeme_of_head hl ih fun d hd => .inl ?_
    obtain ⟨blanks, hblanks⟩ := List.rdropWhile_prefix Text.isBlank rest
    rw [← hblanks, List.head?_append, Option.mem_def.1 hd]
    rfl

/-- **Blanks at the ends make no difference to what a text denotes.** -/
theorem Denotes.trimChars (h : Denotes cs ts) : Denotes (Text.trimChars cs) ts :=
  h.dropWhile.rdropWhile

end Token

/-! ### What texts say -/

/-- A text says `e` exactly if the tokens that it denotes do, within the limits. -/
theorem Expr.parse_eq_ok_iff_denotes {limits : Limits} {source : String} {e : Expr} :
    parse limits source = .ok e ↔ ∃ ts n, Token.Denotes source.toList ts ∧
      Derives .disjunction ts e n ∧ n ≤ limits.maxDepth.toNat ∧
      e.height ≤ limits.maxHeight.toNat := by
  rw [parse_eq_ok_iff]
  constructor
  · rintro ⟨ts, n, hscan, hder⟩
    exact ⟨_, n, (Token.denotes_iff_scan 0).2 ⟨ts, hscan, rfl⟩, hder⟩
  · rintro ⟨ts, n, hdenotes, hder⟩
    obtain ⟨us, hscan, rfl⟩ := (Token.denotes_iff_scan 0).1 hdenotes
    exact ⟨us, n, hscan, hder⟩

/-- **Texts that denote the same tokens say the same.** -/
theorem Expr.parse_eq_ok_iff_of_denotes {limits : Limits} {source source' : String}
    {ts : List Token} {e : Expr} (h : Token.Denotes source.toList ts)
    (h' : Token.Denotes source'.toList ts) :
    parse limits source = .ok e ↔ parse limits source' = .ok e := by
  rw [parse_eq_ok_iff_denotes, parse_eq_ok_iff_denotes]
  constructor
  · rintro ⟨us, n, hus, hder⟩
    exact ⟨us, n, h.unique hus ▸ h', hder⟩
  · rintro ⟨us, n, hus, hder⟩
    exact ⟨us, n, h'.unique hus ▸ h, hder⟩

end Eligibility
