import Eligibility.Expr.Grammar
import Eligibility.Proofs.Except

/-!
# What can come out of a text

A text has no escapes, so not every string can stand in it: a word is never a keyword, a number is
never infinite, and a text literal never holds the quote that it stands between, hence never both
quotes.  These are the limits of what reading can produce, and what is left of them in an
expression is `Expr.Representable`.

## Main definitions

* `Token.Writable` : a token that some text can contain.

## Main results

* `Token.isWord_iff` : which names are field names.
* `Lexeme.writable_of_cut`, `Token.writable_of_scan` : cutting a text gives only such tokens.
* `Derives.representable` : an expression made of such tokens can be written down.
-/

namespace Eligibility

/-- A token that some text can contain. -/
def Token.Writable : Token → Prop
  | .ident name => IsWord name
  | .number x => (Value.number x).Representable
  | .text s => (Value.text s).Representable
  | _ => True

namespace Token

theorem isWord_ofList {c : Char} {cs : List Char} (hc : isWordStart c = true)
    (hcs : cs.all isWordChar = true) (h : ofWord (c :: cs) = .ident (String.ofList (c :: cs))) :
    IsWord (String.ofList (c :: cs)) :=
  ⟨c, cs, String.toList_ofList, hc, hcs, h⟩

/-- A word denotes a keyword or a field name, which is the word itself. -/
theorem ofWord_cases (word : List Char) :
    ofWord word = .and ∨ ofWord word = .or ∨ ofWord word = .not ∨
      ofWord word = .ident (String.ofList word) := by
  simp only [ofWord]
  split
  · exact .inl rfl
  split
  · exact .inr (.inl rfl)
  split
  · exact .inr (.inr (.inl rfl))
  · exact .inr (.inr (.inr rfl))

/-- A field name is an identifier that is no keyword, in whatever cases its letters are. -/
theorem isWord_iff {name : String} :
    IsWord name ↔ ∃ c cs, name.toList = c :: cs ∧ isWordStart c = true ∧
      cs.all isWordChar = true ∧
      (c :: cs).map Char.toLower ∉ [['a', 'n', 'd'], ['o', 'r'], ['n', 'o', 't']] := by
  constructor
  · rintro ⟨c, cs, hname, hc, hcs, h⟩
    refine ⟨c, cs, hname, hc, hcs, fun hmem => ?_⟩
    simp only [List.mem_cons, List.not_mem_nil, or_false] at hmem
    rcases hmem with hkey | hkey | hkey <;> simp [ofWord, hkey] at h
  · rintro ⟨c, cs, hname, hc, hcs, h⟩
    simp only [List.mem_cons, List.not_mem_nil, or_false, not_or] at h
    refine ⟨c, cs, hname, hc, hcs, ?_⟩
    rw [ofWord, if_neg h.1, if_neg h.2.1, if_neg h.2.2, ← hname, String.ofList_toList]

theorem writable_ofWord {c : Char} {cs : List Char} (hc : isWordStart c = true)
    (hcs : cs.all isWordChar = true) : (ofWord (c :: cs)).Writable := by
  rcases ofWord_cases (c :: cs) with h | h | h | h
  · rw [h]
    trivial
  · rw [h]
    trivial
  · rw [h]
    trivial
  · have hword := isWord_ofList hc hcs h
    rw [h]
    exact hword

end Token

namespace Lexeme

theorem writable_of_cutNumber {negative : Bool} {cs rest : List Char} {l : Lexeme}
    (h : cutNumber negative cs = .ok (l, rest)) : l.token.Writable := by
  simp only [cutNumber] at h
  split at h
  · cases h
  split at h
  · rename_i hfinite
    obtain ⟨rfl, rfl⟩ := Prod.mk.inj (Except.ok.inj h)
    exact hfinite
  · cases h

/-- A text literal never holds the quote that it stands between. -/
theorem notMem_takeWhile_ne (quote : Char) (cs : List Char) :
    quote ∉ cs.takeWhile (· ≠ quote) := by
  intro hmem
  have := List.all_eq_true.1 List.all_takeWhile quote hmem
  simp at this

theorem writable_of_cutQuoted {quote : Char} {cs rest : List Char} {l : Lexeme}
    (hquote : quote = '\'' ∨ quote = '"') (h : cutQuoted quote cs = .ok (l, rest)) :
    l.token.Writable := by
  unfold cutQuoted at h
  split at h
  · cases h
  obtain ⟨rfl, rfl⟩ := Prod.mk.inj (Except.ok.inj h)
  have hmem := notMem_takeWhile_ne quote cs
  show ¬(_ ∧ _)
  rw [String.toList_ofList]
  rintro ⟨hsingle, hdouble⟩
  rcases hquote with rfl | rfl
  · exact hmem hsingle
  · exact hmem hdouble

/-- **A lexeme denotes a token that can be written.** -/
theorem writable_of_cut {c : Char} {cs rest : List Char} {l : Lexeme}
    (h : cut c cs = .ok (l, rest)) : l.token.Writable := by
  simp only [cut] at h
  split at h
  · obtain ⟨rfl, rfl⟩ := Prod.mk.inj (Except.ok.inj h)
    trivial
  split at h
  · obtain ⟨rfl, rfl⟩ := Prod.mk.inj (Except.ok.inj h)
    trivial
  split at h
  · rename_i hquote
    exact writable_of_cutQuoted hquote h
  split at h
  · exact writable_of_cutNumber h
  split at h
  · exact writable_of_cutNumber h
  split at h
  · split at h
    · obtain ⟨rfl, rfl⟩ := Prod.mk.inj (Except.ok.inj h)
      trivial
    · cases h
  split at h
  · rename_i hstart
    obtain ⟨rfl, rfl⟩ := Prod.mk.inj (Except.ok.inj h)
    exact Token.writable_ofWord hstart List.all_takeWhile
  · cases h

end Lexeme

namespace Token

/-- **Every token of a text can be written.** -/
theorem writable_of_scan {offset : Nat} {cs : List Char} {ts : List Located}
    (h : scan offset cs = .ok ts) : ∀ t ∈ ts.map Located.token, t.Writable := by
  fun_induction scan offset cs generalizing ts with
  | case1 offset =>
    obtain rfl := Except.ok.inj h
    simp
  | case2 offset c cs hlayout ih => exact ih h
  | case3 offset c cs hlayout kind hcut => cases h
  | case4 offset c cs hlayout l rest hcut ih =>
    obtain ⟨us, hrest, rfl⟩ := Except.map_eq_ok_iff.1 h
    rw [List.map_cons, List.forall_mem_cons]
    exact ⟨Lexeme.writable_of_cut hcut, ih hrest⟩

end Token

/-- **An expression that is said by tokens of a text can be written as a text.** -/
theorem Derives.representable {tier : Tier} {ts : List Token} {e : Expr} {n : Nat}
    (h : Derives tier ts e n) (hts : ∀ t ∈ ts, t.Writable) : e.Representable := by
  induction h with
  | number field op x =>
    exact ⟨hts (.ident field) (by simp), hts (.number x) (by simp)⟩
  | text field op s =>
    exact ⟨hts (.ident field) (by simp), hts (.text s) (by simp)⟩
  | group _ ih => exact ih fun t ht => hts t (by simp [ht])
  | operand _ ih | negation _ ih | conjunction _ ih => exact ih hts
  | not _ ih => exact ih fun t ht => hts t (List.mem_cons_of_mem _ ht)
  | and _ _ ihl ihr | or _ _ ihl ihr =>
    refine ⟨ihl fun t ht => hts t ?_, ihr fun t ht => hts t ?_⟩
    · exact List.mem_append_left _ ht
    · exact List.mem_append_right _ (List.mem_cons_of_mem _ ht)

end Eligibility
