import Eligibility.Proofs.RuleBook.Sections
import Eligibility.Proofs.Token.Denotes

/-!
# The text of a rule on several lines

A text is cut into lines, the lines are trimmed, the empty ones left out and the others joined by
single spaces.  If no text literal goes over several lines, a line feed is never more than layout,
so all that comes back is the same tokens.  And no line of such a text looks like a header, since
a colon can stand only between quotes, nor like a comment.

## Main definitions

* `Token.OnOneLine` : a token that does not hold a line feed.

## Main results

* `exists_denotes_splitLines` : the lines of a text denote its tokens one line after the other.
* `Draft.denotes_source` : joining the lines gives a text that denotes the same tokens.
* `header?_eq_none_of_denotes`, `counts_of_denotes` : **no line of a text is taken for a header or
  for a comment.**
-/

namespace Eligibility

/-! ### Texts on several lines -/

/-- A token that does not hold a line feed. -/
def Token.OnOneLine : Token → Prop
  | .text s => '\n' ∉ s.toList
  | _ => True

namespace RuleBook

open Token (Denotes)

variable {c : Char} {cs front body rest : List Char} {ts : List Token} {l : Lexeme}
  {lines doc pieces more : List (List Char)} {tss : List (List Token)}

/-! ### Cutting a text into lines -/

theorem feed_notMem_text (h : l.Stands rest) (hl : l.token.OnOneLine) : '\n' ∉ l.text := by
  rcases h.plain_or_quoted with hplain | ⟨quote, body, hquote, htext, htoken⟩
  · intro hmem
    exact absurd (List.all_eq_true.1 hplain _ hmem) (by decide)
  · rw [htoken] at hl
    have hbody : '\n' ∉ body := by simpa [Token.OnOneLine] using hl
    rw [htext]
    rcases hquote with rfl | rfl <;> simp [hbody]

/-- **The lines of a text denote its tokens one line after the other**, if no token holds a line
feed. -/
theorem exists_denotes_splitLines (h : Denotes cs ts) (hts : ∀ t ∈ ts, t.OnOneLine) :
    ∃ tss, List.Forall₂ Denotes (splitLines cs) tss ∧ tss.flatten = ts := by
  induction h with
  | nil => exact ⟨[[]], .cons .nil .nil, rfl⟩
  | @layout c cs ts hc _ ih =>
    obtain ⟨tss, hall, rfl⟩ := ih hts
    by_cases hfeed : c = '\n'
    · rw [hfeed, splitLines_cons_newline]
      exact ⟨[] :: tss, .cons .nil hall, rfl⟩
    · obtain ⟨first, more, hsplit⟩ := exists_splitLines_eq_cons cs
      rw [hsplit] at hall
      rw [splitLines_cons hfeed hsplit]
      obtain ⟨us, uss, hfirst, hmore, rfl⟩ := List.forall₂_cons_left_iff.1 hall
      exact ⟨us :: uss, .cons (.layout hc hfirst) hmore, rfl⟩
  | @lexeme l rest ts hl _ ih =>
    rw [List.forall_mem_cons] at hts
    obtain ⟨tss, hall, rfl⟩ := ih hts.2
    obtain ⟨first, more, hsplit⟩ := exists_splitLines_eq_cons rest
    -- the lexeme stays whole and goes in front of the first line of what follows
    rw [splitLines_append (feed_notMem_text hl hts.1) hsplit]
    rw [hsplit] at hall
    obtain ⟨us, uss, hfirst, hmore, rfl⟩ := List.forall₂_cons_left_iff.1 hall
    refine ⟨(l.token :: us) :: uss, .cons (Denotes.lexeme_of_head hl hfirst ?_) hmore, rfl⟩
    exact fun c hc => .inl (head_of_splitLines hsplit c hc)

/-! ### Joining lines -/

/-- Trimming lines and leaving out those that are empty then leaves their tokens. -/
theorem exists_denotes_filter_trim {p : List Char → Bool}
    (hp : ∀ cs ts, Denotes cs ts → p cs = !cs.isEmpty) (h : List.Forall₂ Denotes lines tss) :
    ∃ uss, List.Forall₂ Denotes ((lines.map Text.trimChars).filter p) uss ∧
      uss.flatten = tss.flatten := by
  induction h with
  | nil => exact ⟨[], .nil, rfl⟩
  | @cons line ts lines tss hline _ ih =>
    obtain ⟨uss, hall, hflat⟩ := ih
    have htrim := hline.trimChars
    have hkept := hp _ _ htrim
    cases hpiece : Text.trimChars line with
    | nil =>
      -- a line that is trimmed to nothing has no tokens
      rw [hpiece] at htrim hkept
      refine ⟨uss, by simpa [hpiece, hkept] using hall, ?_⟩
      rw [hflat, List.flatten_cons, htrim.unique .nil, List.nil_append]
    | cons c cs =>
      rw [hpiece] at htrim hkept
      exact ⟨ts :: uss, by simpa [hpiece, hkept] using ⟨htrim, hall⟩, by simp [hflat]⟩

/-- A space between two texts keeps them apart. -/
theorem denotes_intercalate (h : List.Forall₂ Denotes pieces tss) :
    Denotes (List.intercalate [' '] pieces) tss.flatten := by
  induction h with
  | nil => exact .nil
  | @cons piece ts pieces tss hpiece hpieces ih =>
    cases pieces with
    | nil =>
      obtain rfl := List.forall₂_nil_left_iff.1 hpieces
      simpa using hpiece
    | cons piece' pieces =>
      rw [List.intercalate_cons_cons, List.append_assoc, List.singleton_append, List.flatten_cons]
      exact hpiece.append (.layout rfl ih) (Token.boundary_space _)

/-- **Pieces that denote tokens make a text that denotes them one piece after the other.** -/
theorem Draft.denotes_source {d : Draft} (h : List.Forall₂ Denotes d.pieces tss) :
    Denotes d.source.toList tss.flatten := by
  obtain ⟨uss, hall, hflat⟩ := exists_denotes_filter_trim (fun _ _ _ => rfl) h
  rw [← hflat, Draft.source, String.toList_ofList]
  exact denotes_intercalate hall

/-! ### Lines that are neither headers nor comments -/

/-- Before a colon there is a quote. -/
theorem exists_quote_of_denotes (h : Denotes cs ts) (hcs : cs = front ++ ':' :: body) :
    ∃ quote ∈ front, quote = '\'' ∨ quote = '"' := by
  induction h generalizing front with
  | nil => simp at hcs
  | @layout c cs ts hc _ ih =>
    cases front with
    | nil =>
      obtain ⟨rfl, -⟩ := List.cons.inj hcs
      cases hc
    | cons d front =>
      obtain ⟨-, hcs⟩ := List.cons.inj hcs
      obtain ⟨quote, hmem, hquote⟩ := ih hcs
      exact ⟨quote, List.mem_cons_of_mem d hmem, hquote⟩
  | @lexeme l rest ts hl _ ih =>
    rcases List.append_eq_append_iff.1 hcs with ⟨front', rfl, hrest⟩ | ⟨colon, htext, hbody⟩
    · -- the colon stands behind the lexeme
      obtain ⟨quote, hmem, hquote⟩ := ih hrest
      exact ⟨quote, List.mem_append_right _ hmem, hquote⟩
    cases colon with
    | nil =>
      -- the lexeme ends before the colon, with which nothing starts
      have hquote : ∃ quote ∈ [], quote = '\'' ∨ quote = '"' := ih hbody.symm
      obtain ⟨quote, hmem, -⟩ := hquote
      cases hmem
    | cons d colon =>
      obtain ⟨rfl, -⟩ := List.cons.inj hbody
      rcases hl.plain_or_quoted with hplain | ⟨quote, inner, hquote, hquoted, -⟩
      · have hcolon := List.all_eq_true.1 hplain ':' (by simp [htext])
        cases hcolon
      · rw [htext] at hquoted
        cases front with
        | nil =>
          obtain ⟨rfl, -⟩ := List.cons.inj hquoted
          simp at hquote
        | cons d front =>
          obtain ⟨rfl, -⟩ := List.cons.inj hquoted
          exact ⟨_, List.mem_cons_self, hquote⟩

/-- **No text is taken for a header.** -/
theorem header?_eq_none_of_denotes (h : Denotes cs ts) : header? cs = none := by
  cases hheader : header? cs with
  | none => rfl
  | some header =>
    obtain ⟨front, hfront, hcs⟩ := header?_eq_some_iff.1 hheader
    obtain ⟨quote, hmem, hquote⟩ := exists_quote_of_denotes h hcs
    rcases hfront.mem_class quote hmem with hclass | hclass
    · rcases hquote with rfl | rfl <;> cases hclass
    · rcases hquote with rfl | rfl <;> cases hclass

/-- **No text is taken for a comment.** -/
theorem counts_of_denotes (h : Denotes cs ts) : counts cs = !cs.isEmpty := by
  cases cs with
  | nil => rfl
  | cons c cs => simpa [counts] using (h.head c rfl).2

/-- The lines of a text that count have all its tokens. -/
theorem exists_denotes_counted (h : List.Forall₂ Denotes lines tss) :
    ∃ uss, List.Forall₂ Denotes (counted lines) uss ∧ uss.flatten = tss.flatten :=
  exists_denotes_filter_trim (fun _ _ => counts_of_denotes) h

end RuleBook

end Eligibility
