import Eligibility.Text.Blank
import Mathlib.Data.List.DropRight

/-!
# Trimming

Blanks at either end of a text make no difference to what is left of it, and what stands between
two characters that are not blank is never touched.

## Main results

* `trimChars_append_of_blank`, `trimChars_concat_blanks`, `trimChars_rdropWhile`,
  `trimChars_dropWhile` : blanks at the ends.
* `trim_padded`, `isBlank_padded_iff` : blanks around a text.
* `rdropWhile_append_cons` : dropping blanks at the end stops at the last other character.
* `trimChars_append_cons` : trimming a text whose front is fixed.
-/

namespace Eligibility.Text

variable {c d : Char} {cs ds front : List Char}

theorem trimChars_eq (cs : List Char) :
    trimChars cs = (cs.dropWhile isBlank).rdropWhile isBlank :=
  rfl

/-! ### Blanks at the ends -/

theorem trimChars_append_of_blank (h : ∀ c ∈ ds, isBlank c = true) (cs : List Char) :
    trimChars (ds ++ cs) = trimChars cs := by
  rw [trimChars_eq, trimChars_eq, List.dropWhile_append_of_pos h]

theorem trimChars_concat_of_blank (hc : isBlank c = true) (cs : List Char) :
    trimChars (cs ++ [c]) = trimChars cs := by
  rw [trimChars_eq, trimChars_eq, List.dropWhile_append]
  cases h : cs.dropWhile isBlank with
  | nil => simp [hc]
  | cons d ds =>
    show List.rdropWhile isBlank (d :: ds ++ [c]) = _
    rw [List.rdropWhile_concat_pos _ _ _ hc]

theorem trimChars_concat_blanks (h : ∀ c ∈ ds, isBlank c = true) (cs : List Char) :
    trimChars (cs ++ ds) = trimChars cs := by
  induction ds using List.reverseRecOn with
  | nil => rw [List.append_nil]
  | append_singleton ds c ih =>
    rw [← List.append_assoc, trimChars_concat_of_blank (h c (by simp))]
    exact ih fun d hd => h d (List.mem_append_left [c] hd)

theorem trimChars_padded {before after : String} (hbefore : IsBlank before) (hafter : IsBlank after)
    (s : String) : trimChars (before ++ s ++ after).toList = trimChars s.toList := by
  rw [String.toList_append, String.toList_append, trimChars_concat_blanks hafter,
    trimChars_append_of_blank hbefore]

/-- Blanks around a text are trimmed away. -/
theorem trim_padded {before after : String} (hbefore : IsBlank before) (hafter : IsBlank after)
    (s : String) : trim (before ++ s ++ after) = trim s := by
  rw [trim, trim, trimChars_padded hbefore hafter]

theorem isBlank_padded_iff {before after : String} (hbefore : IsBlank before)
    (hafter : IsBlank after) (s : String) : IsBlank (before ++ s ++ after) ↔ IsBlank s := by
  rw [← trim_eq_empty_iff, ← trim_eq_empty_iff, trim_padded hbefore hafter]

/-- A text without blanks is left as it is. -/
theorem trimChars_eq_self (h : ∀ c ∈ cs, isBlank c = false) : trimChars cs = cs := by
  have hstop : ∀ c ∈ cs, ¬isBlank c = true := by
    intro c hc
    simp [h c hc]
  have hfront : cs.dropWhile isBlank = cs :=
    List.dropWhile_eq_self_iff.2 fun hpos => hstop _ (List.get_mem ..)
  rw [trimChars_eq, hfront]
  exact List.rdropWhile_eq_self_iff.2 fun hne => hstop _ (List.getLast_mem hne)

@[simp] theorem trimChars_rdropWhile (cs : List Char) :
    trimChars (cs.rdropWhile isBlank) = trimChars cs := by
  induction cs using List.reverseRecOn with
  | nil => rfl
  | append_singleton cs c ih =>
    by_cases hc : isBlank c = true
    · rw [List.rdropWhile_concat_pos _ _ _ hc, ih, trimChars_concat_of_blank hc]
    · rw [List.rdropWhile_concat_neg _ _ _ hc]

@[simp] theorem trimChars_dropWhile (cs : List Char) :
    trimChars (cs.dropWhile isBlank) = trimChars cs := by
  rw [trimChars_eq, trimChars_eq, List.dropWhile_idempotent]

/-! ### Between other characters -/

/-- Dropping blanks at the end reaches the first character only if nothing is left behind it. -/
theorem rdropWhile_cons (c : Char) (cs : List Char) : (c :: cs).rdropWhile isBlank =
    if cs.rdropWhile isBlank = [] ∧ isBlank c = true then [] else c :: cs.rdropWhile isBlank := by
  simp only [List.rdropWhile, List.reverse_cons, List.dropWhile_append, List.reverse_eq_nil_iff,
    List.isEmpty_iff]
  by_cases hnil : cs.reverse.dropWhile isBlank = []
  · by_cases hc : isBlank c = true <;> simp [hnil, hc]
  · simp [hnil]

/-- Dropping blanks at the end stops at the last character that is none. -/
theorem rdropWhile_append_cons (hc : isBlank c = false) (front cs : List Char) :
    (front ++ c :: cs).rdropWhile isBlank = front ++ c :: cs.rdropWhile isBlank := by
  have hstop : ¬isBlank c = true := by
    rw [hc]
    exact Bool.false_ne_true
  induction cs using List.reverseRecOn with
  | nil => rw [List.rdropWhile_concat_neg _ _ _ hstop, List.rdropWhile_nil]
  | append_singleton cs d ih =>
    have hconcat : front ++ c :: (cs ++ [d]) = (front ++ c :: cs) ++ [d] := by simp
    rw [hconcat]
    by_cases hd : isBlank d = true
    · rw [List.rdropWhile_concat_pos _ _ _ hd, List.rdropWhile_concat_pos _ _ _ hd, ih]
    · rw [List.rdropWhile_concat_neg _ _ _ hd, List.rdropWhile_concat_neg _ _ _ hd, hconcat]

/-- Only what comes after the last character of a fixed front is trimmed. -/
theorem trimChars_append_cons (hfront : ∀ d ∈ (front ++ [c]).head?, isBlank d = false)
    (hc : isBlank c = false) (cs : List Char) :
    trimChars (front ++ c :: cs) = front ++ c :: cs.rdropWhile isBlank := by
  have hstart : (front ++ c :: cs).dropWhile isBlank = front ++ c :: cs := by
    cases front with
    | nil => simp [hc]
    | cons d front => simp [hfront d rfl]
  rw [trimChars_eq, hstart, rdropWhile_append_cons hc]

end Eligibility.Text
