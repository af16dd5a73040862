import Eligibility.Proofs.Expr.Reached
import Eligibility.Proofs.LastSetting
import Eligibility.Proofs.Text.Trim

/-!
# The answers in a form

A form has a text for each of its fields.  Some are blank, some fields are answered twice, and there
are blanks around an answer.  The record of the form has none of this: a field is there if some
answer for it is not blank, and its value is the last of these answers without the blanks around it.
So an expression may ask for a field that was not answered, but never finds a number in place of a
text.

## Main definitions

* `Record.entryFor?` : what an entry says of a field.
* `Record.Pads answer answer'` : the same answer with more blanks around it.

## Main results

* `Record.get?_ofList` : the last entry for a field counts.
* `Record.get?_ofForm` : **the last answer for a field that is not blank counts.**
* `Record.finiteNumbers_ofForm` : a form brings no number that is not finite into a record.
* `Record.ofForm_filter`, `Record.ofForm_of_pads` : blank answers and blanks around answers do not
  matter.
* `Expr.evaluate_ofForm` : **what an expression makes of a form.**
-/

namespace Eligibility

namespace Record

/-- What an entry says of a field. -/
def entryFor? (field : String) (entry : String × Value) : Option Value :=
  if entry.1 = field then some entry.2 else none

theorem get?_insert_entry (r : Record) (field : String) (entry : String × Value) :
    (r.insert entry.1 entry.2).get? field = (entryFor? field entry).or (r.get? field) := by
  rw [get?_insert, entryFor?]
  split <;> rfl

theorem filterMap_entryFor? (entries : List (String × Value)) (field : String) :
    entries.filterMap (entryFor? field) =
      (entries.filter fun entry => entry.1 = field).map Prod.snd := by
  induction entries with
  | nil => rfl
  | cons entry entries ih =>
    by_cases hfield : entry.1 = field <;> simpa [entryFor?, hfield] using ih

/-- The value of a field is that of the last entry for it. -/
theorem get?_ofList (entries : List (String × Value)) (field : String) :
    (ofList entries).get? field =
      ((entries.filter fun entry => entry.1 = field).map Prod.snd).getLast? := by
  have hlast :=
    foldl_part? (entryFor? field) (get? · field) (get?_insert_entry · field) entries empty
  rw [get?_empty, Option.or_none, filterMap_entryFor?] at hlast
  exact hlast

/-! ### Forms -/

/-- The entries of a form are its answers that are not blank, without the blanks around them. -/
theorem filterMap_ofAnswer? (answers : List (String × String)) :
    answers.filterMap ofAnswer? =
      (answers.filter fun a => ¬Text.IsBlank a.2).map fun a => (a.1, .text (Text.trim a.2)) := by
  induction answers with
  | nil => rfl
  | cons a answers ih =>
    by_cases hblank : Text.IsBlank a.2 <;> simpa [ofAnswer?, hblank] using ih

/-- **The value of a field is the last answer for it that is not blank**, without the blanks around
it. -/
theorem get?_ofForm (answers : List (String × String)) (field : String) :
    (ofForm answers).get? field =
      ((answers.filter fun a => a.1 = field ∧ ¬Text.IsBlank a.2).getLast?).map
        fun a => .text (Text.trim a.2) := by
  rw [ofForm, get?_ofList, filterMap_ofAnswer?, List.filter_map, List.filter_filter, List.map_map,
    List.getLast?_map]
  simp [Function.comp_def]

/-- The values of a form are texts. -/
theorem exists_text_of_get?_ofForm {answers : List (String × String)} {field : String} {v : Value}
    (h : (ofForm answers).get? field = some v) : ∃ s, v = .text s := by
  rw [get?_ofForm, Option.map_eq_some_iff] at h
  obtain ⟨a, -, rfl⟩ := h
  exact ⟨_, rfl⟩

/-- So a form brings no number that is not finite into a record. -/
theorem finiteNumbers_ofForm (answers : List (String × String)) :
    (ofForm answers).FiniteNumbers := by
  intro field x h
  obtain ⟨s, hs⟩ := exists_text_of_get?_ofForm h
  cases hs

/-- A field is missing exactly if all answers for it are blank. -/
theorem get?_ofForm_eq_none_iff {answers : List (String × String)} {field : String} :
    (ofForm answers).get? field = none ↔ ∀ a ∈ answers, a.1 = field → Text.IsBlank a.2 := by
  rw [get?_ofForm, Option.map_eq_none_iff, List.getLast?_eq_none_iff, List.filter_eq_nil_iff]
  simp

/-- Blank answers may be left out. -/
theorem ofForm_filter (answers : List (String × String)) :
    ofForm (answers.filter fun a => ¬Text.IsBlank a.2) = ofForm answers := by
  rw [ofForm, ofForm, filterMap_ofAnswer?, filterMap_ofAnswer?, List.filter_filter]
  simp

/-- The same answer with more blanks around it. -/
def Pads (answer answer' : String × String) : Prop :=
  ∃ before after, Text.IsBlank before ∧ Text.IsBlank after ∧
    answer' = (answer.1, before ++ answer.2 ++ after)

theorem Pads.ofAnswer?_eq {answer answer' : String × String} (h : Pads answer answer') :
    ofAnswer? answer' = ofAnswer? answer := by
  obtain ⟨before, after, hbefore, hafter, rfl⟩ := h
  simp only [ofAnswer?, Text.isBlank_padded_iff hbefore hafter, Text.trim_padded hbefore hafter]

/-- Blanks around the answers do not matter. -/
theorem ofForm_of_pads {answers answers' : List (String × String)}
    (h : List.Forall₂ Pads answers answers') : ofForm answers' = ofForm answers := by
  have hentries : answers'.filterMap ofAnswer? = answers.filterMap ofAnswer? := by
    induction h with
    | nil => rfl
    | cons hpads _ ih => rw [List.filterMap_cons, List.filterMap_cons, hpads.ofAnswer?_eq, ih]
  rw [ofForm, ofForm, hentries]

end Record

namespace Expr

/-- **What an expression makes of a form.**  Each field has the last answer that is not blank,
trimmed.  Whatever the expression, it never misses a text; a field that it does not find has no
answer but blank ones; and its result is the same if the blank answers are left out, and if there
are more blanks around the answers. -/
theorem evaluate_ofForm (answers : List (String × String)) :
    (∀ field, (Record.ofForm answers).get? field =
      ((answers.filter fun a => a.1 = field ∧ ¬Text.IsBlank a.2).getLast?).map
        fun a => .text (Text.trim a.2)) ∧
    ∀ e : Expr,
      (∀ field, e.evaluate (.ofForm answers) ≠ .error (.typeMismatch field .text)) ∧
      (∀ field, e.evaluate (.ofForm answers) = .error (.unknownField field) →
        ∀ a ∈ answers, a.1 = field → Text.IsBlank a.2) ∧
      e.evaluate (.ofForm (answers.filter fun a => ¬Text.IsBlank a.2)) =
        e.evaluate (.ofForm answers) ∧
      ∀ answers', List.Forall₂ Record.Pads answers answers' →
        e.evaluate (.ofForm answers') = e.evaluate (.ofForm answers) := by
  refine ⟨Record.get?_ofForm answers, fun e => ⟨?_, ?_, ?_, ?_⟩⟩
  · intro field h
    obtain ⟨x, hnumber⟩ := exists_number_of_evaluate h
    obtain ⟨s, htext⟩ := Record.exists_text_of_get?_ofForm hnumber
    cases htext
  · intro field h
    exact Record.get?_ofForm_eq_none_iff.1 (get?_eq_none_of_evaluate h)
  · rw [Record.ofForm_filter]
  · intro answers' h
    rw [Record.ofForm_of_pads h]

/-- An age that is answered twice and then left blank, with blanks of other scripts around it, and a
level that is not answered. -/
theorem evaluate_ofForm_of_blank_level :
    let answers := [("age", "17"), ("level", " "), ("age", "\u2003 42\u00A0"), ("age", "\u3000")]
    let padded :=
      [("age", "17\u2028"), ("level", "\u0085 "), ("age", "\u2003 42\u00A0\t"), ("age", "\u3000")]
    let e : Expr := .and (.compare "age" .ge (.number ⟨0x4032000000000000⟩))
      (.compare "level" .eq (.text "senior"))
    (Record.ofForm answers).get? "age" = some (.text "42") ∧
      e.evaluate (.ofForm answers) = .error (.unknownField "level") ∧
      (∀ a ∈ answers, a.1 = "level" → Text.IsBlank a.2) ∧
      List.Forall₂ Record.Pads answers padded ∧
      e.evaluate (.ofForm padded) = .error (.unknownField "level") := by
  intro answers padded e
  obtain ⟨hget, hevaluate⟩ := evaluate_ofForm answers
  obtain ⟨-, hunknown, -, hpadded⟩ := hevaluate e
  have hage : (Record.ofForm answers).get? "age" = some (.text "42") := by
    rw [hget]
    decide +kernel
  have hlevel : e.evaluate (.ofForm answers) = .error (.unknownField "level") := by decide +kernel
  have hpads : List.Forall₂ Record.Pads answers padded := by
    refine .cons ⟨"", "\u2028", ?_⟩ (.cons ⟨"\u0085", "", ?_⟩ (.cons ⟨"", "\t", ?_⟩
      (.cons ⟨"", "", ?_⟩ .nil))) <;> decide +kernel
  exact ⟨hage, hlevel, hunknown "level" hlevel, hpads, (hpadded padded hpads).trans hlevel⟩

end Expr

end Eligibility
