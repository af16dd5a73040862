import Eligibility.Proofs.Expr.Comparisons
import Eligibility.Proofs.Text.Submitted

/-!
# What evaluation sees of a record

A comparison with a number reads the value of its field as a number, and one with a text reads it as
a text.  Nothing else of a record takes part: two records that agree in these views cannot be told
apart by an expression, whichever operands it evaluates and whichever errors it meets.  Numbers
agree if they are the same pattern or equal by value, as the two zeros are.

## Main definitions

* `Binary64.Alike`, `Value.Alike` : numbers and values that no comparison tells apart.
* `Record.ViewedAlike r r' e` : two records agree in the views that an expression has of them.
* `Record.SubmittedAs r r' e` : the same fields, with numbers as texts where that cannot be seen.

## Main results

* `CompareOp.holds_of_alike` : comparisons respect `Binary64.Alike`.
* `Expr.verdictOn_number`, `Expr.verdictOn_text` : the view that a literal asks for is enough.
* `Expr.evaluate_eq_of_viewedAlike` : **evaluation sees a record only through these views.**
-/

namespace Eligibility

/-! ### Numbers and values that no comparison tells apart -/

/-- The same pattern, or equal by value. -/
def Binary64.Alike (x y : Binary64) : Prop :=
  x = y ∨ x.same y = true

namespace Binary64.Alike

variable {x y : Binary64}

@[refl] theorem refl (x : Binary64) : x.Alike x :=
  .inl rfl

theorem isNaN_eq (h : x.Alike y) : x.isNaN = y.isNaN := by
  rcases h with rfl | h
  · rfl
  · simp only [same, Bool.and_eq_true, Bool.not_eq_true'] at h
    rw [h.1.1, h.1.2]

theorem key_eq (h : x.Alike y) : x.key = y.key := by
  rcases h with rfl | h
  · rfl
  · simp only [same, Bool.and_eq_true, beq_iff_eq] at h
    exact h.2

end Binary64.Alike

/-- Comparisons do not tell alike numbers apart. -/
theorem CompareOp.holds_of_alike {x x' y y' : Binary64} (op : CompareOp) (hx : x.Alike x')
    (hy : y.Alike y') : op.holds x y = op.holds x' y' := by
  cases op <;>
    simp only [holds, Binary64.same, Binary64.less, Binary64.atMost, hx.isNaN_eq, hx.key_eq,
      hy.isNaN_eq, hy.key_eq]

/-- The same text, or alike numbers. -/
inductive Value.Alike : Value → Value → Prop
  /-- Alike numbers. -/
  | number {x y : Binary64} : x.Alike y → Alike (.number x) (.number y)
  /-- The same text. -/
  | text (s : String) : Alike (.text s) (.text s)

/-- A number that is there or not is like itself. -/
theorem Binary64.alike_option_refl : ∀ o : Option Binary64, Option.Rel Alike o o
  | none => .none
  | some x => .some (.refl x)

namespace Value.Alike

variable {v w : Value}

@[refl] theorem refl : ∀ v : Value, v.Alike v
  | .number x => .number (.refl x)
  | .text s => .text s

theorem asNumber?_rel (h : v.Alike w) : Option.Rel Binary64.Alike v.asNumber? w.asNumber? := by
  cases h with
  | number hxy => exact .some hxy
  | text s => exact Binary64.alike_option_refl _

theorem asText?_eq (h : v.Alike w) : v.asText? = w.asText? := by
  cases h <;> rfl

end Value.Alike

/-! ### The view that a literal asks for -/

namespace Expr

variable {v w : Value}

theorem verdictOn_number (h : Option.Rel Binary64.Alike v.asNumber? w.asNumber?) (field : String)
    (op : CompareOp) (x : Binary64) :
    verdictOn field op v (.number x) = verdictOn field op w (.number x) := by
  simp only [verdictOn]
  generalize v.asNumber? = o, w.asNumber? = o' at h ⊢
  cases h with
  | none => rfl
  | some halike => exact congrArg Except.ok (op.holds_of_alike halike (.refl x))

theorem verdictOn_text (h : v.asText? = w.asText?) (field : String) (op : CompareOp) (s : String) :
    verdictOn field op v (.text s) = verdictOn field op w (.text s) := by
  unfold verdictOn
  rw [h]

theorem verdictOn_of_alike (h : v.Alike w) (field : String) (op : CompareOp) (literal : Value) :
    verdictOn field op v literal = verdictOn field op w literal := by
  cases literal with
  | number x => exact verdictOn_number h.asNumber?_rel field op x
  | text s => exact verdictOn_text h.asText?_eq field op s

end Expr

/-! ### Records -/

/-- Two records agree in the views that an expression has of them: each field it names is in both or
in neither, and the two values agree as numbers if it is compared with a number anywhere, and as
texts if it is compared with a text anywhere. -/
structure Record.ViewedAlike (r r' : Record) (e : Expr) : Prop where
  present : ∀ field ∈ e.fields, (r.get? field).isSome = (r'.get? field).isSome
  numbers : ∀ field op x v w, ⟨field, op, .number x⟩ ∈ e.comparisons → r.get? field = some v →
    r'.get? field = some w → Option.Rel Binary64.Alike v.asNumber? w.asNumber?
  texts : ∀ field op s v w, ⟨field, op, .text s⟩ ∈ e.comparisons → r.get? field = some v →
    r'.get? field = some w → v.asText? = w.asText?

namespace Record.ViewedAlike

variable {r r' : Record} {e : Expr}

/-- Records that agree in the views of an expression agree on each of its comparisons. -/
theorem verdict_eq (h : r.ViewedAlike r' e) {c : Comparison} (hc : c ∈ e.comparisons) :
    c.verdict r = c.verdict r' := by
  obtain ⟨field, op, literal⟩ := c
  have hpresent := h.present field (Expr.mem_fields_of_mem hc)
  unfold Comparison.verdict Expr.verdict
  dsimp only
  cases hv : r.get? field with
  | none =>
    cases hw : r'.get? field with
    | none => rfl
    | some w => simp [hv, hw] at hpresent
  | some v =>
    cases hw : r'.get? field with
    | none => simp [hv, hw] at hpresent
    | some w =>
      cases literal with
      | number x => exact Expr.verdictOn_number (h.numbers field op x v w hc hv hw) field op x
      | text s => exact Expr.verdictOn_text (h.texts field op s v w hc hv hw) field op s

end Record.ViewedAlike

/-- A second record has the fields that an expression names as the first one has them, except that
it may submit a number as a text where the field is compared with numbers only. -/
def Record.SubmittedAs (r r' : Record) (e : Expr) : Prop :=
  ∀ field ∈ e.fields, r.get? field = r'.get? field ∨
    (∀ op s, ⟨field, op, .text s⟩ ∉ e.comparisons) ∧
      ∃ x v, r.get? field = some (.number x) ∧ r'.get? field = some v ∧ v.Submits x

/-- Submitting numbers as texts leaves the views as they are. -/
theorem Record.SubmittedAs.viewedAlike {r r' : Record} {e : Expr} (h : r.SubmittedAs r' e) :
    r.ViewedAlike r' e where
  present field hfield := by
    rcases h field hfield with hsame | ⟨-, x, v, hx, hv, -⟩
    · rw [hsame]
    · rw [hx, hv]
      rfl
  numbers field op x v w hc hv hw := by
    rcases h field (Expr.mem_fields_of_mem hc) with hsame | ⟨-, y, w', hy, hw', hsubmits⟩
    · rw [hv, hw] at hsame
      obtain rfl := Option.some.inj hsame
      exact Binary64.alike_option_refl _
    · rw [hv] at hy
      rw [hw] at hw'
      obtain rfl := Option.some.inj hy
      obtain rfl := Option.some.inj hw'
      rw [hsubmits.asNumber?_eq]
      exact .some (.refl y)
  texts field op s v w hc hv hw := by
    rcases h field (Expr.mem_fields_of_mem hc) with hsame | ⟨hnumbers, -⟩
    · rw [hv, hw] at hsame
      rw [Option.some.inj hsame]
    · exact absurd hc (hnumbers op s)

namespace Expr

/-- **Evaluation sees a record only through the views that its comparisons need.**  Two records that
agree in these views give the same verdict or the same error.  So numbers that are submitted as
text, with blanks around them or without, behave like numbers on fields that are compared with
numbers only, and each finite number has such a text; and fields that are not named do not
matter. -/
theorem evaluate_eq_of_viewedAlike :
    (∀ (e : Expr) (r r' : Record), r.ViewedAlike r' e → e.evaluate r = e.evaluate r') ∧
    (∀ (e : Expr) (r r' : Record), r.SubmittedAs r' e → e.evaluate r = e.evaluate r') ∧
    (∀ (x : Binary64) (before after : String), x.isFinite = true → Text.IsBlank before →
      Text.IsBlank after → (Value.text (before ++ x.text ++ after)).Submits x) ∧
    ∀ (e : Expr) (r : Record) (field : String) (v : Value), field ∉ e.fields →
      e.evaluate (r.insert field v) = e.evaluate r ∧ e.evaluate (r.erase field) = e.evaluate r := by
  have hviews : ∀ (e : Expr) (r r' : Record), r.ViewedAlike r' e → e.evaluate r = e.evaluate r' :=
    fun e r r' h => evaluate_congr fun c hc => h.verdict_eq hc
  refine ⟨hviews, fun e r r' h => hviews e r r' h.viewedAlike,
    fun x before after hx hbefore hafter => Value.submits_text hx hbefore hafter,
    fun e r field v hfield => ⟨?_, ?_⟩⟩
  · refine hviews e _ _ (Record.SubmittedAs.viewedAlike fun other hother => .inl ?_)
    rw [Record.get?_insert, if_neg fun heq : field = other => hfield (heq ▸ hother)]
  · refine hviews e _ _ (Record.SubmittedAs.viewedAlike fun other hother => .inl ?_)
    rw [Record.get?_erase, if_neg fun heq : field = other => hfield (heq ▸ hother)]

/-- An age as a number and as its text between blanks, next to a field that the expression compares
with a text, and a field that it does not name.  The text comparison fails on all three records. -/
theorem evaluate_eq_of_padded_age :
    let age : Binary64 := ⟨0x4041800000000000⟩
    let e : Expr := .and (.compare "age" .ge (.number ⟨0x4032000000000000⟩))
      (.not (.compare "level" .eq (.text "senior")))
    let typed := Record.ofList [("age", .number age), ("level", .number ⟨0⟩)]
    let submitted := Record.ofList
      [("age", .text (" " ++ age.text ++ "\t")), ("level", .number ⟨0⟩)]
    let named := submitted.insert "name" (.text "Ada")
    (typed.SubmittedAs submitted e ∧ typed.ViewedAlike submitted e ∧ "name" ∉ e.fields) ∧
      e.evaluate typed = .error (.typeMismatch "level" .text) ∧
      e.evaluate submitted = .error (.typeMismatch "level" .text) ∧
      e.evaluate named = .error (.typeMismatch "level" .text) := by
  intro age e typed submitted named
  obtain ⟨hviews, hsubmits, htext, hunnamed⟩ := evaluate_eq_of_viewedAlike
  have hage := htext age " " "\t" (by decide) (by decide) (by decide)
  have hsubmitted : typed.SubmittedAs submitted e := by
    intro field hfield
    have hfields : field = "age" ∨ field = "level" := by simpa [e] using hfield
    rcases hfields with rfl | rfl
    · have hnumbers : ∀ op s, ⟨"age", op, .text s⟩ ∉ e.comparisons := by
        intro op s
        simp [e, comparisons]
      exact .inr ⟨hnumbers, age, _, by decide +kernel, by decide +kernel, hage⟩
    · exact .inl (by decide +kernel)
  have hname : "name" ∉ e.fields := by decide
  have htyped : e.evaluate typed = .error (.typeMismatch "level" .text) := by decide +kernel
  have heq := hviews e typed submitted hsubmitted.viewedAlike
  have hname_eq := (hunnamed e submitted "name" (.text "Ada") hname).1
  exact ⟨⟨hsubmitted, hsubmitted.viewedAlike, hname⟩, htyped, (hsubmits e _ _ hsubmitted) ▸ htyped,
    hname_eq.trans (heq ▸ htyped)⟩

end Expr

end Eligibility
