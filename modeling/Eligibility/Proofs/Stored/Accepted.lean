import Eligibility.Proofs.Stored.Height
import Eligibility.Proofs.Stored.Restore
import Eligibility.Stored.Frame

/-!
# Which bytes are a stored set of rules

Loading is a row of seven checks.  Bytes that pass all of them are a stored set, and what is loaded
is the set that the payload describes.  Other bytes are refused by the first check that they do not
pass, so that a check can rely on those before it: no byte is looked at that is not there.

## Main definitions

* `Header.statedVersion`, `Header.statedLength`, `Header.statedPayload` : what the header says.
* `LoadCheck`, `LoadCheck.FirstFailing` : a check, and the error of a row of checks.
* `LoadCheck.all` : the checks of a stored set, in their order.
* `LoadCheck.Agrees` : the results that agree with a row of checks.

## Main results

* `LoadCheck.Agrees.bind` : computations one after the other make their checks one after the other.
* `RuleSet.ofBytes_eq_ok_and_error_iff` : **bytes are loaded exactly if they pass every check, and
  otherwise refused by the first one that they do not pass.**
-/

namespace Eligibility

/-! ### What the header says -/

namespace Header

/-- The version that the header states. -/
def statedVersion (bytes : List UInt8) : Nat :=
  Stored.ofLittleEndian (bytes.extract 4 6)

/-- The number of bytes that the header states for the payload. -/
def statedLength (bytes : List UInt8) : Nat :=
  Stored.ofLittleEndian (bytes.extract 12 16)

/-- The bytes behind the header, as many as it states. -/
def statedPayload (bytes : List UInt8) : List UInt8 :=
  bytes.extract 32 (32 + statedLength bytes)

end Header

/-! ### Rows of checks -/

/-- A check, and the error that it gives if it is not passed. -/
structure LoadCheck where
  /-- The check is passed. -/
  passes : Prop
  /-- The check gives this error. -/
  reports : LoadError → Prop
  /-- There is only one such error. -/
  reports_unique : ∀ {e e'}, reports e → reports e' → e = e'

namespace LoadCheck

/-- A check that always gives the same error. -/
def require (passes : Prop) (error : LoadError) : LoadCheck where
  passes := passes
  reports e := e = error
  reports_unique h h' := h.trans h'.symm

/-- The check of the rules in a payload, whose error says what is wrong with them. -/
def validation (payload : List UInt8) : LoadCheck where
  passes := ∃ stored s, StoredSet.Decodes payload stored ∧ stored.Admits s
  reports e := ∃ stored fault, StoredSet.Decodes payload stored ∧
    stored.restore = .error fault ∧ e = .invalid fault
  reports_unique := by
    rintro _ _ ⟨stored, fault, hdecodes, hfault, rfl⟩ ⟨stored', fault', hdecodes', hfault', rfl⟩
    obtain rfl := hdecodes.unique hdecodes'
    rw [Except.error.inj (hfault.symm.trans hfault')]

/-- The checks of the header: its length and its first bytes. -/
def ofHeader (bytes : List UInt8) : List LoadCheck :=
  [require (32 ≤ bytes.length) (.lengthMismatch 32 bytes.length),
    require (bytes.extract 0 4 = [0x45, 0x4C, 0x49, 0x47]) .badMagic]

/-- The checks up to the payload: after those of the header, the version, the length of the payload
and its hash. -/
def ofPayload (bytes : List UInt8) : List LoadCheck :=
  ofHeader bytes ++
    [require (Header.statedVersion bytes = 1) (.incompatibleVersion (Header.statedVersion bytes)),
      require (32 + Header.statedLength bytes ≤ bytes.length)
        (.lengthMismatch (Header.statedLength bytes) (bytes.length - 32)),
      require (bytes.extract 16 32 = (Blake3.hash (Header.statedPayload bytes)).take 16)
        .checksumMismatch]

/-- The checks of a stored set: after those up to the payload, whether it can be decoded and whether
its rules are right. -/
def all (bytes : List UInt8) : List LoadCheck :=
  ofPayload bytes ++
    [require (∃ stored, StoredSet.Decodes (Header.statedPayload bytes) stored) .undecodable,
      validation (Header.statedPayload bytes)]

/-- The error is the one of the first check of a row that is not passed. -/
inductive FirstFailing : List LoadCheck → LoadError → Prop
  /-- The check at the front is not passed. -/
  | here {c : LoadCheck} {cs : List LoadCheck} {e : LoadError} (hfails : ¬c.passes)
      (hreports : c.reports e) : FirstFailing (c :: cs) e
  /-- The check at the front is passed, and one behind it is not. -/
  | later {c : LoadCheck} {cs : List LoadCheck} {e : LoadError} (hpasses : c.passes)
      (hrest : FirstFailing cs e) : FirstFailing (c :: cs) e

variable {α β : Type} {cs cs' : List LoadCheck} {e e' : LoadError}

theorem FirstFailing.not_all_pass (h : FirstFailing cs e) : ¬∀ c ∈ cs, c.passes := by
  induction h with
  | here hfails => exact fun hall => hfails (hall _ List.mem_cons_self)
  | later _ _ ih => exact fun hall => ih fun c hc => hall c (List.mem_cons_of_mem _ hc)

/-- A row of checks gives only one error. -/
theorem FirstFailing.unique (h : FirstFailing cs e) (h' : FirstFailing cs e') : e = e' := by
  induction h with
  | here hfails hreports =>
    cases h' with
    | here _ hreports' => exact LoadCheck.reports_unique _ hreports hreports'
    | later hpasses' => exact absurd hpasses' hfails
  | later hpasses _ ih =>
    cases h' with
    | here hfails' => exact absurd hpasses hfails'
    | later _ hrest' => exact ih hrest'

theorem FirstFailing.append_right (h : FirstFailing cs e) (cs' : List LoadCheck) :
    FirstFailing (cs ++ cs') e := by
  induction h with
  | here hfails hreports => exact .here hfails hreports
  | later hpasses _ ih => exact .later hpasses ih

theorem FirstFailing.append_left (hall : ∀ c ∈ cs, c.passes) (h : FirstFailing cs' e) :
    FirstFailing (cs ++ cs') e := by
  induction cs with
  | nil => exact h
  | cons c cs ih =>
    rw [List.forall_mem_cons] at hall
    exact .later hall.1 (ih hall.2)

/-! ### Computations that make checks -/

/-- The result agrees with the checks: a value as described if all are passed, and otherwise the
error of the first one that is not. -/
def Agrees (cs : List LoadCheck) (Result : α → Prop) : Except LoadError α → Prop
  | .ok a => (∀ c ∈ cs, c.passes) ∧ Result a
  | .error e => FirstFailing cs e

variable {Result : α → Prop} {Result' : β → Prop} {x : Except LoadError α}

theorem Agrees.pure {a : α} (h : Result a) : Agrees [] Result (.ok a) :=
  ⟨fun _ hc => absurd hc List.not_mem_nil, h⟩

theorem Agrees.fail {c : LoadCheck} (hfails : ¬c.passes) (hreports : c.reports e) :
    Agrees (c :: cs) Result (.error e) :=
  .here hfails hreports

theorem Agrees.pass {c : LoadCheck} (hpasses : c.passes) (h : Agrees cs Result x) :
    Agrees (c :: cs) Result x := by
  cases x with
  | error e => exact .later hpasses h
  | ok a => exact ⟨List.forall_mem_cons.2 ⟨hpasses, h.1⟩, h.2⟩

/-- A computation that stops if a check is not passed. -/
theorem Agrees.guard {stops passes : Prop} [Decidable stops] (hstops : stops ↔ ¬passes)
    (h : passes → Agrees cs Result x) :
    Agrees (require passes e :: cs) Result (if stops then .error e else x) := by
  by_cases hpasses : passes
  · rw [if_neg fun hstop => hstops.1 hstop hpasses]
    exact .pass hpasses (h hpasses)
  · rw [if_pos (hstops.2 hpasses)]
    exact .fail hpasses rfl

/-- **Computations one after the other make their checks one after the other**, and a later one can
rely on the checks of the earlier one. -/
theorem Agrees.bind {f : α → Except LoadError β} (h : Agrees cs Result x)
    (hf : (∀ c ∈ cs, c.passes) → ∀ a, Result a → Agrees cs' Result' (f a)) :
    Agrees (cs ++ cs') Result' (x >>= f) := by
  cases x with
  | error e => exact h.append_right cs'
  | ok a =>
    obtain ⟨hall, ha⟩ := h
    have hnext := hf hall a ha
    show Agrees (cs ++ cs') Result' (f a)
    cases hfa : f a with
    | error e =>
      rw [hfa] at hnext
      exact .append_left hall hnext
    | ok b =>
      rw [hfa] at hnext
      exact ⟨List.forall_mem_append.2 ⟨hall, hnext.1⟩, hnext.2⟩

/-- A result is determined by the checks and by the value that they leave. -/
theorem Agrees.eq_ok_iff (h : Agrees cs Result x)
    (hunique : ∀ {a b}, Result a → Result b → a = b) {a : α} :
    x = .ok a ↔ (∀ c ∈ cs, c.passes) ∧ Result a := by
  constructor
  · rintro rfl
    exact h
  · rintro ⟨hall, ha⟩
    cases x with
    | error e => exact absurd hall (FirstFailing.not_all_pass h)
    | ok b => rw [hunique h.2 ha]

theorem Agrees.eq_error_iff (h : Agrees cs Result x) : x = .error e ↔ FirstFailing cs e := by
  constructor
  · rintro rfl
    exact h
  · intro hfirst
    cases x with
    | error e' => rw [FirstFailing.unique h hfirst]
    | ok a => exact absurd h.1 hfirst.not_all_pass

end LoadCheck

/-! ### The checks of a stored set -/

open LoadCheck

theorem Header.read_agrees (bytes : List UInt8) :
    Agrees (LoadCheck.ofHeader bytes)
      (· = ⟨statedVersion bytes, statedLength bytes, bytes.extract 16 32⟩) (read bytes) :=
  .guard Nat.not_le.symm fun _ => .guard Iff.rfl fun _ => .pure rfl

namespace RuleSet

theorem payloadOf_agrees (bytes : List UInt8) :
    Agrees (LoadCheck.ofPayload bytes) (· = Header.statedPayload bytes) (payloadOf bytes) := by
  refine (Header.read_agrees bytes).bind fun hall header hheader => ?_
  subst hheader
  have hsize : 32 ≤ bytes.length := hall _ List.mem_cons_self
  have hlength : (bytes.drop Header.size).length = bytes.length - 32 := List.length_drop
  have hpayload : (bytes.drop Header.size).take (Header.statedLength bytes) =
      Header.statedPayload bytes := by
    rw [Header.statedPayload, List.extract_eq_take_drop, Nat.add_sub_cancel_left]
    rfl
  simp only [hlength, hpayload]
  have hshort : bytes.length - 32 < Header.statedLength bytes ↔
      ¬32 + Header.statedLength bytes ≤ bytes.length := by
    omega
  exact .guard Iff.rfl fun _ => .guard hshort fun _ => .guard ne_comm fun _ => .pure rfl

/-- **What is loaded agrees with the checks.** -/
theorem ofBytes_agrees (bytes : List UInt8) :
    Agrees (LoadCheck.all bytes)
      (fun s => ∃ stored, StoredSet.Decodes (Header.statedPayload bytes) stored ∧ stored.Admits s)
      (ofBytes bytes) := by
  refine (payloadOf_agrees bytes).bind ?_
  rintro - payload rfl
  cases hread : StoredSet.read (Header.statedPayload bytes) with
  | none =>
    refine .fail ?_ rfl
    rintro ⟨stored, hdecodes⟩
    rw [← StoredSet.read_eq_some_iff, hread] at hdecodes
    cases hdecodes
  | some stored =>
    have hdecodes := StoredSet.read_eq_some_iff.1 hread
    refine .pass ⟨stored, hdecodes⟩ ?_
    cases hrestore : stored.restore with
    | ok s =>
      have hadmits := StoredSet.restore_eq_ok_iff.1 hrestore
      simp only [hrestore]
      exact .pass ⟨stored, s, hdecodes, hadmits⟩ (.pure ⟨stored, hdecodes, hadmits⟩)
    | error fault =>
      simp only [hrestore]
      refine .fail ?_ ⟨stored, fault, hdecodes, hrestore, rfl⟩
      rintro ⟨stored', s, hdecodes', hadmits⟩
      obtain rfl := hdecodes.unique hdecodes'
      rw [← StoredSet.restore_eq_ok_iff, hrestore] at hadmits
      cases hadmits

/-- **Bytes are loaded exactly if they pass every check, as the set that their payload describes,
and otherwise they are refused by the first check that they do not pass.** -/
theorem ofBytes_eq_ok_and_error_iff (bytes : List UInt8) :
    (∀ s, ofBytes bytes = .ok s ↔ (∀ c ∈ LoadCheck.all bytes, c.passes) ∧
      ∃ stored, StoredSet.Decodes (Header.statedPayload bytes) stored ∧ stored.Admits s) ∧
    ∀ e, ofBytes bytes = .error e ↔ FirstFailing (LoadCheck.all bytes) e := by
  have hagrees := ofBytes_agrees bytes
  refine ⟨fun s => hagrees.eq_ok_iff ?_, fun e => hagrees.eq_error_iff⟩
  rintro s s' ⟨stored, hdecodes, hadmits⟩ ⟨stored', hdecodes', hadmits'⟩
  obtain rfl := hdecodes.unique hdecodes'
  exact hadmits.unique hadmits'

end RuleSet

end Eligibility
