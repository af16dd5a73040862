import Eligibility.Proofs.Stored.Length

/-!
# The height of stored conditions is not bounded

The reader of a payload goes down into a condition by at most as many levels as there are bytes.
That bound is never met: each level takes a byte of its own.  So a payload is read exactly if it
can be read at all, however high its conditions are.

## Main definitions

* `StoredSet.Decodes payload stored` : a payload starts with a stored set, of whatever height.
* `Stored.Refines n read read'` : on at most `n` bytes, one reader does all that another one does.

## Main results

* `Stored.refines_condition` : a reader that may go down by as many levels as there are bytes does
  all that a reader with any other bound does.
* `StoredSet.read_eq_some_iff` : **a payload is read exactly if it starts with a stored set.**
-/

namespace Eligibility

/-- The payload starts with the stored set; what comes after it is left alone. -/
def StoredSet.Decodes (payload : List UInt8) (stored : StoredSet) : Prop :=
  ∃ height rest, reader height payload = some (stored, rest)

namespace Stored

variable {α β : Type} {n m : Nat} {read read' : Reader α}

/-- On at most `n` bytes, the second reader does all that the first one does. -/
def Refines (n : Nat) (read read' : Reader α) : Prop :=
  ∀ bytes, bytes.length ≤ n → ∀ p, read bytes = some p → read' bytes = some p

theorem refines_refl (n : Nat) (read : Reader α) : Refines n read read :=
  fun _ _ _ hread => hread

/-- After the first value there are fewer bytes, by what it costs. -/
theorem Refines.bind {cost : α → Nat} {next next' : α → Reader β} (h : Refines n read read')
    (htakes : Takes read 0 cost) (hle : ∀ a, n ≤ m + cost a)
    (hnext : ∀ a, Refines m (next a) (next' a)) : Refines n (read >>= next) (read' >>= next') := by
  rintro bytes hbytes ⟨b, rest⟩ hread
  obtain ⟨a, mid, ha, hb⟩ := bind_eq_some_iff.1 hread
  have hcost := htakes bytes a mid ha
  have hrest := hle a
  have hmid : mid.length ≤ m := by omega
  exact bind_eq_some_iff.2 ⟨a, mid, h bytes hbytes _ ha, hnext a mid hmid _ hb⟩

/-- A value that is read and then only wrapped. -/
theorem Refines.map (h : Refines n read read') (f : α → β) :
    Refines n (read >>= fun a => pure (f a)) (read' >>= fun a => pure (f a)) := by
  rintro bytes hbytes ⟨b, rest⟩ hread
  obtain ⟨a, mid, ha, hb⟩ := bind_eq_some_iff.1 hread
  exact bind_eq_some_iff.2 ⟨a, mid, h bytes hbytes _ ha, hb⟩

theorem refines_many {cost : α → Nat} (h : Refines n read read') (htakes : Takes read 0 cost)
    (count : Nat) : Refines n (readMany read count) (readMany read' count) := by
  induction count with
  | zero => exact refines_refl n _
  | succ count ih => exact h.bind htakes (fun _ => Nat.le_add_right _ _) fun a => ih.map (a :: ·)

theorem refines_list {cost : α → Nat} (h : Refines n read read') (htakes : Takes read 0 cost) :
    Refines n (readList read) (readList read') :=
  (refines_refl n readVarint).bind takes_varint (fun _ => Nat.le_add_right _ _)
    fun count => refines_many h htakes count

/-- **A reader that may go down by as many levels as there are bytes does all that a reader with any
other bound does.** -/
theorem refines_condition {height height' : Nat} (hle : n ≤ height') :
    Refines n (readCondition height) (readCondition height') := by
  -- the index of the form is a byte, which pays for the level below
  induction height generalizing n height' with
  | zero =>
    intro bytes hbytes p hread
    cases hread
  | succ height ih =>
    cases height' with
    | zero =>
      rintro bytes hbytes ⟨c, rest⟩ hread
      have hcost : (condition c).length + rest.length ≤ 0 + bytes.length :=
        takes_condition (height + 1) bytes c rest hread
      have hpos := length_condition_pos c
      omega
    | succ height' =>
      have hbelow : ∀ i, n ≤ height' + (varint i).length := by
        intro i
        have hpos := length_varint_pos i
        omega
      have hoperands := refines_list (ih (Nat.le_refl height')) (takes_condition height)
      refine (refines_refl n readIndex).bind takes_index hbelow fun i => ?_
      match i with
      | 0 => exact refines_refl _ _
      | 1 => exact hoperands.map Condition.and
      | 2 => exact hoperands.map Condition.or
      | 3 => exact (ih (Nat.le_refl height')).map Condition.not
      | i + 4 => exact refines_refl _ _

theorem refines_rule {height height' : Nat} (hle : n ≤ height') :
    Refines n (readRule height) (readRule height') := by
  have hbelow : ∀ cost, n ≤ n + cost := Nat.le_add_right n
  refine (refines_refl n readText).bind takes_text (fun _ => hbelow _) fun name => ?_
  refine (refines_refl n readText).bind takes_text (fun _ => hbelow _) fun source => ?_
  refine (refines_refl n readVarint).bind takes_varint (fun _ => hbelow _) fun maxDepth => ?_
  refine (refines_refl n readVarint).bind takes_varint (fun _ => hbelow _) fun maxHeight => ?_
  exact (refines_condition hle).map _

theorem refines_set {height height' : Nat} (hle : n ≤ height') :
    Refines n (StoredSet.reader height) (StoredSet.reader height') := by
  have hbelow : ∀ cost, n ≤ n + cost := Nat.le_add_right n
  refine (refines_refl n readVarint).bind takes_varint (fun _ => hbelow _) fun ruleCount => ?_
  refine (refines_refl n (readChoice _)).bind (takes_choice (by decide)) (fun _ => hbelow _)
    fun combine => ?_
  exact (refines_list (refines_rule hle) (takes_rule height)).map _

end Stored

/-- **A payload is read exactly if it starts with a stored set.** -/
theorem StoredSet.read_eq_some_iff {payload : List UInt8} {stored : StoredSet} :
    read payload = some stored ↔ Decodes payload stored := by
  rw [read_eq, Option.map_eq_some_iff]
  constructor
  · rintro ⟨⟨stored, rest⟩, hread, rfl⟩
    exact ⟨payload.length, rest, hread⟩
  · rintro ⟨height, rest, hread⟩
    have hrefines : Stored.Refines payload.length (reader height) (reader payload.length) :=
      Stored.refines_set (Nat.le_refl _)
    exact ⟨(stored, rest), hrefines payload (Nat.le_refl _) _ hread, rfl⟩

/-- A payload starts with one stored set only. -/
theorem StoredSet.Decodes.unique {payload : List UInt8} {stored stored' : StoredSet}
    (h : Decodes payload stored) (h' : Decodes payload stored') : stored = stored' :=
  Option.some.inj ((read_eq_some_iff.2 h).symm.trans (read_eq_some_iff.2 h'))

end Eligibility
