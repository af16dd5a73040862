import Eligibility.Proofs.Json.Lossless
import Eligibility.Proofs.RuleSet.Built
import Eligibility.Proofs.Stored.Accepted
import Eligibility.RuleSet.File

/-!
# Every rule keeps its promise

There are many ways to a rule: from a text, from parts that are checked against their text, from a
JSON value, from a rule book, and out of a set that was built or read from storage.  They all end in
the same promise, and nothing that is read has to be trusted for it.

## Main definitions

* `Json.fieldsUnder` : the parts of an object or an array under their keys.
* `Rule.Obtainable`, `RuleSet.Obtainable` : the rules and the sets that can be had at all.

## Main results

* `RuleSet.wellFormed_of_parse`, `RuleSet.Builder.wellFormed_of_build`,
  `RuleSet.wellFormed_of_ofBytes` : a rule book, a builder and storage give sets that keep the
  promise.
* `Rule.wellFormed_and_restore_of_obtainable` : **every rule and every set keeps the promise.**
-/

namespace Eligibility

/-! ### What can be had -/

mutual

/-- The rules that can be had. -/
inductive Rule.Obtainable : Rule → Prop
  /-- From a name and a text. -/
  | ofSource {name source : String} {limits : Limits} {rule : Rule} :
    Rule.ofSource name source limits = .ok rule → Rule.Obtainable rule
  /-- From parts, whatever expression is given with them. -/
  | restore {name source : String} {expr : Expr} {limits : Limits} {rule : Rule} :
    Rule.restore name source expr limits = .ok rule → Rule.Obtainable rule
  /-- From a JSON value. -/
  | ofJson {j : Json} {rule : Rule} : Rule.ofJson j = .ok rule → Rule.Obtainable rule
  /-- From a rule book. -/
  | ofBook {document : String} {rules : List Rule} {rule : Rule} :
    RuleBook.parse document = .ok rules → rule ∈ rules → Rule.Obtainable rule
  /-- Out of a set of rules. -/
  | member {s : RuleSet} {rule : Rule} :
    RuleSet.Obtainable s → rule ∈ s.rules → Rule.Obtainable rule

/-- The sets of rules that can be had. -/
inductive RuleSet.Obtainable : RuleSet → Prop
  /-- From a builder whose ready-made rules can be had. -/
  | build {b : RuleSet.Builder} {s : RuleSet} :
    (∀ rule, RuleSet.Item.ready rule ∈ b.items.toList → Rule.Obtainable rule) →
      b.build = .ok s → RuleSet.Obtainable s
  /-- From a rule book. -/
  | ofBook {document : String} {s : RuleSet} :
    RuleSet.ofBook document = .ok s → RuleSet.Obtainable s
  /-- From any bytes. -/
  | ofBytes {bytes : List UInt8} {s : RuleSet} :
    RuleSet.ofBytes bytes = .ok s → RuleSet.Obtainable s
  /-- From a file with a rule book. -/
  | ofBookFile {file : Option (List UInt8)} {s : RuleSet} :
    RuleSet.ofBookFile file = .ok s → RuleSet.Obtainable s
  /-- From a file with any bytes. -/
  | ofStoredFile {file : Option (List UInt8)} {s : RuleSet} :
    RuleSet.ofStoredFile file = .ok s → RuleSet.Obtainable s

end

/-! ### The ways to a rule -/

/-- The parts of a value under their keys: the fields of an object, and the items of an array, which
stand in the order of the keys. -/
def Json.fieldsUnder (keys : List String) : Json → Option (List (String × Json))
  | object fields => some fields
  | array items => some (keys.zip items)
  | _ => none

/-- A rule that is read from an object or an array is restored from the parts in it. -/
theorem Rule.exists_restore_of_ofJson {j : Json} {rule : Rule} (h : ofJson j = .ok rule) :
    ∃ fields tree name source expr limits, j.fieldsUnder keys = some fields ∧
      fields.lookup "expr" = some tree ∧ Expr.ofJson tree = .ok expr ∧
      restore name source expr limits = .ok rule := by
  cases j with
  | object fields =>
    obtain ⟨expr?, hexpr, h⟩ := Except.bind_eq_ok_iff.1 h
    obtain ⟨name?, -, h⟩ := Except.bind_eq_ok_iff.1 h
    obtain ⟨limits?, -, h⟩ := Except.bind_eq_ok_iff.1 h
    obtain ⟨source?, -, h⟩ := Except.bind_eq_ok_iff.1 h
    obtain ⟨name, -, h⟩ := Except.bind_eq_ok_iff.1 h
    obtain ⟨source, -, h⟩ := Except.bind_eq_ok_iff.1 h
    obtain ⟨expr, hpresent, hmade⟩ := Except.bind_eq_ok_iff.1 h
    obtain rfl := Json.eq_some_of_present hpresent
    obtain ⟨tree, htree, hread⟩ := Json.exists_lookup_of_part hexpr
    exact ⟨fields, tree, name, source, expr, limits?.getD {}, rfl, htree, hread,
      Except.eq_ok_of_mapError hmade⟩
  | array items =>
    obtain ⟨name, -, h⟩ := Except.bind_eq_ok_iff.1 h
    obtain ⟨source, -, h⟩ := Except.bind_eq_ok_iff.1 h
    obtain ⟨expr, hexpr, h⟩ := Except.bind_eq_ok_iff.1 h
    obtain ⟨limits?, -, h⟩ := Except.bind_eq_ok_iff.1 h
    obtain ⟨-, -, hmade⟩ := Except.bind_eq_ok_iff.1 h
    obtain ⟨tree, htree, hread⟩ := Json.exists_lookup_of_part (Json.item_eq_ok_iff_part.1 hexpr)
    exact ⟨keys.zip items, tree, name, source, expr, limits?.getD {}, rfl, htree, hread,
      Except.eq_ok_of_mapError hmade⟩
  | null | bool | int | number | string => cases h

/-! ### The ways to a set -/

theorem RuleBook.ofSource_of_toRule {d : Draft} {rule : Rule} (h : d.toRule = .ok rule) :
    Rule.ofSource d.name d.source {} = .ok rule := by
  unfold Draft.toRule at h
  split at h
  · cases h
  · exact h

/-- The rules of a document are those of its drafts; nothing stands before these, and there are
some. -/
theorem RuleBook.exists_segment_of_parse {document : String} {rules : List Rule}
    (h : parse document = .ok rules) :
    ∃ drafts, segment (numberedLines document) = ([], drafts) ∧ drafts ≠ [] ∧
      List.Forall₂ (fun d rule => Rule.ofSource d.name d.source {} = .ok rule) drafts rules := by
  unfold parse at h
  split at h
  · cases h
  · cases h
  · rename_i drafts hne hsegment
    have hmade := Except.mapM_eq_ok_iff.1 h
    exact ⟨drafts, hsegment, hne, hmade.imp fun d rule hd => ofSource_of_toRule hd⟩

/-- A rule book gives at least one rule, and each of them is read from a text. -/
theorem RuleSet.wellFormed_of_parse {document : String} {rules : List Rule}
    (h : RuleBook.parse document = .ok rules) (combine : Combine) :
    RuleSet.WellFormed ⟨rules, combine⟩ := by
  obtain ⟨drafts, -, hne, hrules⟩ := RuleBook.exists_segment_of_parse h
  exact wellFormed_of_forall₂ hrules hne fun d _ rule hd => Rule.wellFormed_of_ofSource hd

theorem RuleSet.wellFormed_of_ofBook {document : String} {s : RuleSet}
    (h : ofBook document = .ok s) : s.WellFormed := by
  obtain ⟨rules, hrules, h⟩ := Except.bind_eq_ok_iff.1 h
  obtain rfl := Except.ok.inj h
  exact wellFormed_of_parse hrules .all

namespace RuleSet.Builder

theorem wellFormed_of_make {limits : Limits} {item : Item} {rule : Rule}
    (h : make limits item = .ok rule) (hready : ∀ r, item = .ready r → r.WellFormed) :
    rule.WellFormed := by
  cases item with
  | source name text => exact Rule.wellFormed_of_ofSource h
  | ready r =>
    obtain rfl := Except.ok.inj h
    exact hready _ rfl

/-- A set that is built has at least one rule, and each of them is read from a text or was there
before. -/
theorem wellFormed_of_build {b : Builder} {s : RuleSet} (h : b.build = .ok s)
    (hready : ∀ rule, Item.ready rule ∈ b.items.toList → rule.WellFormed) : s.WellFormed := by
  obtain ⟨hne, hgives, -⟩ := build_eq_ok_iff.1 h
  refine wellFormed_of_forall₂ hgives hne fun item hitem rule hrule => ?_
  refine wellFormed_of_make hrule.make_eq fun r hr => ?_
  rw [hr] at hitem
  exact hready r hitem

end RuleSet.Builder

namespace RuleSet

variable {s : RuleSet}

theorem wellFormed_of_ofBytes {bytes : List UInt8} (h : ofBytes bytes = .ok s) :
    s.WellFormed := by
  have hagrees := ofBytes_agrees bytes
  rw [h] at hagrees
  obtain ⟨-, stored, -, hadmits⟩ := hagrees
  exact hadmits.wellFormed

theorem wellFormed_of_ofBookFile {file : Option (List UInt8)} (h : ofBookFile file = .ok s) :
    s.WellFormed := by
  unfold ofBookFile at h
  split at h
  · cases h
  split at h
  · cases h
  · exact wellFormed_of_ofBook (Except.eq_ok_of_mapError h)

theorem wellFormed_of_ofStoredFile {file : Option (List UInt8)} (h : ofStoredFile file = .ok s) :
    s.WellFormed := by
  unfold ofStoredFile at h
  split at h
  · cases h
  · exact wellFormed_of_ofBytes (Except.eq_ok_of_mapError h)

end RuleSet

/-! ### All ways together -/

mutual

theorem Rule.Obtainable.wellFormed {rule : Rule} : rule.Obtainable → rule.WellFormed
  | .ofSource h => Rule.wellFormed_of_ofSource h
  | .restore h => Rule.wellFormed_of_ofSource (Rule.ofSource_of_restore h)
  | .ofJson h =>
    let ⟨_, _, _, _, _, _, _, _, _, hrestore⟩ := Rule.exists_restore_of_ofJson h
    Rule.wellFormed_of_ofSource (Rule.ofSource_of_restore hrestore)
  | .ofBook h hmem => (RuleSet.wellFormed_of_parse h .all).rules _ hmem
  | .member hs hmem => hs.wellFormed.rules _ hmem

theorem RuleSet.Obtainable.wellFormed {s : RuleSet} : s.Obtainable → s.WellFormed
  | .build hready h =>
    RuleSet.Builder.wellFormed_of_build h fun rule hrule => (hready rule hrule).wellFormed
  | .ofBook h => RuleSet.wellFormed_of_ofBook h
  | .ofBytes h => RuleSet.wellFormed_of_ofBytes h
  | .ofBookFile h => RuleSet.wellFormed_of_ofBookFile h
  | .ofStoredFile h => RuleSet.wellFormed_of_ofStoredFile h

end

/-- **Every rule and every set keeps the promise.**  However a rule is had, its name is not blank,
its expression is what its text says under its limits, lies within them and can be written down,
and the rule is restored from its own parts; and a set has at least one rule, of which the same is
true. -/
theorem Rule.wellFormed_and_restore_of_obtainable :
    (∀ rule : Rule, rule.Obtainable → rule.WellFormed ∧
      Rule.restore rule.name rule.source rule.expr rule.limits = .ok rule) ∧
    ∀ s : RuleSet, s.Obtainable → s.rules ≠ [] ∧ ∀ rule ∈ s.rules, rule.WellFormed ∧
      Rule.restore rule.name rule.source rule.expr rule.limits = .ok rule := by
  constructor
  · intro rule hrule
    exact ⟨hrule.wellFormed, hrule.wellFormed.restore_eq⟩
  · intro s hs
    refine ⟨hs.wellFormed.rules_ne, fun rule hmem => ?_⟩
    have hrule := hs.wellFormed.rules rule hmem
    exact ⟨hrule, hrule.restore_eq⟩

/-- A rule of a text, and the set that is built of that rule and of one more text. -/
theorem Rule.restore_of_built :
    ∃ rule s, Rule.ofSource "art" "subject == 'art'" ⟨0, 1⟩ = .ok rule ∧
      RuleSet.Builder.build { items := #[.ready rule, .source "any" "NOT (a < 'b')"] } = .ok s ∧
      Rule.restore rule.name rule.source rule.expr rule.limits = .ok rule ∧ s.rules ≠ [] ∧
      ∀ rule ∈ s.rules, rule.WellFormed := by
  let rule : Rule := ⟨"art", "subject == 'art'", .compare "subject" .eq (.text "art"), ⟨0, 1⟩⟩
  let other : Rule := ⟨"any", "NOT (a < 'b')", .not (.compare "a" .lt (.text "b")), {}⟩
  have hrule : Rule.ofSource "art" "subject == 'art'" ⟨0, 1⟩ = .ok rule := by
    decide +kernel
  have hset : RuleSet.Builder.build { items := #[.ready rule, .source "any" "NOT (a < 'b')"] } =
      .ok ⟨[rule, other], .all⟩ := by
    decide +kernel
  have hobtained : RuleSet.Obtainable ⟨[rule, other], .all⟩ := by
    refine .build (fun ready hready => ?_) hset
    obtain rfl : ready = rule := by simpa using hready
    exact .ofSource hrule
  obtain ⟨hne, hall⟩ := wellFormed_and_restore_of_obtainable.2 _ hobtained
  exact ⟨rule, _, hrule, hset, (wellFormed_and_restore_of_obtainable.1 rule (.ofSource hrule)).2,
    hne, fun rule hmem => (hall rule hmem).1⟩

end Eligibility
