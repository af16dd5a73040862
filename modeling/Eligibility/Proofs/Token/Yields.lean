import Eligibility.Proofs.Except
import Eligibility.Proofs.Token.Lexemes
import Mathlib.Data.List.TakeWhile

/-!
# Where the tokens of a text stand

A text is cut up to its end, or up to the first place where neither layout nor a lexeme stands.  Up
to there every token is at the byte offset of its lexeme, whatever the characters before it are, and
what stands at that place can be told without cutting.

## Main definitions

* `Lexeme.startsLexeme` : the characters that some lexeme starts with.
* `Lexeme.Faulty kind cs` : the text `cs` starts with no lexeme, for the reason `kind`.
* `Token.Yields offset cs rest ts` : before `rest`, the characters `cs` give the tokens `ts`.
* `Token.StartsAt cs i` : a character other than layout starts at the byte offset `i`.

## Main results

* `Lexeme.faulty_of_cut` : what cannot be cut is at fault.
* `Token.yields_iff_scan`, `Token.scan_eq_error` : **cutting gives the tokens in their places, up to
  the end or up to a fault.**
* `Token.Yields.place_of_mem` : every token stands where its lexeme does.
-/

namespace Eligibility

namespace Lexeme

/-- The characters that some lexeme starts with. -/
def startsLexeme (c : Char) : Bool :=
  c == '(' || c == ')' || c == '\'' || c == '"' || c == '-' || c.isDigit ||
    Token.isOperatorChar c || Token.isWordStart c

/-- The text starts with no lexeme, for the given reason. -/
inductive Faulty : ParseError.Kind → List Char → Prop
  /-- A quote without another one behind it. -/
  | unterminatedString {quote : Char} {cs : List Char} (hquote : quote = '\'' ∨ quote = '"')
      (hcs : quote ∉ cs) : Faulty .unterminatedString (quote :: cs)
  /-- A minus sign without a digit behind it. -/
  | minus {cs : List Char} (hcs : ∀ c ∈ cs.head?, c.isDigit = false) :
    Faulty (.unrecognized '-') ('-' :: cs)
  /-- A character that neither is layout nor starts a lexeme. -/
  | unrecognized {c : Char} {cs : List Char} (hlayout : Token.isLayout c = false)
      (hstart : startsLexeme c = false) : Faulty (.unrecognized c) (c :: cs)
  /-- A longest run of operator characters that is no operator. -/
  | unknownOperator {run rest : List Char} (hne : run ≠ [])
      (hrun : run.all Token.isOperatorChar = true)
      (hrest : ∀ c ∈ rest.head?, Token.isOperatorChar c = false)
      (hop : ∀ op : CompareOp, op.symbol ≠ String.ofList run) :
    Faulty (.unknownOperator (String.ofList run)) (run ++ rest)
  /-- A longest numeral whose value is not finite. -/
  | numberOutOfRange {negative : Bool} {whole fraction rest : List Char} (hne : whole ≠ [])
      (hwhole : whole.all Char.isDigit = true) (hfraction : fraction.all Char.isDigit = true)
      (hinfinite : ((Decimal.ofDigits whole fraction).round negative).isFinite = false)
      (hrest : NumberStops fraction rest) :
    Faulty (.numberOutOfRange (String.ofList (numeral negative whole fraction)))
      (numeral negative whole fraction ++ rest)

variable {c : Char} {cs : List Char} {kind : ParseError.Kind}

theorem faulty_of_cutNumber {negative : Bool}
    (hstart : negative = true ∨ cs.takeWhile Char.isDigit ≠ [])
    (h : cutNumber negative cs = .error kind) :
    Faulty kind ((if negative then ['-'] else []) ++ cs) := by
  cases hf : cutFraction (cs.dropWhile Char.isDigit) with
  | mk fraction rest =>
    simp only [cutNumber, hf] at h
    split at h
    · rename_i hnone
      obtain rfl := Except.error.inj h
      -- without digits it is the minus sign that has led here
      obtain rfl := hstart.resolve_right (not_not_intro hnone)
      refine .minus fun c hc => ?_
      cases cs with
      | nil => cases hc
      | cons d ds =>
        obtain rfl := Option.some.inj hc
        cases hd : d.isDigit with
        | false => rfl
        | true => simp [hd] at hnone
    rename_i hne
    split at h
    · cases h
    · rename_i hinfinite
      obtain rfl := Except.error.inj h
      obtain ⟨hfraction, hrest⟩ := numberStops_of_cutFraction (stop_dropWhile _ cs) hf
      have hfaulty := @Faulty.numberOutOfRange negative _ _ _ hne List.all_takeWhile hfraction
        (Bool.eq_false_iff.2 hinfinite) hrest
      simpa only [numeral, List.append_assoc, cutFraction_append hf,
        List.takeWhile_append_dropWhile] using hfaulty

theorem faulty_of_cutQuoted {quote : Char} (hquote : quote = '\'' ∨ quote = '"')
    (h : cutQuoted quote cs = .error kind) : Faulty kind (quote :: cs) := by
  unfold cutQuoted at h
  split at h
  · rename_i hnil
    obtain rfl := Except.error.inj h
    refine .unterminatedString hquote fun hmem => ?_
    simpa using List.dropWhile_eq_nil_iff.1 hnil quote hmem
  · cases h

/-- **What cannot be cut is at fault.** -/
theorem faulty_of_cut (hlayout : Token.isLayout c = false) (h : cut c cs = .error kind) :
    Faulty kind (c :: cs) := by
  simp only [cut] at h
  split at h
  · cases h
  split at h
  · cases h
  split at h
  · rename_i hquote
    exact faulty_of_cutQuoted hquote h
  split at h
  · rename_i hc
    rw [hc]
    exact faulty_of_cutNumber (.inl rfl) h
  split at h
  · rename_i hdigit
    refine faulty_of_cutNumber (.inr ?_) h
    rw [List.takeWhile_cons_of_pos hdigit]
    exact List.cons_ne_nil _ _
  split at h
  · rename_i hoperator
    split at h
    · cases h
    · rename_i hnone
      obtain rfl := Except.error.inj h
      have hrun : (c :: cs.takeWhile Token.isOperatorChar).all Token.isOperatorChar = true := by
        rw [List.all_cons, hoperator, List.all_takeWhile]
        rfl
      have hfaulty := Faulty.unknownOperator (List.cons_ne_nil _ _) hrun
        (stop_dropWhile Token.isOperatorChar cs) fun op hop => by
          rw [← hop, CompareOp.ofSymbol?_symbol] at hnone
          cases hnone
      rwa [List.cons_append, List.takeWhile_append_dropWhile] at hfaulty
  split at h
  · cases h
  · obtain rfl := Except.error.inj h
    refine .unrecognized hlayout ?_
    simp_all [startsLexeme]

end Lexeme

namespace Token

/-- Before `rest`, the characters from the byte offset `offset` on are layout and lexemes, which
stand for the tokens in their places. -/
inductive Yields : Nat → List Char → List Char → List Located → Prop
  /-- Nothing at all. -/
  | nil {offset : Nat} {rest : List Char} : Yields offset [] rest []
  /-- Layout. -/
  | layout {offset : Nat} {c : Char} {cs rest : List Char} {ts : List Located}
      (hc : isLayout c = true) (hcs : Yields (offset + 1) cs rest ts) :
    Yields offset (c :: cs) rest ts
  /-- A lexeme. -/
  | lexeme {offset : Nat} {l : Lexeme} {cs rest : List Char} {ts : List Located}
      (hl : l.Stands (cs ++ rest)) (hcs : Yields (offset + byteLength l.text) cs rest ts) :
    Yields offset (l.text ++ cs) rest (⟨l.token, offset⟩ :: ts)

/-- A character other than layout starts at the byte offset `i`. -/
def StartsAt (cs : List Char) (i : Nat) : Prop :=
  ∃ before c after, cs = before ++ c :: after ∧ isLayout c = false ∧ i = byteLength before

variable {offset : Nat} {c : Char} {cs rest : List Char} {ts : List Located}

/-! ### Cutting gives the tokens in their places -/

theorem utf8Size_of_isLayout (hc : isLayout c = true) : c.utf8Size = 1 := by
  simp only [isLayout, Bool.or_eq_true, beq_iff_eq] at hc
  rcases hc with ((rfl | rfl) | rfl) | rfl <;> rfl

/-- **Cutting gives the tokens of a text in their places.** -/
theorem yields_iff_scan : Yields offset cs [] ts ↔ scan offset cs = .ok ts := by
  constructor
  · intro h
    generalize hrest : ([] : List Char) = rest at h
    induction h with
    | nil => rw [scan]
    | layout hc _ ih =>
      rw [scan_layout hc]
      exact ih hrest
    | @lexeme offset l cs rest ts hl _ ih =>
      obtain ⟨c, ds, htext, hc, hcut⟩ := hl.cut_eq
      subst hrest
      rw [List.append_nil] at hcut
      rw [htext, List.cons_append, scan_cut hc hcut, ih rfl]
      rfl
  · intro h
    fun_induction scan offset cs generalizing ts with
    | case1 offset =>
      obtain rfl := Except.ok.inj h
      exact .nil
    | case2 offset c cs hc ih => exact .layout hc (ih h)
    | case3 offset c cs hc kind hcut => cases h
    | case4 offset c cs hc l rest hcut ih =>
      obtain ⟨us, hrest, rfl⟩ := Except.map_eq_ok_iff.1 h
      obtain ⟨htext, hstands⟩ := Lexeme.cut_eq_ok_iff.1 hcut
      rw [← htext]
      refine .lexeme ?_ (ih hrest)
      rwa [List.append_nil]

/-- **Cutting fails at the first place that is at fault**, and says where it is and why. -/
theorem scan_eq_error {err : ParseError} (h : scan offset cs = .error err) :
    ∃ before rest ts, cs = before ++ rest ∧ err.offset = offset + byteLength before ∧
      Yields offset before rest ts ∧ Lexeme.Faulty err.kind rest ∧
      ∀ c ∈ rest.head?, isLayout c = false := by
  fun_induction scan offset cs with
  | case1 offset => cases h
  | case2 offset c cs hc ih =>
    obtain ⟨before, rest, ts, rfl, hoffset, hyields, hfaulty⟩ := ih h
    refine ⟨c :: before, rest, ts, rfl, ?_, .layout hc hyields, hfaulty⟩
    rw [hoffset, byteLength_cons, utf8Size_of_isLayout hc, Nat.add_assoc]
  | case3 offset c cs hc kind hcut =>
    obtain rfl := Except.error.inj h
    have hc := Bool.eq_false_iff.2 hc
    refine ⟨[], c :: cs, [], rfl, rfl, .nil, Lexeme.faulty_of_cut hc hcut, ?_⟩
    intro d hd
    obtain rfl := Option.some.inj hd
    exact hc
  | case4 offset c cs hc l rest hcut ih =>
    -- the lexeme ends before all that is left, so the fault counts among what it ends before
    obtain ⟨htext, hstands⟩ := Lexeme.cut_eq_ok_iff.1 hcut
    obtain ⟨before, rest, ts, rfl, hoffset, hyields, hfaulty⟩ := ih (Except.map_eq_error_iff.1 h)
    refine ⟨l.text ++ before, rest, _, ?_, ?_, .lexeme hstands hyields, hfaulty⟩
    · rw [← htext, List.append_assoc]
    · rw [hoffset, byteLength_append, Nat.add_assoc]

/-! ### Places in a text -/

/-- **Every token stands where its lexeme does.** -/
theorem Yields.place_of_mem (h : Yields offset cs rest ts) : ∀ t ∈ ts, ∃ before, ∃ l : Lexeme,
    ∃ after, cs ++ rest = before ++ (l.text ++ after) ∧ l.Stands after ∧
      t = ⟨l.token, offset + byteLength before⟩ := by
  induction h with
  | nil => nofun
  | @layout offset c cs rest ts hc _ ih =>
    intro t ht
    obtain ⟨before, l, after, happ, hstands, rfl⟩ := ih t ht
    refine ⟨c :: before, l, after, congrArg (c :: ·) happ, hstands, ?_⟩
    rw [byteLength_cons, utf8Size_of_isLayout hc, Nat.add_assoc]
  | @lexeme offset l cs rest ts hl _ ih =>
    rw [List.forall_mem_cons]
    refine ⟨⟨[], l, cs ++ rest, List.append_assoc .., hl, rfl⟩, fun t ht => ?_⟩
    obtain ⟨before, l', after, happ, hstands, rfl⟩ := ih t ht
    refine ⟨l.text ++ before, l', after, ?_, hstands, ?_⟩
    · rw [List.append_assoc, happ, List.append_assoc]
    · rw [byteLength_append, Nat.add_assoc]

theorem Yields.startsAt_of_mem (h : Yields 0 cs [] ts) : ∀ t ∈ ts, StartsAt cs t.offset := by
  intro t ht
  obtain ⟨before, l, after, happ, hstands, rfl⟩ := h.place_of_mem t ht
  obtain ⟨c, ds, htext, hc, -⟩ := hstands.cut_eq
  rw [List.append_nil, htext] at happ
  exact ⟨before, c, ds ++ after, happ, hc, Nat.zero_add _⟩

/-- What starts at a place in a text starts at a boundary of characters. -/
theorem StartsAt.isValid {source : String} {i : Nat} (h : StartsAt source.toList i) :
    String.Pos.Raw.IsValid source ⟨i⟩ := by
  obtain ⟨before, c, after, happ, -, rfl⟩ := h
  have hsource : source = String.ofList before ++ String.ofList (c :: after) := by
    rw [← String.ofList_append, ← happ, String.ofList_toList]
  rw [hsource, ← utf8ByteSize_ofList]
  exact String.Pos.Raw.isValid_rawEndPos.append_right _

end Token

end Eligibility
