import Eligibility.Proofs.Parser.Moved
import Eligibility.Proofs.Token.Dissection

/-!
# Layout and the case of keywords

A text stays a text of the same tokens if its layout changes between any two lexemes, as long as
lexemes that are apart stay apart, and if its keywords change their case.  Lexemes that touch may
touch still, or get layout between them.  What is inside a lexeme, such as layout and keywords
between quotes, stays as it is.

## Main definitions

* `Lexeme.Recased l l'` : the same lexeme, or the same keyword in another mixture of cases.
* `Token.Respaced ws ws'` : other layout, which is not missing where there was some.
* `Token.Dissection.Respelled d d'` : a text taken apart, in another layout and another case.

## Main results

* `Token.Dissection.Respelled.isOf` : **what is respelled can be taken apart like before.**
* `Expr.parse_of_same_tokens` : texts with the same tokens are read alike, so texts that differ in
  their spelling are.
-/

namespace Eligibility

/-! ### Other spellings -/

/-- The same lexeme, or the same keyword in another mixture of cases. -/
inductive Lexeme.Recased : Lexeme → Lexeme → Prop
  /-- The same lexeme. -/
  | same {l : Lexeme} : Recased l l
  /-- The same keyword. -/
  | keyword {t : Token} {word word' : List Char} (ht : t.isKeyword = true)
      (hword : word'.map Char.toLower = word.map Char.toLower) : Recased ⟨word, t⟩ ⟨word', t⟩

namespace Token

/-- Other layout, which is not missing where there was some. -/
structure Respaced (ws ws' : List Char) : Prop where
  layout : ws'.all isLayout = true
  eq_nil : ws' = [] → ws = []

/-- A lexeme and the layout behind it, spelled differently. -/
structure Piece.Respelled (p p' : Piece) : Prop where
  lexeme : p.lexeme.Recased p'.lexeme
  behind : Respaced p.behind p'.behind

/-- A text taken apart, spelled differently. -/
structure Dissection.Respelled (d d' : Dissection) : Prop where
  front_layout : d'.front.all isLayout = true
  pieces : List.Forall₂ Piece.Respelled d.pieces d'.pieces

end Token

/-! ### Lexemes stay where they are -/

namespace Lexeme

variable {l l' : Lexeme} {rest other : List Char}

theorem Recased.token_eq (h : l.Recased l') : l'.token = l.token := by
  cases h with
  | same => rfl
  | keyword => rfl

/-- Behind a keyword no word goes on. -/
theorem Stands.stop_of_isKeyword (h : l.Stands rest) (ht : l.token.isKeyword = true) :
    ∀ c ∈ rest.head?, Token.isWordChar c = false := by
  cases h with
  | word _ _ hrest => exact hrest
  | lparen | rparen | quoted | number | operator => cases ht

theorem spelledBy_of_map_toLower {t : Token} {word word' : List Char} (ht : t.isKeyword = true)
    (hword : word'.map Char.toLower = word.map Char.toLower) (h : t.SpelledBy word) :
    t.SpelledBy word' := by
  cases t with
  | and | or | not => exact hword.trans h
  | ident | number | text | op | lparen | rparen => cases ht

/-- A lexeme spelled differently stands before what it could not go on with before. -/
theorem Recased.stands (h : l.Recased l') (hl : l.Stands rest) (hpoint : ∀ c ∈ other.head?, c ≠ '.')
    (hclass : ∀ p ∈ classes, (∀ c ∈ rest.head?, p c = false) → ∀ c ∈ other.head?, p c = false) :
    l'.Stands other := by
  have hother := hl.of_classes hpoint hclass
  cases h with
  | same => exact hother
  | keyword ht hword =>
    exact stands_keyword ht (spelledBy_of_map_toLower ht hword hl.spelledBy)
      (hother.stop_of_isKeyword ht)

/-- Letters are all of one class. -/
theorem class_of_isAlpha {p : Char → Bool} {c c' : Char} (hp : p ∈ classes)
    (hc : c.isAlpha = true) (hc' : c'.isAlpha = true) (hstop : p c = false) : p c' = false := by
  have hstart : Token.isWordStart c' = true := by
    rw [Token.isWordStart, hc', Bool.true_or]
  simp only [classes, List.mem_cons, List.not_mem_nil, or_false] at hp
  rcases hp with rfl | rfl | rfl
  · exact Token.isDigit_of_isWordStart hstart
  · exact Token.isOperatorChar_of_isWordStart hstart
  · rw [Token.isWordChar, Char.isAlphanum, hc, Bool.true_or, Bool.true_or] at hstop
    cases hstop

/-- No lexeme starts with a point. -/
theorem Stands.ne_point {c : Char} {cs : List Char} (h : l.Stands rest) (htext : l.text = c :: cs) :
    c ≠ '.' := by
  rintro rfl
  obtain ⟨d, ds, htext', -, hcut⟩ := h.cut_eq
  obtain ⟨rfl, rfl⟩ := List.cons.inj (htext.symm.trans htext')
  cases hcut

/-- A lexeme spelled differently starts with a character of the same classes, and with no point. -/
theorem Recased.exists_cons (h : l.Recased l') (hl : l.Stands rest) : ∃ c cs c' cs',
    l.text = c :: cs ∧ l'.text = c' :: cs' ∧ c' ≠ '.' ∧
      ∀ p ∈ classes, p c = false → p c' = false := by
  cases h with
  | same =>
    obtain ⟨c, cs, htext, -⟩ := hl.cut_eq
    exact ⟨c, cs, c, cs, htext, htext, hl.ne_point htext, fun _ _ => id⟩
  | keyword ht hword =>
    have hspelled := hl.spelledBy
    obtain ⟨hne, halpha⟩ := isAlpha_of_spelledBy ht hspelled
    obtain ⟨hne', halpha'⟩ := isAlpha_of_spelledBy ht (spelledBy_of_map_toLower ht hword hspelled)
    obtain ⟨c, cs, rfl⟩ := List.exists_cons_of_ne_nil hne
    obtain ⟨c', cs', rfl⟩ := List.exists_cons_of_ne_nil hne'
    have hc := halpha c List.mem_cons_self
    have hc' := halpha' c' List.mem_cons_self
    refine ⟨c, cs, c', cs', rfl, rfl, ?_, fun p hp => class_of_isAlpha hp hc hc'⟩
    rintro rfl
    cases hc'

end Lexeme

namespace Token

variable {ps ps' : List Piece} {ws ws' : List Char} {d d' : Dissection}

/-- What is behind a lexeme starts, in another spelling, with no character that it could go on
with. -/
theorem Stand.stops_respelled (h : Stand ps) (hws : Respaced ws ws')
    (hps : List.Forall₂ Piece.Respelled ps ps') :
    (∀ c ∈ (ws' ++ textOf ps').head?, c ≠ '.') ∧
    ∀ p ∈ Lexeme.classes, (∀ c ∈ (ws ++ textOf ps).head?, p c = false) →
      ∀ c ∈ (ws' ++ textOf ps').head?, p c = false := by
  cases hws' : ws' with
  | cons b bs =>
    -- layout
    have hb : isLayout b = true :=
      List.all_eq_true.1 hws.layout b (by rw [hws']; exact List.mem_cons_self)
    have hboundary : Boundary (b :: bs ++ textOf ps') := by
      intro c hc
      obtain rfl := Option.some.inj hc
      exact .inl hb
    refine ⟨?_, fun p hp _ => Lexeme.stop_of_mem_classes hp hboundary⟩
    rintro c hc rfl
    obtain rfl := Option.some.inj hc
    cases hb
  | nil =>
    -- nothing, as before, so that it is the next lexeme that counts
    rw [hws.eq_nil hws', List.nil_append, List.nil_append]
    cases hps with
    | nil => exact ⟨nofun, fun _ _ _ => nofun⟩
    | @cons q q' qs qs' hq hqs =>
      obtain ⟨c, cs, c', cs', htext, htext', hpoint, hclass⟩ := hq.lexeme.exists_cons h.1
      rw [textOf_cons, textOf_cons, htext, htext']
      refine ⟨?_, fun p hp hstop => Lexeme.stop_cons (hclass p hp (hstop c rfl)) _⟩
      intro a ha
      obtain rfl := Option.some.inj ha
      exact hpoint

theorem Stand.respelled (h : Stand ps) (hps : List.Forall₂ Piece.Respelled ps ps') : Stand ps' := by
  induction hps with
  | nil => trivial
  | @cons p p' ps ps' hp hps ih =>
    obtain ⟨hl, -, hstand⟩ := h
    obtain ⟨hpoint, hclass⟩ := hstand.stops_respelled hp.behind hps
    exact ⟨hp.lexeme.stands hl hpoint hclass, hp.behind.layout, ih hstand⟩

/-- **What is respelled can be taken apart like before.** -/
theorem Dissection.Respelled.isOf {cs : List Char} (h : d.Respelled d') (hd : d.IsOf cs) :
    d'.IsOf d'.text :=
  ⟨rfl, h.front_layout, hd.stand.respelled h.pieces⟩

theorem map_token_places_eq (h : List.Forall₂ Piece.Respelled ps ps') (offset offset' : Nat) :
    (places offset ps).map Located.token = (places offset' ps').map Located.token := by
  induction h generalizing offset offset' with
  | nil => rfl
  | cons hp _ ih =>
    rw [places_cons, places_cons, List.map_cons, List.map_cons, hp.lexeme.token_eq]
    exact congrArg _ (ih _ _)

/-- What is respelled has the same tokens. -/
theorem Dissection.Respelled.map_token_eq (h : d.Respelled d') :
    d.located.map Located.token = d'.located.map Located.token :=
  map_token_places_eq h.pieces _ _

end Token

/-! ### Texts are read alike -/

namespace Expr

variable {limits : Limits} {source source' : String} {ts ts' : List Located}

theorem readAlike_of_scanText (h : Token.scanText source = .ok ts)
    (h' : Token.scanText source' = .ok ts')
    (htokens : ts.map Located.token = ts'.map Located.token) :
    ReadAlike source.utf8ByteSize source'.utf8ByteSize ts ts' (parse limits source)
      (parse limits source') := by
  rw [parse_of_scanText h, parse_of_scanText h']
  exact readAlike_ofTokens htokens _ _

/-- **Texts with the same tokens are read alike**, as the same expression, or with the same kind of
error at the same token.  The same tokens are identical ones: the numbers zero and minus zero are
two, although they are equal by value.  So are read alike a text that can be cut and any other that
differs from it only in the case of its keywords and in its layout in front of its lexemes, between
them and behind them, where lexemes that touch may get layout between them and others keep some: it
has the same tokens. -/
theorem parse_of_same_tokens (limits : Limits) (source source' : String) :
    (∀ ts ts', Token.scanText source = .ok ts → Token.scanText source' = .ok ts' →
      ts.map Located.token = ts'.map Located.token →
      ReadAlike source.utf8ByteSize source'.utf8ByteSize ts ts' (parse limits source)
        (parse limits source')) ∧
    (∀ d d' : Token.Dissection, d.IsOf source.toList → d.Respelled d' → d'.text = source'.toList →
      Token.scanText source = .ok d.located ∧ Token.scanText source' = .ok d'.located ∧
      d.located.map Located.token = d'.located.map Located.token ∧
      ReadAlike source.utf8ByteSize source'.utf8ByteSize d.located d'.located (parse limits source)
        (parse limits source')) := by
  refine ⟨fun ts ts' => readAlike_of_scanText, fun d d' hd hrespelled htext => ?_⟩
  have hd' : d'.IsOf source'.toList := htext ▸ hrespelled.isOf hd
  have htokens := hrespelled.map_token_eq
  exact ⟨hd.scanText_eq, hd'.scanText_eq, htokens,
    readAlike_of_scanText hd.scanText_eq hd'.scanText_eq htokens⟩

/-- Layout between lexemes that touch, and a keyword in capitals, but not the one between quotes. -/
theorem parse_of_spread_text :
    let source := "a=='not b'aNd)"
    let source' := " a ==\t'not b'\r\nAND)\n"
    parse ⟨64, 512⟩ source = .error ⟨.unexpected .expression .rparen, 13⟩ ∧
      parse ⟨64, 512⟩ source' = .error ⟨.unexpected .expression .rparen, 18⟩ ∧
      ∃ ts ts', ReadAlike source.utf8ByteSize source'.utf8ByteSize ts ts' (parse ⟨64, 512⟩ source)
        (parse ⟨64, 512⟩ source') := by
  intro source source'
  let word : Lexeme := ⟨['a'], .ident "a"⟩
  let operator : Lexeme := ⟨"==".toList, .op .eq⟩
  let text : Lexeme := ⟨"'not b'".toList, .text "not b"⟩
  let keyword (chars : String) : Lexeme := ⟨chars.toList, .and⟩
  let paren : Lexeme := ⟨[')'], .rparen⟩
  let d : Token.Dissection :=
    ⟨[], [⟨word, []⟩, ⟨operator, []⟩, ⟨text, []⟩, ⟨keyword "aNd", []⟩, ⟨paren, []⟩]⟩
  let d' : Token.Dissection := ⟨[' '], [⟨word, [' ']⟩, ⟨operator, ['\t']⟩, ⟨text, ['\r', '\n']⟩,
    ⟨keyword "AND", []⟩, ⟨paren, ['\n']⟩]⟩
  have htext : text.Stands "aNd)".toList :=
    @Lexeme.Stands.quoted '\'' "not b".toList _ (.inl rfl) (by decide)
  have hsource : d.text = source.toList := by decide +kernel
  have hsource' : d'.text = source'.toList := by decide +kernel
  have hd : d.IsOf source.toList := ⟨hsource, rfl, .word rfl rfl (Lexeme.stop_cons rfl _), rfl,
    @Lexeme.Stands.operator .eq _ (Lexeme.stop_cons rfl _), rfl, htext, rfl,
    .word rfl rfl (Lexeme.stop_cons rfl _), rfl, .rparen, rfl, trivial⟩
  have hspaced : ∀ {l : Lexeme} {ws : List Char}, ws.all Token.isLayout = true →
      Token.Piece.Respelled ⟨l, []⟩ ⟨l, ws⟩ := fun hws => ⟨.same, hws, fun _ => rfl⟩
  have hkeyword : Token.Piece.Respelled ⟨keyword "aNd", []⟩ ⟨keyword "AND", []⟩ :=
    ⟨.keyword rfl rfl, rfl, fun _ => rfl⟩
  have hrespelled : d.Respelled d' := ⟨rfl, .cons (hspaced rfl) (.cons (hspaced rfl)
    (.cons (hspaced rfl) (.cons hkeyword (.cons (hspaced rfl) .nil))))⟩
  obtain ⟨-, hread⟩ := parse_of_same_tokens ⟨64, 512⟩ source source'
  exact ⟨by decide +kernel, by decide +kernel, _, _, (hread d d' hd hrespelled hsource').2.2.2⟩

end Expr

end Eligibility
