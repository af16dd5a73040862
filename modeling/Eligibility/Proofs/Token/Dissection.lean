import Eligibility.Proofs.Token.Yields
import Mathlib.Data.List.Infix

/-!
# Taking a text apart

A text is cut into tokens exactly if it is made up of layout and lexemes such that no lexeme goes on
into what is behind it.  There is at most one way to take a text apart like that, and the tokens are
those that its lexemes spell, each at the number of bytes in front of it.

## Main definitions

* `Token.isKeyword` : the keywords.
* `Token.SpelledBy word t` : the characters `word` spell the token `t`.
* `Token.Dissection`, `Token.Dissection.IsOf` : layout and lexemes in turns, and the text that they
  make up.
* `Token.Dissection.located` : the tokens of the lexemes in their places.

## Main results

* `Lexeme.Stands.token_eq_iff` : a lexeme denotes the token that it spells, and it spells no other.
* `Token.Dissection.IsOf.unique` : a text can be taken apart in one way.
* `Token.scanText_eq_ok_iff_dissected` : **cutting a text is taking it apart.**
-/

namespace Eligibility

/-! ### Spelling -/

/-- The keywords. -/
def Token.isKeyword : Token → Bool
  | .and | .or | .not => true
  | _ => false

/-- The characters spell the token.  Keywords are words in any mixture of cases, and field names are
all other words. -/
def Token.SpelledBy (word : List Char) : Token → Prop
  | .lparen => word = ['(']
  | .rparen => word = [')']
  | .and => word.map Char.toLower = ['a', 'n', 'd']
  | .or => word.map Char.toLower = ['o', 'r']
  | .not => word.map Char.toLower = ['n', 'o', 't']
  | .ident name => word = name.toList ∧
    (∃ c cs, word = c :: cs ∧ isWordStart c = true ∧ cs.all isWordChar = true) ∧
    word.map Char.toLower ∉ [['a', 'n', 'd'], ['o', 'r'], ['n', 'o', 't']]
  | .op o => word = o.symbol.toList
  | .text s => ∃ quote, (quote = '\'' ∨ quote = '"') ∧ quote ∉ s.toList ∧
    word = quote :: (s.toList ++ [quote])
  | .number x => x.isFinite = true ∧ ∃ negative whole fraction, whole ≠ [] ∧
    whole.all Char.isDigit = true ∧ fraction.all Char.isDigit = true ∧
    word = Lexeme.numeral negative whole fraction ∧
    x = (Decimal.ofDigits whole fraction).round negative

namespace Lexeme

variable {l l' : Lexeme} {rest rest' word cs : List Char} {t : Token} {c : Char}

/-- What is a letter in the lower case is a letter. -/
theorem isAlpha_of_isAlpha_toLower (h : c.toLower.isAlpha = true) : c.isAlpha = true := by
  unfold Char.toLower at h
  split at h
  · rename_i hupper
    have hc : c.isUpper = true := decide_eq_true hupper
    show (c.isUpper || c.isLower) = true
    rw [hc, Bool.true_or]
  · exact h

/-- A keyword in any mixture of cases consists of letters. -/
theorem isAlpha_of_spelledBy (ht : t.isKeyword = true) (h : t.SpelledBy word) :
    word ≠ [] ∧ ∀ d ∈ word, d.isAlpha = true := by
  obtain ⟨hne, hletters⟩ : word.map Char.toLower ≠ [] ∧
      ∀ d ∈ word.map Char.toLower, d.isAlpha = true := by
    cases t with
    | and | or | not =>
      rw [show word.map Char.toLower = _ from h]
      exact ⟨List.cons_ne_nil _ _, List.all_eq_true.1 rfl⟩
    | ident | number | text | op | lparen | rparen => cases ht
  refine ⟨fun hnil => hne (by rw [hnil, List.map_nil]), fun d hd => ?_⟩
  exact isAlpha_of_isAlpha_toLower (hletters d.toLower (List.mem_map_of_mem hd))

theorem ofWord_of_spelledBy (ht : t.isKeyword = true) (h : t.SpelledBy word) :
    Token.ofWord word = t := by
  cases t with
  | and | or | not =>
    rw [Token.ofWord, show word.map Char.toLower = _ from h]
    rfl
  | ident | number | text | op | lparen | rparen => cases ht

/-- A keyword in any mixture of cases stands where no word goes on. -/
theorem stands_keyword (ht : t.isKeyword = true) (h : t.SpelledBy word)
    (hrest : ∀ d ∈ rest.head?, Token.isWordChar d = false) : Stands ⟨word, t⟩ rest := by
  obtain ⟨hne, halpha⟩ := isAlpha_of_spelledBy ht h
  obtain ⟨c, cs, rfl⟩ := List.exists_cons_of_ne_nil hne
  rw [← ofWord_of_spelledBy ht h]
  refine .word ?_ (List.all_eq_true.2 fun d hd => ?_) hrest
  · rw [Token.isWordStart, halpha c List.mem_cons_self, Bool.true_or]
  · rw [Token.isWordChar, Char.isAlphanum, halpha d (List.mem_cons_of_mem c hd), Bool.true_or,
      Bool.true_or]

theorem spelledBy_ofWord (hc : Token.isWordStart c = true) (hcs : cs.all Token.isWordChar = true) :
    (Token.ofWord (c :: cs)).SpelledBy (c :: cs) := by
  simp only [Token.ofWord]
  split
  · assumption
  split
  · assumption
  split
  · assumption
  · refine ⟨String.toList_ofList.symm, ⟨c, cs, rfl, hc, hcs⟩, ?_⟩
    simp only [List.mem_cons, List.not_mem_nil, or_false, not_or]
    exact ⟨‹_›, ‹_›, ‹_›⟩

/-- A lexeme spells its token. -/
theorem Stands.spelledBy (h : l.Stands rest) : l.token.SpelledBy l.text := by
  cases h with
  | lparen => rfl
  | rparen => rfl
  | quoted hquote hbody =>
    exact ⟨_, hquote, by rwa [String.toList_ofList], by rw [String.toList_ofList]⟩
  | number hne hwhole hfraction hfinite _ =>
    exact ⟨hfinite, _, _, _, hne, hwhole, hfraction, rfl, rfl⟩
  | operator _ => rfl
  | word hc hcs _ => exact spelledBy_ofWord hc hcs

/-- What spells a token is a lexeme, at least before the end of the text. -/
theorem stands_of_spelledBy (h : t.SpelledBy word) : Stands ⟨word, t⟩ [] := by
  cases t with
  | lparen =>
    obtain rfl : word = ['('] := h
    exact .lparen
  | rparen =>
    obtain rfl : word = [')'] := h
    exact .rparen
  | and | or | not => exact stands_keyword rfl h nofun
  | ident name =>
    obtain ⟨rfl, ⟨c, cs, hname, hc, hcs⟩, hkeyword⟩ := h
    rw [hname] at hkeyword
    obtain ⟨d, ds, hname', hd, hds, hword⟩ := Token.isWord_iff.2 ⟨c, cs, hname, hc, hcs, hkeyword⟩
    rw [hname', ← hword]
    exact .word hd hds nofun
  | op o =>
    obtain rfl : word = o.symbol.toList := h
    exact .operator nofun
  | text s =>
    obtain ⟨quote, hquote, hbody, rfl⟩ := h
    have hstands : Stands ⟨quote :: (s.toList ++ [quote]), .text (String.ofList s.toList)⟩ [] :=
      .quoted hquote hbody
    rwa [String.ofList_toList] at hstands
  | number x =>
    obtain ⟨hfinite, negative, whole, fraction, hne, hwhole, hfraction, rfl, rfl⟩ := h
    exact .number hne hwhole hfraction hfinite ⟨nofun, nofun⟩

/-- A text starts with at most one lexeme. -/
theorem Stands.unique (h : l.Stands rest) (h' : l'.Stands rest')
    (happ : l.text ++ rest = l'.text ++ rest') : l = l' ∧ rest = rest' := by
  obtain ⟨c, cs, htext, -, hcut⟩ := h.cut_eq
  have hcut' : cut c (cs ++ rest) = .ok (l', rest') := by
    rw [cut_eq_ok_iff]
    refine ⟨?_, h'⟩
    rw [← happ, htext, List.cons_append]
  exact Prod.mk.inj (Except.ok.inj (hcut.symm.trans hcut'))

/-- **A lexeme denotes the token that it spells, and it spells no other.** -/
theorem Stands.token_eq_iff (h : l.Stands rest) : l.token = t ↔ t.SpelledBy l.text := by
  constructor
  · rintro rfl
    exact h.spelledBy
  · intro ht
    have hend : l.Stands [] := h.congr nofun
    obtain ⟨hl, -⟩ := hend.unique (stands_of_spelledBy ht) rfl
    rw [hl]

end Lexeme

/-! ### Dissections -/

namespace Token

/-- A lexeme and the layout behind it. -/
structure Piece where
  /-- The lexeme. -/
  lexeme : Lexeme
  /-- The layout. -/
  behind : List Char

/-- The characters of pieces. -/
def textOf (pieces : List Piece) : List Char :=
  pieces.flatMap fun p => p.lexeme.text ++ p.behind

/-- Each piece is a lexeme and layout, and the lexeme ends before all that is behind it. -/
def Stand : List Piece → Prop
  | [] => True
  | p :: ps => p.lexeme.Stands (p.behind ++ textOf ps) ∧ p.behind.all isLayout = true ∧ Stand ps

/-- The tokens of pieces, the first of which is at the given offset: each token is behind the bytes
of the pieces before it. -/
def places (offset : Nat) (pieces : List Piece) : List Located :=
  List.zipWith (fun before p => ⟨p.lexeme.token, offset + byteLength (textOf before)⟩)
    pieces.inits pieces

/-- A text taken apart: the layout in front of the first lexeme, and the pieces behind it. -/
structure Dissection where
  /-- The layout in front. -/
  front : List Char
  /-- The lexemes, each with the layout behind it. -/
  pieces : List Piece

namespace Dissection

/-- The text that is taken apart. -/
def text (d : Dissection) : List Char :=
  d.front ++ textOf d.pieces

/-- The tokens of the lexemes in their places. -/
def located (d : Dissection) : List Located :=
  places (byteLength d.front) d.pieces

/-- The text is taken apart like this. -/
structure IsOf (d : Dissection) (cs : List Char) : Prop where
  text_eq : d.text = cs
  front_layout : d.front.all isLayout = true
  stand : Stand d.pieces

end Dissection

variable {offset : Nat} {cs ws ws' rest : List Char} {ts : List Located} {ps ps' : List Piece}
  {p : Piece}

@[simp] theorem textOf_nil : textOf [] = [] := rfl

@[simp] theorem textOf_cons (p : Piece) (ps : List Piece) :
    textOf (p :: ps) = p.lexeme.text ++ (p.behind ++ textOf ps) := by
  rw [textOf, List.flatMap_cons, List.append_assoc]
  rfl

theorem places_cons (offset : Nat) (p : Piece) (ps : List Piece) :
    places offset (p :: ps) = ⟨p.lexeme.token, offset⟩ ::
      places (offset + byteLength p.lexeme.text + byteLength p.behind) ps := by
  simp only [places, List.inits_cons, List.zipWith_cons_cons, List.zipWith_map_left, textOf_nil,
    textOf_cons, byteLength_nil, byteLength_append, Nat.add_zero, Nat.add_assoc]

/-! ### Cutting is taking apart -/

/-- Layout in front only moves the tokens. -/
theorem Yields.of_layout (hws : ws.all isLayout = true)
    (h : Yields (offset + byteLength ws) cs rest ts) : Yields offset (ws ++ cs) rest ts := by
  induction ws generalizing offset with
  | nil => exact h
  | cons c ws ih =>
    rw [List.all_cons, Bool.and_eq_true] at hws
    rw [byteLength_cons, utf8Size_of_isLayout hws.1, ← Nat.add_assoc] at h
    exact .layout hws.1 (ih hws.2 h)

theorem Stand.yields (h : Stand ps) (offset : Nat) :
    Yields offset (textOf ps) [] (places offset ps) := by
  induction ps generalizing offset with
  | nil => exact .nil
  | cons p ps ih =>
    obtain ⟨hl, hbehind, hps⟩ := h
    rw [textOf_cons, places_cons]
    refine .lexeme ?_ (.of_layout hbehind (ih hps _))
    rwa [List.append_nil]

/-- The tokens of a text that is taken apart are those of its lexemes, in their places. -/
theorem Dissection.IsOf.yields {d : Dissection} (h : d.IsOf cs) : Yields 0 cs [] d.located := by
  rw [← h.text_eq]
  refine .of_layout h.front_layout ?_
  rw [Nat.zero_add]
  exact h.stand.yields _

theorem Dissection.IsOf.scanText_eq {d : Dissection} {source : String} (h : d.IsOf source.toList) :
    scanText source = .ok d.located :=
  yields_iff_scan.1 h.yields

/-- A text that is cut into tokens can be taken apart. -/
theorem exists_dissection_of_yields (h : Yields offset cs [] ts) :
    ∃ d : Dissection, d.IsOf cs ∧ places (offset + byteLength d.front) d.pieces = ts := by
  generalize hrest : ([] : List Char) = rest at h
  induction h with
  | nil => exact ⟨⟨[], []⟩, ⟨rfl, rfl, trivial⟩, rfl⟩
  | @layout offset c cs rest ts hc _ ih =>
    obtain ⟨⟨front, pieces⟩, ⟨rfl, hfront, hstand⟩, rfl⟩ := ih hrest
    refine ⟨⟨c :: front, pieces⟩, ⟨rfl, ?_, hstand⟩, ?_⟩
    · rw [List.all_cons, hc, Bool.true_and]
      exact hfront
    · rw [byteLength_cons, utf8Size_of_isLayout hc, ← Nat.add_assoc]
  | @lexeme offset l cs rest ts hl _ ih =>
    -- the layout in front of what is behind the lexeme is the layout behind the lexeme
    obtain ⟨⟨front, pieces⟩, ⟨rfl, hfront, hstand⟩, rfl⟩ := ih hrest
    rw [← hrest, List.append_nil] at hl
    refine ⟨⟨[], ⟨l, front⟩ :: pieces⟩, ⟨?_, rfl, hl, hfront, hstand⟩, ?_⟩
    · rw [Dissection.text, List.nil_append, textOf_cons]
      rfl
    · rw [byteLength_nil, Nat.add_zero, places_cons]

/-! ### There is only one way -/

/-- Pieces do not start with layout. -/
theorem Stand.isLayout_head (h : Stand ps) : ∀ c ∈ (textOf ps).head?, isLayout c = false := by
  cases ps with
  | nil => nofun
  | cons p ps =>
    obtain ⟨c, cs, htext, hc, -⟩ := h.1.cut_eq
    rw [textOf_cons, htext]
    intro d hd
    obtain rfl := Option.some.inj hd
    exact hc

/-- The layout in front of pieces ends where they start. -/
theorem Stand.layout_unique (h : Stand ps) (h' : Stand ps') (hws : ws.all isLayout = true)
    (hws' : ws'.all isLayout = true) (happ : ws ++ textOf ps = ws' ++ textOf ps') :
    ws = ws' ∧ textOf ps = textOf ps' := by
  obtain ⟨htake, hdrop⟩ := takeWhile_append_of_stop hws h.isLayout_head
  obtain ⟨htake', hdrop'⟩ := takeWhile_append_of_stop hws' h'.isLayout_head
  rw [happ] at htake hdrop
  exact ⟨htake.symm.trans htake', hdrop.symm.trans hdrop'⟩

theorem Stand.textOf_ne_nil (h : Stand (p :: ps)) : textOf (p :: ps) ≠ [] := by
  rw [textOf_cons]
  exact List.append_ne_nil_of_left_ne_nil h.1.text_ne_nil _

theorem Stand.unique (h : Stand ps) (h' : Stand ps') (heq : textOf ps = textOf ps') : ps = ps' := by
  induction ps generalizing ps' with
  | nil =>
    cases ps' with
    | nil => rfl
    | cons p' ps' => exact absurd heq.symm h'.textOf_ne_nil
  | cons p ps ih =>
    cases ps' with
    | nil => exact absurd heq h.textOf_ne_nil
    | cons p' ps' =>
      rw [textOf_cons, textOf_cons] at heq
      obtain ⟨hlexeme, hrest⟩ := h.1.unique h'.1 heq
      obtain ⟨hbehind, hps⟩ := h.2.2.layout_unique h'.2.2 h.2.1 h'.2.1 hrest
      obtain ⟨l, behind⟩ := p
      obtain ⟨l', behind'⟩ := p'
      rw [ih h.2.2 h'.2.2 hps, show l = l' from hlexeme, show behind = behind' from hbehind]

/-- **A text can be taken apart in one way.** -/
theorem Dissection.IsOf.unique {d d' : Dissection} (h : d.IsOf cs) (h' : d'.IsOf cs) : d = d' := by
  obtain ⟨front, pieces⟩ := d
  obtain ⟨front', pieces'⟩ := d'
  obtain ⟨hfront, htext⟩ := h.stand.layout_unique h'.stand h.front_layout h'.front_layout
    (h.text_eq.trans h'.text_eq.symm)
  rw [show front = front' from hfront, show pieces = pieces' from h.stand.unique h'.stand htext]

theorem Stand.exists_stands (h : Stand ps) : ∀ p ∈ ps, ∃ rest, p.lexeme.Stands rest := by
  induction ps with
  | nil => nofun
  | cons p ps ih => exact List.forall_mem_cons.2 ⟨⟨_, h.1⟩, ih h.2.2⟩

/-- **Cutting a text is taking it apart.**  A text is cut into tokens exactly if it is layout and
lexemes in turns such that no lexeme goes on into what is behind it; the tokens are those of the
lexemes in their order, each at the number of bytes in front of its lexeme.  There is one such way
to take a text apart, and each lexeme in it denotes the token that it spells and no other. -/
theorem scanText_eq_ok_iff_dissected (source : String) :
    (∀ ts, scanText source = .ok ts ↔ ∃ d : Dissection, d.IsOf source.toList ∧ d.located = ts) ∧
    (∀ d d' : Dissection, d.IsOf source.toList → d'.IsOf source.toList → d = d') ∧
    (∀ d : Dissection, d.IsOf source.toList → ∀ p ∈ d.pieces, ∀ t,
      p.lexeme.token = t ↔ t.SpelledBy p.lexeme.text) := by
  refine ⟨fun ts => ?_, fun d d' h h' => h.unique h', fun d h p hp t => ?_⟩
  · constructor
    · intro h
      obtain ⟨d, hd, rfl⟩ := exists_dissection_of_yields (yields_iff_scan.2 h)
      exact ⟨d, hd, by rw [Nat.zero_add, Dissection.located]⟩
    · rintro ⟨d, hd, rfl⟩
      exact hd.scanText_eq
  · obtain ⟨rest, hstands⟩ := h.stand.exists_stands p hp
    exact hstands.token_eq_iff

/-- Lexemes that touch: a numeral, a keyword, and a word that starts like one, behind an `é` between
quotes. -/
theorem scanText_of_touching_lexemes :
    let number : Piece := ⟨⟨"30".toList, .number ⟨0x403E000000000000⟩⟩, []⟩
    let keyword : Piece := ⟨⟨"anD".toList, .and⟩, []⟩
    let text : Piece := ⟨⟨"'é'".toList, .text "é"⟩, ['\t']⟩
    let word : Piece := ⟨⟨"NOT1".toList, .ident "NOT1"⟩, []⟩
    scanText " 30anD'é'\tNOT1" = .ok [⟨.number ⟨0x403E000000000000⟩, 1⟩, ⟨.and, 3⟩, ⟨.text "é", 6⟩,
      ⟨.ident "NOT1", 11⟩] ∧
    ∀ d : Dissection, d.IsOf " 30anD'é'\tNOT1".toList →
      d = ⟨[' '], [number, keyword, text, word]⟩ := by
  intro number keyword text word
  have hround : (Decimal.ofDigits ['3', '0'] []).round false = ⟨0x403E000000000000⟩ := by
    decide +kernel
  have hnumber : number.lexeme.Stands "anD'é'\tNOT1".toList := by
    show Lexeme.Stands ⟨Lexeme.numeral false ['3', '0'] [], .number ⟨0x403E000000000000⟩⟩ _
    rw [← hround]
    exact .number (by decide) rfl rfl (by decide +kernel) ⟨Lexeme.stop_cons rfl _, nofun⟩
  have htext : text.lexeme.Stands "\tNOT1".toList :=
    @Lexeme.Stands.quoted '\'' ['é'] _ (.inl rfl) (by decide)
  have h : (⟨[' '], [number, keyword, text, word]⟩ : Dissection).IsOf " 30anD'é'\tNOT1".toList :=
    ⟨rfl, rfl, hnumber, rfl, .word rfl rfl (Lexeme.stop_cons rfl _), rfl, htext, rfl,
      .word rfl rfl nofun, rfl, trivial⟩
  obtain ⟨hscan, hunique, -⟩ := scanText_eq_ok_iff_dissected " 30anD'é'\tNOT1"
  exact ⟨(hscan _).2 ⟨_, h, rfl⟩, fun d hd => hunique _ _ hd h⟩

end Token

end Eligibility
