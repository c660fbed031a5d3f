/-
Every text of a value.

The grammar of JSON texts stands here as relations of its own: `Denotes` says which text the
escapes of a literal stand for, `SpellsToken` how a token may be written, and `Spells` how a
list of tokens may, with any white space before, between and after them.  Scanning undoes all
of it, and so does reading: `read_of_spells` says that a text of a value, however it is laid
out and escaped, holds that value and nothing else.
-/
import AppRoutes.Proofs.Json.Scan
import AppRoutes.Proofs.Json.Tokens

namespace AppRoutes.Json

/-- How one piece of a literal is written. -/
inductive SpellsPiece : Piece → List Char → Prop
  | plain {c : Char} (hcontrol : 0x20 ≤ c.toNat) (hquote : c ≠ '"') (hbackslash : c ≠ '\\') :
      SpellsPiece (.char c) [c]
  | letter {letter c : Char} (h : unescapeLetter? letter = some c) :
      SpellsPiece (.char c) ['\\', letter]
  | unit {a b c d : Char} {n : Nat} (h : codeUnit? a b c d = some n) :
      SpellsPiece (.unit n) ['\\', 'u', a, b, c, d]

/-- How pieces are written between the quotes of a literal. -/
inductive SpellsPieces : List Piece → List Char → Prop
  | nil : SpellsPieces [] []
  | cons {piece : Piece} {pieces : List Piece} {text body : List Char}
      (h : SpellsPiece piece text) (hrest : SpellsPieces pieces body) :
      SpellsPieces (piece :: pieces) (text ++ body)

/-- The text that pieces denote.  A character is a piece of its own, or the code unit that it
has, or the two surrogates that it has beyond the first plane. -/
inductive Denotes : List Piece → List Char → Prop
  | nil : Denotes [] []
  | char {pieces : List Piece} {text : List Char} (c : Char) (h : Denotes pieces text) :
      Denotes (.char c :: pieces) (c :: text)
  | unit {pieces : List Piece} {text : List Char} {c : Char} (hc : c.toNat < 0x10000)
      (h : Denotes pieces text) : Denotes (.unit c.toNat :: pieces) (c :: text)
  | pair {pieces : List Piece} {text : List Char} {c : Char} (hc : 0x10000 ≤ c.toNat)
      (h : Denotes pieces text) :
      Denotes (.unit (0xD800 + (c.toNat - 0x10000) / 0x400) ::
        .unit (0xDC00 + (c.toNat - 0x10000) % 0x400) :: pieces) (c :: text)

theorem pieces?_of_spellsPiece {piece : Piece} {text : List Char} (h : SpellsPiece piece text)
    (rest : List Char) :
    pieces? (text ++ rest) = (pieces? rest).map (fun found => (piece :: found.1, found.2)) := by
  cases h with
  | plain hcontrol hquote hbackslash =>
    cases hrest : pieces? rest <;>
      simp [pieces?, hbackslash, Nat.not_lt.mpr hcontrol, hrest]
  | @letter letter c h =>
    have hu : letter ≠ 'u' := by
      rintro rfl
      simp [unescapeLetter?] at h
    cases hrest : pieces? rest <;> simp [pieces?, hu, h, hrest]
  | unit h => cases hrest : pieces? rest <;> simp [pieces?, h, hrest]

theorem pieces?_of_spellsPieces {pieces : List Piece} {body : List Char}
    (h : SpellsPieces pieces body) (rest : List Char) :
    pieces? (body ++ '"' :: rest) = some (pieces, rest) := by
  induction h with
  | nil => simp [pieces?]
  | cons hpiece _ ih =>
    rw [List.append_assoc, pieces?_of_spellsPiece hpiece, ih]
    rfl

theorem digitIn?_lt {base d : Nat} {c : Char} (h : Text.Numeral.digitIn? base c = some d) :
    d < base := by
  simp only [Text.Numeral.digitIn?, Option.bind_eq_bind, Option.bind_eq_some_iff] at h
  obtain ⟨n, -, hn⟩ := h
  split at hn
  · rename_i hlt
    rwa [← Option.some.inj hn]
  · cases hn

theorem codeUnit?_lt {a b c d : Char} {n : Nat} (h : codeUnit? a b c d = some n) :
    n < 0x10000 := by
  simp only [codeUnit?, Text.Numeral.valueIn?, List.foldlM_cons, List.foldlM_nil,
    Option.bind_eq_bind, Option.bind_eq_some_iff, Option.pure_def, Option.some.injEq] at h
  obtain ⟨_, ⟨wa, ha, rfl⟩, _, ⟨wb, hb, rfl⟩, _, ⟨wc, hc, rfl⟩, _, ⟨wd, hd, rfl⟩, rfl⟩ := h
  have := digitIn?_lt ha
  have := digitIn?_lt hb
  have := digitIn?_lt hc
  have := digitIn?_lt hd
  omega

theorem unit_lt_of_spellsPieces {pieces : List Piece} {body : List Char}
    (h : SpellsPieces pieces body) {n : Nat} (hn : .unit n ∈ pieces) : n < 0x10000 := by
  induction h with
  | nil => cases hn
  | cons hpiece _ ih =>
    rcases List.mem_cons.mp hn with rfl | hn
    · cases hpiece with
      | unit h => exact codeUnit?_lt h
    · exact ih hn

theorem isScalar (c : Char) : c.toNat < 0xD800 ∨ (0xDFFF < c.toNat ∧ c.toNat < 0x110000) := by
  rcases c.valid with h | h
  · exact Or.inl h
  · exact Or.inr h

theorem toNat_ofNat_of_isScalar {n : Nat} (h : n < 0xD800 ∨ (0xDFFF < n ∧ n < 0x110000)) :
    (Char.ofNat n).toNat = n := by
  have hvalid : n.isValidChar := h
  rw [Char.ofNat, dif_pos hvalid]
  rfl

theorem joinPieces?_of_denotes {pieces : List Piece} {text : List Char}
    (h : Denotes pieces text) : joinPieces? pieces = some text := by
  induction h with
  | nil => rfl
  | char c _ ih =>
    rw [joinPieces?, ih]
    rfl
  | @unit pieces text c hc _ ih =>
    have hleading : isLeadingSurrogate c.toNat = false := by
      have := isScalar c
      simp only [isLeadingSurrogate, Bool.and_eq_false_iff, decide_eq_false_iff_not]
      omega
    have htrailing : isTrailingSurrogate c.toNat = false := by
      have := isScalar c
      simp only [isTrailingSurrogate, Bool.and_eq_false_iff, decide_eq_false_iff_not]
      omega
    rw [joinPieces?.eq_def]
    simp [hleading, htrailing, ih]
  | @pair pieces text c hc _ ih =>
    have hscalar := isScalar c
    have hleading : isLeadingSurrogate (0xD800 + (c.toNat - 0x10000) / 0x400) = true := by
      simp only [isLeadingSurrogate, Bool.and_eq_true, decide_eq_true_eq]
      omega
    have htrailing : isTrailingSurrogate (0xDC00 + (c.toNat - 0x10000) % 0x400) = true := by
      simp only [isTrailingSurrogate, Bool.and_eq_true, decide_eq_true_eq]
      omega
    have hjoin : joinSurrogates (0xD800 + (c.toNat - 0x10000) / 0x400)
        (0xDC00 + (c.toNat - 0x10000) % 0x400) = c := by
      have hsum : 0x10000 + (0xD800 + (c.toNat - 0x10000) / 0x400 - 0xD800) * 0x400 +
          (0xDC00 + (c.toNat - 0x10000) % 0x400 - 0xDC00) = c.toNat := by omega
      rw [joinSurrogates, hsum, Char.ofNat_toNat]
    rw [joinPieces?.eq_def]
    simp only [hleading, htrailing, if_true, hjoin, ih]
    rfl

theorem denotes_of_joinPieces? {pieces : List Piece} (hunits : ∀ n, .unit n ∈ pieces → n < 0x10000)
    {text : List Char} (h : joinPieces? pieces = some text) : Denotes pieces text := by
  fun_induction joinPieces? pieces generalizing text with
  | case1 =>
    cases h
    exact .nil
  | case2 c rest ih =>
    simp only [Option.bind_eq_bind, Option.bind_eq_some_iff, Option.pure_def,
      Option.some.injEq] at h
    obtain ⟨t, ht, rfl⟩ := h
    exact .char c (ih (fun n hn => hunits n (List.mem_cons_of_mem _ hn)) ht)
  | case3 n hleading m rest htrailing ih =>
    simp only [Option.bind_eq_bind, Option.bind_eq_some_iff, Option.pure_def,
      Option.some.injEq] at h
    obtain ⟨t, ht, rfl⟩ := h
    simp only [isLeadingSurrogate, Bool.and_eq_true, decide_eq_true_eq] at hleading
    simp only [isTrailingSurrogate, Bool.and_eq_true, decide_eq_true_eq] at htrailing
    have hchar : (joinSurrogates n m).toNat =
        0x10000 + (n - 0xD800) * 0x400 + (m - 0xDC00) :=
      toNat_ofNat_of_isScalar (by omega)
    have hn : n = 0xD800 + ((joinSurrogates n m).toNat - 0x10000) / 0x400 := by omega
    have hm : m = 0xDC00 + ((joinSurrogates n m).toNat - 0x10000) % 0x400 := by omega
    have hpair : Denotes (.unit (0xD800 + ((joinSurrogates n m).toNat - 0x10000) / 0x400) ::
        .unit (0xDC00 + ((joinSurrogates n m).toNat - 0x10000) % 0x400) :: rest)
        (joinSurrogates n m :: t) :=
      .pair (by omega) (ih (fun k hk => hunits k (by simp [hk])) ht)
    rwa [← hn, ← hm] at hpair
  | case4 => cases h
  | case5 => cases h
  | case6 => cases h
  | case7 n rest hleading htrailing ih =>
    simp only [Option.bind_eq_bind, Option.bind_eq_some_iff, Option.pure_def,
      Option.some.injEq] at h
    obtain ⟨t, ht, rfl⟩ := h
    simp only [isLeadingSurrogate, Bool.and_eq_true, decide_eq_true_eq] at hleading
    simp only [isTrailingSurrogate, Bool.and_eq_true, decide_eq_true_eq] at htrailing
    have hlt := hunits n List.mem_cons_self
    have hchar : (Char.ofNat n).toNat = n := toNat_ofNat_of_isScalar (by omega)
    have hunit : Denotes (.unit (Char.ofNat n).toNat :: rest) (Char.ofNat n :: t) :=
      .unit (by omega) (ih (fun k hk => hunits k (List.mem_cons_of_mem _ hk)) ht)
    rwa [hchar] at hunit

/-- A point with digits after it, or nothing. -/
inductive IsFraction : List Char → Prop
  | absent : IsFraction []
  | present {digits : List Char} (hne : digits ≠ []) (h : ∀ c ∈ digits, c.isDigit = true) :
      IsFraction ('.' :: digits)

/-- A mark with an optional sign and digits after it, or nothing. -/
inductive IsExponent : List Char → Prop
  | absent : IsExponent []
  | present {mark : Char} {sign digits : List Char} (hmark : mark = 'e' ∨ mark = 'E')
      (hsign : sign = [] ∨ sign = ['+'] ∨ sign = ['-']) (hne : digits ≠ [])
      (h : ∀ c ∈ digits, c.isDigit = true) : IsExponent (mark :: (sign ++ digits))

theorem fraction?_of_isFraction {fraction rest : List Char} (h : IsFraction fraction)
    (hrest : ∀ c ∈ rest.head?, c.isDigit = false ∧ c ≠ '.') :
    fraction? (fraction ++ rest) = some (!fraction.isEmpty, rest) := by
  cases h with
  | absent =>
    rw [List.nil_append]
    unfold fraction?
    split
    · exact absurd rfl (hrest '.' rfl).2
    · rfl
  | present hne h =>
    have hsplit := splitDigits_append h fun c hc => (hrest c hc).1
    simp [fraction?, hsplit, hne]

theorem dropSign_append {sign digits : List Char} (rest : List Char)
    (hsign : sign = [] ∨ sign = ['+'] ∨ sign = ['-']) (hne : digits ≠ [])
    (h : ∀ c ∈ digits, c.isDigit = true) :
    dropSign (sign ++ (digits ++ rest)) = digits ++ rest := by
  rcases hsign with rfl | rfl | rfl
  · cases digits with
    | nil => exact absurd rfl hne
    | cons first digits =>
      have hfirst := h first List.mem_cons_self
      rw [List.nil_append, List.cons_append]
      unfold dropSign
      split
      · rename_i heq
        rw [(List.cons.inj heq).1] at hfirst
        cases hfirst
      · rename_i heq
        rw [(List.cons.inj heq).1] at hfirst
        cases hfirst
      · rfl
  · rfl
  · rfl

theorem exponent?_of_isExponent {exponent rest : List Char} (h : IsExponent exponent)
    (hrest : EndsNumber rest) :
    exponent? (exponent ++ rest) = some (!exponent.isEmpty, rest) := by
  cases h with
  | absent => exact exponent?_of_endsNumber hrest
  | present hmark hsign hne h =>
    have hsplit := splitDigits_append h (head_isDigit_of_endsNumber hrest)
    have hdrop := dropSign_append rest hsign hne h
    rw [List.cons_append, List.append_assoc, exponent?, if_pos (by simpa using hmark)]
    simp [hdrop, hsplit, hne]

theorem head_exponent_append {exponent rest : List Char} (h : IsExponent exponent)
    (hrest : EndsNumber rest) :
    ∀ c ∈ (exponent ++ rest).head?, c.isDigit = false ∧ c ≠ '.' := by
  intro c hc
  cases h with
  | absent =>
    have := hrest c hc
    simp only [extendsNumber, Bool.or_eq_false_iff, decide_eq_false_iff_not] at this
    exact ⟨this.1.1.1, this.1.1.2⟩
  | present hmark _ _ _ =>
    rw [List.cons_append, List.head?_cons, Option.mem_some_iff] at hc
    subst hc
    rcases hmark with rfl | rfl <;> decide

theorem head_fraction_append {fraction rest : List Char} (h : IsFraction fraction)
    (hrest : ∀ c ∈ rest.head?, c.isDigit = false ∧ c ≠ '.') :
    ∀ c ∈ (fraction ++ rest).head?, c.isDigit = false := by
  intro c hc
  cases h with
  | absent => exact (hrest c hc).1
  | present _ _ =>
    rw [List.cons_append, List.head?_cons, Option.mem_some_iff] at hc
    subst hc
    decide

/-- A number is a natural one if it has neither fraction nor exponent. -/
theorem unsigned?_append (n : Nat) {fraction exponent rest : List Char}
    (hfraction : IsFraction fraction) (hexponent : IsExponent exponent)
    (hrest : EndsNumber rest) :
    unsigned? (Nat.toDigits 10 n ++ fraction ++ exponent ++ rest) =
      some (if fraction = [] ∧ exponent = [] then .natural n else .number, rest) := by
  have hdigits : ∀ c ∈ Nat.toDigits 10 n, c.isDigit = true := fun _ hc =>
    Nat.isDigit_of_mem_toDigits (by decide) (by decide) hc
  have htail := head_exponent_append hexponent hrest
  have hsplit := splitDigits_append hdigits (head_fraction_append hfraction htail)
  rw [List.append_assoc, List.append_assoc]
  simp only [unsigned?, hsplit, isWhole_toDigits, if_true, fraction?_of_isFraction hfraction htail,
    Option.bind_eq_bind, Option.bind_some, exponent?_of_isExponent hexponent hrest,
    Nat.ofDigitChars_ten_toDigits]
  cases fraction <;> cases exponent <;> rfl

/-- How a token is written. -/
inductive SpellsToken : Token → List Char → Prop
  | leftBrace : SpellsToken .leftBrace ['{']
  | rightBrace : SpellsToken .rightBrace ['}']
  | leftBracket : SpellsToken .leftBracket ['[']
  | rightBracket : SpellsToken .rightBracket [']']
  | comma : SpellsToken .comma [',']
  | colon : SpellsToken .colon [':']
  | null : SpellsToken .null ['n', 'u', 'l', 'l']
  | isTrue : SpellsToken (.boolean true) ['t', 'r', 'u', 'e']
  | isFalse : SpellsToken (.boolean false) ['f', 'a', 'l', 's', 'e']
  | natural (n : Nat) : SpellsToken (.natural n) (Nat.toDigits 10 n)
  | number (n : Nat) {fraction exponent : List Char} (hfraction : IsFraction fraction)
      (hexponent : IsExponent exponent) (h : ¬ (fraction = [] ∧ exponent = [])) :
      SpellsToken .number (Nat.toDigits 10 n ++ fraction ++ exponent)
  | negative (n : Nat) {fraction exponent : List Char} (hfraction : IsFraction fraction)
      (hexponent : IsExponent exponent) :
      SpellsToken .number ('-' :: (Nat.toDigits 10 n ++ fraction ++ exponent))
  | text {pieces : List Piece} {body text : List Char} (h : SpellsPieces pieces body)
      (htext : Denotes pieces text) : SpellsToken (.string (some text)) ('"' :: (body ++ ['"']))
  /-- A literal in which a surrogate stands alone. -/
  | loneSurrogate {pieces : List Piece} {body : List Char} (h : SpellsPieces pieces body)
      (htext : ∀ text, ¬ Denotes pieces text) : SpellsToken (.string none) ('"' :: (body ++ ['"']))

/-- A text without quotes, backslashes and control characters stands for itself. -/
theorem SpellsToken.plain (text : List Char)
    (h : ∀ c ∈ text, 0x20 ≤ c.toNat ∧ c ≠ '"' ∧ c ≠ '\\') :
    SpellsToken (.string (some text)) ('"' :: (text ++ ['"'])) := by
  have hpieces : SpellsPieces (text.map .char) text ∧ Denotes (text.map .char) text := by
    induction text with
    | nil => exact ⟨.nil, .nil⟩
    | cons c text ih =>
      obtain ⟨⟨hcontrol, hquote, hbackslash⟩, h⟩ := List.forall_mem_cons.mp h
      exact ⟨.cons (.plain hcontrol hquote hbackslash) (ih h).1, .char c (ih h).2⟩
  exact .text hpieces.1 hpieces.2

def Token.isNumeric : Token → Bool
  | .natural _ | .number => true
  | _ => false

theorem scan_of_spellsToken {token : Token} {lexeme : List Char} (h : SpellsToken token lexeme)
    {rest : List Char} (hrest : token.isNumeric = true → EndsNumber rest) :
    Token.scan (lexeme ++ rest) = token :: Token.scan rest := by
  have hliteral : ∀ {pieces : List Piece} {body : List Char}, SpellsPieces pieces body →
      Token.scan ('"' :: (body ++ ['"']) ++ rest) =
        .string (joinPieces? pieces) :: Token.scan rest := by
    intro pieces body hbody
    have hpieces := pieces?_of_spellsPieces hbody rest
    rw [List.cons_append, List.append_assoc, List.singleton_append]
    refine scan_lexeme (by decide) ?_
    show (pieces? (body ++ '"' :: rest)).bind
      (fun found => some (Token.string (joinPieces? found.1), found.2)) = _
    rw [hpieces]
    rfl
  cases h with
  | leftBrace | rightBrace | leftBracket | rightBracket | comma | colon =>
    exact scan_punctuation rfl rest
  | null | isTrue | isFalse => exact scan_lexeme rfl rfl
  | natural n => exact scan_toDigits n (hrest rfl)
  | number n hfraction hexponent h =>
    have hnumber := unsigned?_append n hfraction hexponent (hrest rfl)
    rw [if_neg h] at hnumber
    rw [List.append_assoc, List.append_assoc] at hnumber ⊢
    exact scan_of_unsigned? hnumber
  | @negative n fraction exponent hfraction hexponent =>
    have hnumber := unsigned?_append n hfraction hexponent (hrest rfl)
    refine scan_lexeme (by decide) ?_
    show (unsigned? (Nat.toDigits 10 n ++ fraction ++ exponent ++ rest)).bind
      (fun found => some (Token.number, found.2)) = _
    rw [hnumber]
    rfl
  | text h htext => rw [hliteral h, joinPieces?_of_denotes htext]
  | @loneSurrogate pieces body h htext =>
    have hnone : joinPieces? pieces = none := by
      cases hjoin : joinPieces? pieces with
      | none => rfl
      | some text =>
        have hdenotes := denotes_of_joinPieces? (fun _ => unit_lt_of_spellsPieces h) hjoin
        exact absurd hdenotes (htext text)
    rw [hliteral h, hnone]

/-- How tokens are written one after another: with any white space before, between and after
them. -/
inductive Spells : List Token → List Char → Prop
  | nil {spaces : List Char} (h : ∀ c ∈ spaces, isSpace c = true) : Spells [] spaces
  | cons (spaces : List Char) {token : Token} {tokens : List Token} {lexeme rest : List Char}
      (h : ∀ c ∈ spaces, isSpace c = true) (htoken : SpellsToken token lexeme)
      (hrest : Spells tokens rest) : Spells (token :: tokens) (spaces ++ (lexeme ++ rest))

theorem Spells.next {token : Token} {tokens : List Token} {lexeme rest : List Char}
    (htoken : SpellsToken token lexeme) (hrest : Spells tokens rest) :
    Spells (token :: tokens) (lexeme ++ rest) :=
  .cons [] nofun htoken hrest

/-- The text is one value with white space around it. -/
structure IsTextOf (text : String) (node : Node) : Prop where
  intact : node.isIntact = true
  spells : Spells node.tokens text.toList

/-! ## What follows a number

A number does not end itself, so scanning needs that no digit follows it.  In the tokens of a
value only a comma or a closing bracket comes after a number. -/

def Token.endsValue : Token → Bool
  | .comma | .rightBracket | .rightBrace => true
  | _ => false

/-- The tokens go on with one that ends a value, or not at all. -/
def EndsValue (tokens : List Token) : Prop := ∀ token ∈ tokens.head?, token.endsValue = true

theorem endsValue_cons {token : Token} (h : token.endsValue = true) (rest : List Token) :
    EndsValue (token :: rest) := by
  intro next hnext
  rw [List.head?_cons, Option.mem_some_iff] at hnext
  exact hnext ▸ h

/-- Every number is the end of a value. -/
def Separated : List Token → Prop
  | [] => True
  | token :: rest => (token.isNumeric = true → EndsValue rest) ∧ Separated rest

theorem separated_cons {token : Token} (h : token.isNumeric = false) {rest : List Token}
    (hrest : Separated rest) : Separated (token :: rest) :=
  ⟨fun hnumeric => absurd (h.symm.trans hnumeric) (by decide), hrest⟩

theorem endsValue_itemTokens (items : List Node) {rest : List Token} (h : EndsValue rest) :
    EndsValue (itemTokens items ++ rest) := by
  cases items with
  | nil => exact h
  | cons item items => exact endsValue_cons rfl _

theorem endsValue_membersTokens (members : List (Option String × Node)) {rest : List Token}
    (h : EndsValue rest) : EndsValue (membersTokens members ++ rest) := by
  cases members with
  | nil => exact h
  | cons member members => exact endsValue_cons rfl _

mutual

theorem separated_tokens : ∀ (node : Node) {rest : List Token}, EndsValue rest →
    Separated rest → Separated (node.tokens ++ rest)
  | .null, _, h, hrest | .boolean _, _, h, hrest | .natural _, _, h, hrest | .number, _, h, hrest
  | .string _, _, h, hrest | .broken, _, h, hrest => ⟨fun _ => h, hrest⟩
  | .array [], _, _, hrest => separated_cons rfl (separated_cons rfl hrest)
  | .array (item :: items), rest, _, hrest => by
    have hclose : Separated (.rightBracket :: rest) := separated_cons rfl hrest
    have hend : EndsValue (.rightBracket :: rest) := endsValue_cons rfl rest
    rw [Node.tokens, List.cons_append, List.append_assoc, List.append_assoc, List.singleton_append]
    exact separated_cons rfl (separated_tokens item (endsValue_itemTokens items hend)
      (separated_itemTokens items hend hclose))
  | .object [], _, _, hrest => separated_cons rfl (separated_cons rfl hrest)
  | .object ((key, value) :: members), rest, _, hrest => by
    have hclose : Separated (.rightBrace :: rest) := separated_cons rfl hrest
    have hend : EndsValue (.rightBrace :: rest) := endsValue_cons rfl rest
    rw [Node.tokens, memberTokens, List.cons_append, List.append_assoc, List.append_assoc,
      List.singleton_append]
    exact separated_cons rfl (separated_cons rfl (separated_cons rfl
      (separated_tokens value (endsValue_membersTokens members hend)
        (separated_membersTokens members hend hclose))))

theorem separated_itemTokens : ∀ (items : List Node) {rest : List Token}, EndsValue rest →
    Separated rest → Separated (itemTokens items ++ rest)
  | [], _, _, hrest => hrest
  | item :: items, rest, h, hrest => by
    rw [itemTokens, List.cons_append, List.append_assoc]
    exact separated_cons rfl (separated_tokens item (endsValue_itemTokens items h)
      (separated_itemTokens items h hrest))

theorem separated_membersTokens : ∀ (members : List (Option String × Node)) {rest : List Token},
    EndsValue rest → Separated rest → Separated (membersTokens members ++ rest)
  | [], _, _, hrest => hrest
  | (key, value) :: members, rest, h, hrest => by
    rw [membersTokens, memberTokens, List.cons_append, List.append_assoc]
    exact separated_cons rfl (separated_cons rfl (separated_cons rfl
      (separated_tokens value (endsValue_membersTokens members h)
        (separated_membersTokens members h hrest))))

end

theorem extendsNumber_of_isSpace {c : Char} (h : isSpace c = true) : extendsNumber c = false := by
  simp only [isSpace, Bool.or_eq_true, decide_eq_true_eq] at h
  rcases h with ((rfl | rfl) | rfl) | rfl <;> decide

theorem endsNumber_of_spells {tokens : List Token} {text : List Char} (h : Spells tokens text)
    (hends : EndsValue tokens) : EndsNumber text := by
  cases h with
  | nil h =>
    intro c hc
    exact extendsNumber_of_isSpace (h c (List.mem_of_mem_head? hc))
  | @cons spaces token tokens lexeme rest h htoken hrest =>
    cases spaces with
    | cons space spaces =>
      exact endsNumber_cons (extendsNumber_of_isSpace (h space List.mem_cons_self)) _
    | nil =>
      have hend := hends token rfl
      cases htoken with
      | comma | rightBracket | rightBrace => exact endsNumber_cons (by decide) _
      | _ => cases hend

theorem scan_of_spells {tokens : List Token} {text : List Char} (h : Spells tokens text)
    (hseparated : Separated tokens) : Token.scan text = tokens := by
  induction h with
  | nil h =>
    have hnil : Token.scan [] = [] := by rw [Token.scan]
    have hspaces := scan_spaces h []
    rwa [List.append_nil, hnil] at hspaces
  | cons spaces h htoken hrest ih =>
    obtain ⟨hnumeric, hseparated⟩ := hseparated
    rw [scan_spaces h,
      scan_of_spellsToken htoken fun hn => endsNumber_of_spells hrest (hnumeric hn), ih hseparated]

/-- A text of a value is read as that value, with nothing after it. -/
theorem read_of_isTextOf {text : String} {node : Node} (h : IsTextOf text node) :
    Document.read text = ⟨node, false⟩ := by
  have hseparated : Separated (node.tokens ++ []) := separated_tokens node nofun trivial
  rw [List.append_nil] at hseparated
  rw [Document.read, scan_of_spells h.spells hseparated]
  exact ofTokens_tokens h.intact

end AppRoutes.Json
