/-
What scanning takes for a token.

Scanning undoes every way of writing tokens, which `AppRoutes.Proofs.Json.Spelling` shows.  It
accepts nothing else: what it takes for a token is one of the ways to write that token, so a text
that it gets through is the text of its tokens.
-/
import AppRoutes.Proofs.Json.Spelling

namespace AppRoutes.Json

theorem spellsPieces_of_pieces? {text : List Char} {pieces : List Piece} {rest : List Char}
    (h : pieces? text = some (pieces, rest)) :
    ∃ body, text = body ++ '"' :: rest ∧ SpellsPieces pieces body := by
  fun_induction pieces? text generalizing pieces rest with
  | case1 => cases h
  | case2 tail =>
    obtain ⟨rfl, rfl⟩ := Prod.mk.injEq .. ▸ Option.some.inj h
    exact ⟨[], rfl, .nil⟩
  | case3 a b c d tail ih =>
    simp only [Option.bind_eq_bind, Option.bind_eq_some_iff, Option.pure_def, Option.some.injEq,
      Prod.mk.injEq] at h
    obtain ⟨n, hunit, ⟨pieces', _⟩, htail, rfl, rfl⟩ := h
    obtain ⟨body, rfl, hbody⟩ := ih htail
    exact ⟨_, rfl, .cons (.unit hunit) hbody⟩
  | case4 letter tail _ ih =>
    simp only [Option.bind_eq_bind, Option.bind_eq_some_iff, Option.pure_def, Option.some.injEq,
      Prod.mk.injEq] at h
    obtain ⟨c, hletter, ⟨pieces', _⟩, htail, rfl, rfl⟩ := h
    obtain ⟨body, rfl, hbody⟩ := ih htail
    exact ⟨_, rfl, .cons (.letter hletter) hbody⟩
  | case5 => cases h
  | case6 c tail hquote _ hescape hcontrol ih =>
    simp only [Option.bind_eq_bind, Option.bind_eq_some_iff, Option.pure_def, Option.some.injEq,
      Prod.mk.injEq] at h
    obtain ⟨⟨pieces', _⟩, htail, rfl, rfl⟩ := h
    -- A backslash that is no escape stands at the end of the text, and nothing closes the literal.
    have hbackslash : c ≠ '\\' := by
      intro hc
      cases tail with
      | nil => cases htail
      | cons letter tail => exact hescape letter tail hc rfl
    obtain ⟨body, rfl, hbody⟩ := ih htail
    exact ⟨_, rfl, .cons (.plain (Nat.not_lt.mp hcontrol) hquote hbackslash) hbody⟩

/-- A literal is written as its pieces, and has a text unless a surrogate stands alone in it. -/
theorem spellsToken_string {pieces : List Piece} {body : List Char}
    (h : SpellsPieces pieces body) :
    SpellsToken (.string (joinPieces? pieces)) ('"' :: (body ++ ['"'])) := by
  cases hjoin : joinPieces? pieces with
  | some text =>
    exact .text h (denotes_of_joinPieces? (fun _ => unit_lt_of_spellsPieces h) hjoin)
  | none =>
    refine .loneSurrogate h fun text htext => ?_
    rw [joinPieces?_of_denotes htext] at hjoin
    cases hjoin

/-- A digit is the numeral of its value. -/
theorem digitChar_of_isDigit {c : Char} (h : c.isDigit = true) :
    c.toNat - '0'.toNat < 10 ∧ Nat.digitChar (c.toNat - '0'.toNat) = c := by
  have hbounds : 48 ≤ c.toNat ∧ c.toNat ≤ 57 := by
    simpa [Char.isDigit, UInt32.le_iff_toNat_le] using h
  have hlt : c.toNat - '0'.toNat < 10 := by
    show c.toNat - 48 < 10
    omega
  refine ⟨hlt, Char.toNat_inj.mp ?_⟩
  rw [Nat.toNat_digitChar_of_lt_ten hlt]
  show 48 + (c.toNat - 48) = c.toNat
  omega

/-- Digits after the numeral of a number other than zero make the numeral of a greater one. -/
theorem toDigits_ofDigitChars {n : Nat} (hn : 0 < n) {digits : List Char}
    (h : ∀ c ∈ digits, c.isDigit = true) :
    Nat.toDigits 10 (Nat.ofDigitChars 10 digits n) = Nat.toDigits 10 n ++ digits := by
  induction digits generalizing n with
  | nil => simp
  | cons c digits ih =>
    obtain ⟨hc, h⟩ := List.forall_mem_cons.mp h
    obtain ⟨hlt, hchar⟩ := digitChar_of_isDigit hc
    rw [Nat.ofDigitChars_cons, ih (by omega) h, ← Nat.toDigits_append_toDigits (by decide) hn hlt,
      Nat.toDigits_of_lt_base hlt, hchar, List.append_assoc, List.singleton_append]

/-- The whole part of a number is the numeral of its value. -/
theorem toDigits_of_isWhole {digits : List Char} (h : ∀ c ∈ digits, c.isDigit = true)
    (hwhole : isWhole digits = true) :
    Nat.toDigits 10 (Nat.ofDigitChars 10 digits 0) = digits := by
  unfold isWhole at hwhole
  split at hwhole
  · cases hwhole
  · rfl
  · rename_i first digits hzero
    obtain ⟨hfirst, h⟩ := List.forall_mem_cons.mp h
    obtain ⟨hlt, hchar⟩ := digitChar_of_isDigit hfirst
    have hpos : 0 < first.toNat - '0'.toNat := by
      refine Nat.pos_of_ne_zero fun heq => ?_
      rw [heq] at hchar
      simp [← hchar] at hwhole
    rw [Nat.ofDigitChars_cons, Nat.mul_zero, Nat.zero_add, toDigits_ofDigitChars hpos h,
      Nat.toDigits_of_lt_base hlt, hchar, List.singleton_append]

theorem isDigit_of_mem_splitDigits {text : List Char} : ∀ c ∈ (splitDigits text).1,
    c.isDigit = true :=
  fun _ hc => List.all_eq_true.mp List.all_takeWhile _ hc

theorem splitDigits_append_eq (text : List Char) :
    (splitDigits text).1 ++ (splitDigits text).2 = text :=
  List.takeWhile_append_dropWhile

theorem isFraction_of_fraction? {text rest : List Char} {found : Bool}
    (h : fraction? text = some (found, rest)) :
    ∃ fraction, text = fraction ++ rest ∧ IsFraction fraction ∧ found = !fraction.isEmpty := by
  unfold fraction? at h
  split at h
  · rename_i tail
    simp only [Option.ite_none_left_eq_some, Option.some.injEq, Prod.mk.injEq] at h
    obtain ⟨hne, rfl, rfl⟩ := h
    refine ⟨'.' :: (splitDigits tail).1, ?_, .present ?_ isDigit_of_mem_splitDigits, rfl⟩
    · rw [List.cons_append, splitDigits_append_eq]
    · exact fun hnil => hne (List.isEmpty_iff.mpr hnil)
  · obtain ⟨rfl, rfl⟩ := Prod.mk.injEq .. ▸ Option.some.inj h
    exact ⟨[], rfl, .absent, rfl⟩

theorem exists_sign (text : List Char) :
    ∃ sign, text = sign ++ dropSign text ∧ (sign = [] ∨ sign = ['+'] ∨ sign = ['-']) := by
  unfold dropSign
  split
  · exact ⟨['+'], rfl, .inr (.inl rfl)⟩
  · exact ⟨['-'], rfl, .inr (.inr rfl)⟩
  · exact ⟨[], rfl, .inl rfl⟩

theorem isExponent_of_exponent? {text rest : List Char} {found : Bool}
    (h : exponent? text = some (found, rest)) :
    ∃ exponent, text = exponent ++ rest ∧ IsExponent exponent ∧ found = !exponent.isEmpty := by
  unfold exponent? at h
  split at h
  · obtain ⟨rfl, rfl⟩ := Prod.mk.injEq .. ▸ Option.some.inj h
    exact ⟨[], rfl, .absent, rfl⟩
  · rename_i mark tail
    split at h
    · rename_i hmark
      simp only [Option.ite_none_left_eq_some, Option.some.injEq, Prod.mk.injEq] at h
      obtain ⟨hne, rfl, rfl⟩ := h
      obtain ⟨sign, htail, hsign⟩ := exists_sign tail
      refine ⟨mark :: (sign ++ (splitDigits (dropSign tail)).1), ?_,
        .present (by simpa using hmark) hsign ?_ isDigit_of_mem_splitDigits, rfl⟩
      · rw [List.cons_append, List.append_assoc, splitDigits_append_eq, ← htail]
      · exact fun hnil => hne (List.isEmpty_iff.mpr hnil)
    · obtain ⟨rfl, rfl⟩ := Prod.mk.injEq .. ▸ Option.some.inj h
      exact ⟨[], rfl, .absent, rfl⟩

/-- What is read as a number is the numeral of one, with a fraction and an exponent or without. -/
theorem exists_of_unsigned? {text rest : List Char} {token : Token}
    (h : unsigned? text = some (token, rest)) :
    ∃ n fraction exponent, text = Nat.toDigits 10 n ++ fraction ++ exponent ++ rest ∧
      IsFraction fraction ∧ IsExponent exponent ∧
      token = if fraction = [] ∧ exponent = [] then .natural n else .number := by
  simp only [unsigned?] at h
  split at h
  · rename_i hwhole
    simp only [Option.bind_eq_bind, Option.bind_eq_some_iff] at h
    obtain ⟨⟨_, afterFraction⟩, hfraction, ⟨_, afterExponent⟩, hexponent, h⟩ := h
    obtain ⟨fraction, hafter, hisFraction, rfl⟩ := isFraction_of_fraction? hfraction
    obtain ⟨exponent, rfl, hisExponent, rfl⟩ := isExponent_of_exponent? hexponent
    have hresult : (if fraction = [] ∧ exponent = [] then
        Token.natural (Nat.ofDigitChars 10 (splitDigits text).1 0) else .number, afterExponent) =
          (token, rest) := by
      cases fraction <;> cases exponent <;> exact Option.some.inj h
    obtain ⟨rfl, rfl⟩ := Prod.mk.injEq .. ▸ hresult
    refine ⟨_, fraction, exponent, ?_, hisFraction, hisExponent, rfl⟩
    rw [toDigits_of_isWhole isDigit_of_mem_splitDigits hwhole, List.append_assoc, List.append_assoc,
      ← hafter, splitDigits_append_eq]
  · cases h

theorem spellsToken_of_punctuation? {c : Char} {token : Token} (h : punctuation? c = some token) :
    SpellsToken token [c] := by
  unfold punctuation? at h
  repeat' split at h
  all_goals cases h
  all_goals
    rename_i hc
    subst hc
    constructor

theorem spellsToken_of_word? {c : Char} {word : List Char} {token : Token}
    (h : word? c = some (word, token)) : SpellsToken token (c :: word) := by
  unfold word? at h
  repeat' split at h
  all_goals cases h
  all_goals
    rename_i hc
    subst hc
    constructor

theorem eq_append_of_dropWord? {word text rest : List Char}
    (h : dropWord? word text = some rest) : text = word ++ rest := by
  fun_induction dropWord? word text with
  | case1 text => exact Option.some.inj h
  | case2 word c text ih => rw [ih h, List.cons_append]
  | case3 => cases h
  | case4 => cases h

/-- What is taken for a token is one of the ways to write it. -/
theorem spellsToken_of_lexeme? {c : Char} {text rest : List Char} {token : Token}
    (h : lexeme? c text = some (token, rest)) :
    ∃ lexeme, c :: text = lexeme ++ rest ∧ SpellsToken token lexeme := by
  unfold lexeme? at h
  split at h
  · rename_i hpunctuation
    obtain ⟨rfl, rfl⟩ := Prod.mk.injEq .. ▸ Option.some.inj h
    exact ⟨[c], rfl, spellsToken_of_punctuation? hpunctuation⟩
  · rename_i word token' _ hword
    simp only [Option.bind_eq_bind, Option.bind_eq_some_iff, Option.pure_def, Option.some.injEq,
      Prod.mk.injEq] at h
    obtain ⟨_, hrest, rfl, rfl⟩ := h
    exact ⟨c :: word, by rw [eq_append_of_dropWord? hrest, List.cons_append],
      spellsToken_of_word? hword⟩
  · split at h
    · rename_i hquote
      subst hquote
      simp only [Option.bind_eq_bind, Option.bind_eq_some_iff, Option.pure_def, Option.some.injEq,
        Prod.mk.injEq] at h
      obtain ⟨⟨pieces, _⟩, hpieces, rfl, rfl⟩ := h
      obtain ⟨body, rfl, hbody⟩ := spellsPieces_of_pieces? hpieces
      exact ⟨_, by simp, spellsToken_string hbody⟩
    · split at h
      · rename_i hminus
        subst hminus
        simp only [Option.bind_eq_bind, Option.bind_eq_some_iff, Option.pure_def, Option.some.injEq,
          Prod.mk.injEq] at h
        obtain ⟨⟨_, _⟩, hnumber, rfl, rfl⟩ := h
        obtain ⟨n, fraction, exponent, rfl, hfraction, hexponent, -⟩ := exists_of_unsigned? hnumber
        exact ⟨_, by rw [List.cons_append], .negative n hfraction hexponent⟩
      · obtain ⟨n, fraction, exponent, htext, hfraction, hexponent, rfl⟩ := exists_of_unsigned? h
        refine ⟨_, htext, ?_⟩
        by_cases hwhole : fraction = [] ∧ exponent = []
        · obtain ⟨rfl, rfl⟩ := hwhole
          simpa using SpellsToken.natural n
        · rw [if_neg hwhole]
          exact .number n hfraction hexponent hwhole

theorem Spells.space {c : Char} (hc : isSpace c = true) {tokens : List Token} {text : List Char}
    (h : Spells tokens text) : Spells tokens (c :: text) := by
  cases h with
  | nil h => exact .nil (List.forall_mem_cons.mpr ⟨hc, h⟩)
  | cons spaces h htoken hrest =>
    exact .cons (c :: spaces) (List.forall_mem_cons.mpr ⟨hc, h⟩) htoken hrest

/-- A text that scanning gets through is the text of its tokens. -/
theorem spells_scan {text : List Char} (h : Token.bad ∉ Token.scan text) :
    Spells (Token.scan text) text := by
  fun_induction Token.scan text with
  | case1 => exact .nil nofun
  | case2 c rest hspace ih => exact (ih h).space hspace
  | case3 c rest hspace hlexeme => exact absurd List.mem_cons_self h
  | case4 c rest hspace token rest' hlexeme ih =>
    obtain ⟨lexeme, htext, htoken⟩ := spellsToken_of_lexeme? hlexeme
    rw [htext]
    exact .next htoken (ih fun hbad => h (List.mem_cons_of_mem token hbad))

end AppRoutes.Json
