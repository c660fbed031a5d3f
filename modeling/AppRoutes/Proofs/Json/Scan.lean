/-
Scanning what was written.

Each theorem here speaks of a text that begins with one written token and goes on
arbitrarily: scanning gives the token and goes on with the rest.  A string literal ends
itself with its quote.  A numeral does not, so `scan_toDigits` asks that the rest does not
begin with a character that would go on with the number.
-/
import AppRoutes.Json.Value
import AppRoutes.Json.Token

namespace AppRoutes.Json

theorem scan_space {c : Char} (h : isSpace c = true) (rest : List Char) :
    Token.scan (c :: rest) = Token.scan rest := by
  rw [Token.scan, if_pos h]

theorem scan_lexeme {c : Char} {text rest : List Char} {token : Token}
    (hspace : isSpace c = false) (h : lexeme? c text = some (token, rest)) :
    Token.scan (c :: text) = token :: Token.scan rest := by
  rw [Token.scan, if_neg (by simp [hspace])]
  split
  · rename_i hnone
    rw [h] at hnone
    simp at hnone
  · rename_i hsome
    rw [h] at hsome
    simp only [Option.some.injEq, Prod.mk.injEq] at hsome
    rw [hsome.1, hsome.2]

theorem scan_punctuation {c : Char} {token : Token} (h : punctuation? c = some token)
    (rest : List Char) : Token.scan (c :: rest) = token :: Token.scan rest := by
  refine scan_lexeme ?_ (by simp [lexeme?, h])
  cases hspace : isSpace c with
  | false => rfl
  | true =>
    simp only [isSpace, Bool.or_eq_true, decide_eq_true_eq] at hspace
    rcases hspace with ((rfl | rfl) | rfl) | rfl <;> simp [punctuation?] at h

theorem scan_spaces {spaces : List Char} (h : ∀ c ∈ spaces, isSpace c = true)
    (rest : List Char) : Token.scan (spaces ++ rest) = Token.scan rest := by
  induction spaces with
  | nil => rfl
  | cons c spaces ih =>
    rw [List.cons_append, scan_space (h c List.mem_cons_self)]
    exact ih (fun c' hc' => h c' (List.mem_cons_of_mem c hc'))

/-! ## Strings

A control character without a letter of its own is written as a code unit, any other
character is read as itself. -/

/-- The piece of a literal that a character is written as. -/
def pieceOf (c : Char) : Piece :=
  if isControl c && (shortEscape? c).isNone then .unit c.toNat else .char c

theorem codeUnit?_control {n : Nat} (h : n < 0x20) :
    codeUnit? '0' '0' (Nat.digitChar (n / 16)) (Nat.digitChar (n % 16)) = some n := by
  have hall : ∀ n < 0x20,
      codeUnit? '0' '0' (Nat.digitChar (n / 16)) (Nat.digitChar (n % 16)) = some n := by decide
  exact hall n h

/-- A letter after a backslash is read as the character that it stands for. -/
theorem unescapeLetter?_of_shortEscape? {c letter : Char} (h : shortEscape? c = some letter) :
    letter ≠ 'u' ∧ unescapeLetter? letter = some c := by
  unfold shortEscape? at h
  repeat' split at h
  all_goals cases h
  all_goals
    rename_i hc
    subst hc
    exact ⟨by decide, by decide⟩

theorem pieces?_escapeChar (c : Char) (rest : List Char) :
    pieces? (escapeChar c ++ rest) =
      (pieces? rest).map (fun found => (pieceOf c :: found.1, found.2)) := by
  by_cases hquote : c = '"' ∨ c = '\\'
  · rcases hquote with rfl | rfl <;>
      cases h : pieces? rest <;>
      simp [escapeChar, pieces?, unescapeLetter?, pieceOf, isControl, h]
  · obtain ⟨hq, hb⟩ := not_or.mp hquote
    by_cases hcontrol : isControl c = true
    · cases hshort : shortEscape? c with
      | some letter =>
        have hletter := unescapeLetter?_of_shortEscape? hshort
        simp only [escapeChar, hq, hb, hcontrol, hshort, pieceOf]
        cases h : pieces? rest <;> simp [pieces?, hletter.1, hletter.2, h]
      | none =>
        have hlt : c.toNat < 0x20 := by simpa [isControl] using hcontrol
        have hunit := codeUnit?_control hlt
        simp only [escapeChar, hq, hb, hcontrol, hshort, pieceOf]
        cases h : pieces? rest <;> simp [pieces?, hunit, h]
    · have hge : ¬c.toNat < 0x20 := by simpa [isControl] using hcontrol
      simp only [escapeChar, hq, hb, hcontrol, pieceOf]
      cases h : pieces? rest <;> simp [pieces?, hb, hge, h]

theorem pieces?_flatMap_escapeChar (text rest : List Char) :
    pieces? (text.flatMap escapeChar ++ '"' :: rest) = some (text.map pieceOf, rest) := by
  induction text with
  | nil => simp [pieces?]
  | cons c text ih =>
    rw [List.flatMap_cons, List.append_assoc, pieces?_escapeChar, ih]
    rfl

theorem joinPieces?_map_pieceOf (text : List Char) :
    joinPieces? (text.map pieceOf) = some text := by
  induction text with
  | nil => rfl
  | cons c text ih =>
    rw [List.map_cons, pieceOf]
    split
    · rename_i h
      have hlt : c.toNat < 0x20 := by
        have := (Bool.and_eq_true_iff.mp h).1
        simpa [isControl] using this
      have hleading : isLeadingSurrogate c.toNat = false := by
        simp only [isLeadingSurrogate, Bool.and_eq_false_iff, decide_eq_false_iff_not]
        omega
      have htrailing : isTrailingSurrogate c.toNat = false := by
        simp only [isTrailingSurrogate, Bool.and_eq_false_iff, decide_eq_false_iff_not]
        omega
      rw [joinPieces?.eq_def]
      simp [hleading, htrailing, ih]
    · rw [joinPieces?, ih]
      rfl

theorem scan_quote (text rest : List Char) :
    Token.scan (quote text ++ rest) = .string (some text) :: Token.scan rest := by
  rw [quote, List.cons_append, List.append_assoc]
  refine scan_lexeme (by decide) ?_
  have hpieces := pieces?_flatMap_escapeChar text rest
  have hlexeme : lexeme? '"' (text.flatMap escapeChar ++ (['"'] ++ rest)) =
      (pieces? (text.flatMap escapeChar ++ (['"'] ++ rest))).bind
        (fun found => some (Token.string (joinPieces? found.1), found.2)) := rfl
  rw [hlexeme, List.singleton_append, hpieces]
  exact congrArg (fun text => some (Token.string text, rest)) (joinPieces?_map_pieceOf text)

/-! ## Numbers -/

/-- Whether a character goes on with the number before it. -/
def extendsNumber (c : Char) : Bool := c.isDigit || c = '.' || c = 'e' || c = 'E'

/-- The text does not go on with a number before it. -/
def EndsNumber (rest : List Char) : Prop := ∀ c ∈ rest.head?, extendsNumber c = false

theorem endsNumber_nil : EndsNumber [] := by simp [EndsNumber]

theorem endsNumber_cons {c : Char} (h : extendsNumber c = false) (rest : List Char) :
    EndsNumber (c :: rest) := by
  intro c' hc'
  rw [List.head?_cons, Option.mem_some_iff] at hc'
  exact hc' ▸ h

theorem head_isDigit_of_endsNumber {rest : List Char} (h : EndsNumber rest) :
    ∀ c ∈ rest.head?, c.isDigit = false := by
  intro c hc
  have := h c hc
  simp only [extendsNumber, Bool.or_eq_false_iff] at this
  exact this.1.1.1

theorem splitDigits_append {digits rest : List Char} (hdigits : ∀ c ∈ digits, c.isDigit = true)
    (hrest : ∀ c ∈ rest.head?, c.isDigit = false) :
    splitDigits (digits ++ rest) = (digits, rest) := by
  rw [splitDigits, List.takeWhile_append_of_pos hdigits, List.dropWhile_append_of_pos hdigits]
  cases rest with
  | nil => simp
  | cons c rest => simp [hrest c rfl]

theorem fraction?_of_endsNumber {rest : List Char} (h : EndsNumber rest) :
    fraction? rest = some (false, rest) := by
  unfold fraction?
  split
  · exact absurd (h '.' rfl) (by decide)
  · rfl

theorem exponent?_of_endsNumber {rest : List Char} (h : EndsNumber rest) :
    exponent? rest = some (false, rest) := by
  cases rest with
  | nil => rfl
  | cons c rest =>
    have hc := h c rfl
    simp only [extendsNumber, Bool.or_eq_false_iff] at hc
    simp [exponent?, hc.1.2, hc.2]

/-- A numeral other than zero begins with another digit than zero. -/
theorem head_toDigits_ne_zero {n : Nat} (hn : 0 < n) :
    ∃ first rest, Nat.toDigits 10 n = first :: rest ∧ first ≠ '0' := by
  induction n using Nat.strongRecOn with
  | ind n ih =>
    rcases Nat.lt_or_ge n 10 with hlt | hge
    · refine ⟨n.digitChar, [], Nat.toDigits_of_lt_base hlt, ?_⟩
      have hall : ∀ n < 10, 0 < n → n.digitChar ≠ '0' := by decide
      exact hall n hlt hn
    · obtain ⟨first, rest, hdigits, hfirst⟩ := ih (n / 10) (by omega) (by omega)
      rw [Nat.toDigits_of_base_le (by decide) hge, hdigits]
      exact ⟨first, _, rfl, hfirst⟩

theorem isWhole_toDigits (n : Nat) : isWhole (Nat.toDigits 10 n) = true := by
  rcases Nat.eq_zero_or_pos n with rfl | hn
  · decide
  · obtain ⟨first, rest, hdigits, hfirst⟩ := head_toDigits_ne_zero hn
    rw [hdigits]
    unfold isWhole
    split <;> simp_all

theorem unsigned?_toDigits (n : Nat) {rest : List Char} (h : EndsNumber rest) :
    unsigned? (Nat.toDigits 10 n ++ rest) = some (.natural n, rest) := by
  have hdigits : ∀ c ∈ Nat.toDigits 10 n, c.isDigit = true := fun _ hc =>
    Nat.isDigit_of_mem_toDigits (by decide) (by decide) hc
  have hsplit := splitDigits_append hdigits (head_isDigit_of_endsNumber h)
  simp [unsigned?, hsplit, isWhole_toDigits, fraction?_of_endsNumber h,
    exponent?_of_endsNumber h, Nat.ofDigitChars_ten_toDigits]

theorem lexeme?_of_isDigit {c : Char} (h : c.isDigit = true) (text : List Char) :
    lexeme? c text = unsigned? (c :: text) := by
  have hne : ∀ d : Char, d.isDigit = false → c ≠ d := by
    rintro d hd rfl
    rw [h] at hd
    contradiction
  simp [lexeme?, punctuation?, word?, hne '{' (by decide), hne '}' (by decide),
    hne '[' (by decide), hne ']' (by decide), hne ',' (by decide), hne ':' (by decide),
    hne 'n' (by decide), hne 't' (by decide), hne 'f' (by decide), hne '"' (by decide),
    hne '-' (by decide)]

/-- Scanning goes on behind a number that begins with a numeral. -/
theorem scan_of_unsigned? {n : Nat} {tail rest : List Char} {token : Token}
    (h : unsigned? (Nat.toDigits 10 n ++ tail) = some (token, rest)) :
    Token.scan (Nat.toDigits 10 n ++ tail) = token :: Token.scan rest := by
  cases hdigits : Nat.toDigits 10 n with
  | nil => exact absurd hdigits Nat.toDigits_ne_nil
  | cons first digits =>
    have hfirst : first.isDigit = true :=
      Nat.isDigit_of_mem_toDigits (b := 10) (n := n) (by decide) (by decide)
        (hdigits ▸ List.mem_cons_self)
    have hspace : isSpace first = false := by
      cases hs : isSpace first with
      | false => rfl
      | true =>
        simp only [isSpace, Bool.or_eq_true, decide_eq_true_eq] at hs
        rcases hs with ((rfl | rfl) | rfl) | rfl <;> simp at hfirst
    rw [hdigits, List.cons_append] at h
    rw [List.cons_append]
    exact scan_lexeme hspace ((lexeme?_of_isDigit hfirst _).trans h)

theorem scan_toDigits (n : Nat) {rest : List Char} (h : EndsNumber rest) :
    Token.scan (Nat.toDigits 10 n ++ rest) = .natural n :: Token.scan rest :=
  scan_of_unsigned? (unsigned?_toDigits n h)

end AppRoutes.Json
