/-
JSON tokens.

`Token.scan` cuts a text into tokens and drops the white space between them, which is
space, tab, line feed and carriage return only.  Scanning never fails: where the text stops
being JSON the list ends with `Token.bad`, so that what stands before the fault can still be
read.

A string literal is read in two steps.  The first gives its pieces, characters and code
units written as `\u` escapes; the second pairs surrogates.  A literal in which a surrogate
stands alone has pieces but no text.
-/
import AppRoutes.Text.Numeral

namespace AppRoutes.Json

inductive Token where
  | leftBrace
  | rightBrace
  | leftBracket
  | rightBracket
  | comma
  | colon
  | null
  | boolean (value : Bool)
  /-- A number with neither sign, fraction nor exponent. -/
  | natural (value : Nat)
  | number
  /-- A string literal, without a text if a surrogate stands alone in it. -/
  | string (text : Option (List Char))
  | bad
  deriving DecidableEq, Inhabited

def isSpace (c : Char) : Bool := c = ' ' || c = '\t' || c = '\n' || c = '\r'

/-- A piece of a string literal: a character, or a code unit written as an escape. -/
inductive Piece where
  | char (c : Char)
  | unit (n : Nat)
  deriving DecidableEq

def codeUnit? (a b c d : Char) : Option Nat := Text.Numeral.valueIn? 16 [a, b, c, d]

def unescapeLetter? (c : Char) : Option Char :=
  if c = '"' || c = '\\' || c = '/' then some c
  else if c = 'b' then some '\x08'
  else if c = 'f' then some '\x0c'
  else if c = 'n' then some '\n'
  else if c = 'r' then some '\r'
  else if c = 't' then some '\t'
  else none

/-- The pieces up to the closing quote, and what follows it. -/
def pieces? : List Char → Option (List Piece × List Char)
  | [] => none
  | '"' :: rest => some ([], rest)
  | '\\' :: 'u' :: a :: b :: c :: d :: rest => do
    let unit ← codeUnit? a b c d
    let (pieces, rest) ← pieces? rest
    return (.unit unit :: pieces, rest)
  | '\\' :: letter :: rest => do
    let c ← unescapeLetter? letter
    let (pieces, rest) ← pieces? rest
    return (.char c :: pieces, rest)
  | c :: rest =>
    if c.toNat < 0x20 then none
    else do
      let (pieces, rest) ← pieces? rest
      return (.char c :: pieces, rest)

def isLeadingSurrogate (n : Nat) : Bool := 0xD800 ≤ n && n < 0xDC00

def isTrailingSurrogate (n : Nat) : Bool := 0xDC00 ≤ n && n < 0xE000

/-- The character beyond the first plane that two surrogates spell. -/
def joinSurrogates (leading trailing : Nat) : Char :=
  Char.ofNat (0x10000 + (leading - 0xD800) * 0x400 + (trailing - 0xDC00))

/-- The text that the pieces spell, unless a surrogate stands alone. -/
def joinPieces? : List Piece → Option (List Char)
  | [] => some []
  | .char c :: rest => do return c :: (← joinPieces? rest)
  | .unit n :: rest =>
    if isLeadingSurrogate n then
      match rest with
      | .unit m :: rest =>
        if isTrailingSurrogate m then do return joinSurrogates n m :: (← joinPieces? rest)
        else none
      | _ => none
    else if isTrailingSurrogate n then none
    else do return Char.ofNat n :: (← joinPieces? rest)

theorem length_lt_of_pieces? {text : List Char} {pieces : List Piece} {rest : List Char}
    (h : pieces? text = some (pieces, rest)) : rest.length < text.length := by
  fun_induction pieces? text generalizing pieces rest with
  | case1 => simp at h
  | case2 => simp_all
  | case3 a b c d tail ih =>
    simp only [Option.bind_eq_bind, Option.bind_eq_some_iff] at h
    obtain ⟨_, _, ⟨ps, r⟩, hr, h⟩ := h
    have := ih hr
    simp_all
    omega
  | case4 letter tail _ ih =>
    simp only [Option.bind_eq_bind, Option.bind_eq_some_iff] at h
    obtain ⟨_, _, ⟨ps, r⟩, hr, h⟩ := h
    have := ih hr
    simp_all
    omega
  | case5 => simp at h
  | case6 c tail _ _ _ _ ih =>
    simp only [Option.bind_eq_bind, Option.bind_eq_some_iff] at h
    obtain ⟨⟨ps, r⟩, hr, h⟩ := h
    have := ih hr
    simp_all
    omega

/-- The digits at the front of the text, and the rest of it. -/
def splitDigits (text : List Char) : List Char × List Char :=
  (text.takeWhile Char.isDigit, text.dropWhile Char.isDigit)

/-- An optional fraction, which is a point with digits after it: whether there is one, and
the rest. -/
def fraction? : List Char → Option (Bool × List Char)
  | '.' :: rest =>
    let (digits, rest) := splitDigits rest
    if digits.isEmpty then none else some (true, rest)
  | rest => some (false, rest)

def dropSign : List Char → List Char
  | '+' :: rest => rest
  | '-' :: rest => rest
  | text => text

/-- An optional exponent: whether there is one, and the rest. -/
def exponent? : List Char → Option (Bool × List Char)
  | [] => some (false, [])
  | c :: rest =>
    if c = 'e' || c = 'E' then
      let (digits, rest) := splitDigits (dropSign rest)
      if digits.isEmpty then none else some (true, rest)
    else some (false, c :: rest)

/-- The whole part of a number has no leading zero. -/
def isWhole (digits : List Char) : Bool :=
  match digits with
  | [] => false
  | ['0'] => true
  | first :: _ => first ≠ '0'

def unsigned? (text : List Char) : Option (Token × List Char) :=
  let (digits, rest) := splitDigits text
  if isWhole digits then do
    let (hasFraction, rest) ← fraction? rest
    let (hasExponent, rest) ← exponent? rest
    if hasFraction || hasExponent then return (.number, rest)
    else return (.natural (Nat.ofDigitChars 10 digits 0), rest)
  else none

theorem length_splitDigits (text : List Char) :
    (splitDigits text).1.length + (splitDigits text).2.length = text.length := by
  rw [← List.length_append, splitDigits, List.takeWhile_append_dropWhile]

theorem length_le_of_fraction? {text : List Char} {found : Bool} {rest : List Char}
    (h : fraction? text = some (found, rest)) : rest.length ≤ text.length := by
  unfold fraction? at h
  split at h
  · rename_i tail
    have := length_splitDigits tail
    simp only [Option.ite_none_left_eq_some, Option.some.injEq, Prod.mk.injEq] at h
    rw [← h.2.2]
    simp only [List.length_cons]
    omega
  · simp_all

theorem length_dropSign_le (text : List Char) : (dropSign text).length ≤ text.length := by
  unfold dropSign
  split <;> simp

theorem length_le_of_exponent? {text : List Char} {found : Bool} {rest : List Char}
    (h : exponent? text = some (found, rest)) : rest.length ≤ text.length := by
  unfold exponent? at h
  split at h
  · simp_all
  · rename_i c tail
    split at h
    · have h₁ := length_splitDigits (dropSign tail)
      have h₂ := length_dropSign_le tail
      simp only [Option.ite_none_left_eq_some, Option.some.injEq, Prod.mk.injEq] at h
      rw [← h.2.2]
      simp only [List.length_cons]
      omega
    · simp_all

theorem length_lt_of_unsigned? {text : List Char} {token : Token} {rest : List Char}
    (h : unsigned? text = some (token, rest)) : rest.length < text.length := by
  have hlen := length_splitDigits text
  simp only [unsigned?] at h
  split at h
  · rename_i hwhole
    have hpos : 0 < (splitDigits text).1.length := by
      cases hd : (splitDigits text).1 with
      | nil => simp [hd, isWhole] at hwhole
      | cons => simp
    simp only [Option.bind_eq_bind, Option.bind_eq_some_iff] at h
    obtain ⟨⟨f, r₁⟩, hf, ⟨e, r₂⟩, he, h⟩ := h
    have h₁ := length_le_of_fraction? hf
    have h₂ := length_le_of_exponent? he
    have hrest : r₂ = rest := by
      split at h <;> simp_all
    subst hrest
    simp only at h₁ h₂
    omega
  · simp at h

/-! ## Tokens -/

/-- The rest of the text after a word. -/
def dropWord? : List Char → List Char → Option (List Char)
  | [], text => some text
  | w :: word, c :: text => if w = c then dropWord? word text else none
  | _ :: _, [] => none

def punctuation? (c : Char) : Option Token :=
  if c = '{' then some .leftBrace
  else if c = '}' then some .rightBrace
  else if c = '[' then some .leftBracket
  else if c = ']' then some .rightBracket
  else if c = ',' then some .comma
  else if c = ':' then some .colon
  else none

/-- The word that begins with `c`: the rest of its letters, and its token. -/
def word? (c : Char) : Option (List Char × Token) :=
  if c = 'n' then some (['u', 'l', 'l'], .null)
  else if c = 't' then some (['r', 'u', 'e'], .boolean true)
  else if c = 'f' then some (['a', 'l', 's', 'e'], .boolean false)
  else none

/-- The token that begins with `c`, and the rest of the text after it. -/
def lexeme? (c : Char) (text : List Char) : Option (Token × List Char) :=
  match punctuation? c, word? c with
  | some token, _ => some (token, text)
  | none, some (word, token) => do return (token, ← dropWord? word text)
  | none, none =>
    if c = '"' then do
      let (pieces, rest) ← pieces? text
      return (.string (joinPieces? pieces), rest)
    else if c = '-' then do
      let (_, rest) ← unsigned? text
      return (.number, rest)
    else unsigned? (c :: text)

theorem length_le_of_dropWord? {word text rest : List Char}
    (h : dropWord? word text = some rest) : rest.length ≤ text.length := by
  fun_induction dropWord? word text with
  | case1 text => simp_all
  | case2 word c text ih =>
    have := ih h
    simp only [List.length_cons]
    omega
  | case3 => simp at h
  | case4 => simp at h

theorem length_le_of_lexeme? {c : Char} {text : List Char} {token : Token} {rest : List Char}
    (h : lexeme? c text = some (token, rest)) : rest.length ≤ text.length := by
  unfold lexeme? at h
  split at h
  · simp_all
  · simp only [Option.bind_eq_bind, Option.bind_eq_some_iff] at h
    obtain ⟨r, hr, h⟩ := h
    have := length_le_of_dropWord? hr
    simp_all
  · split at h
    · simp only [Option.bind_eq_bind, Option.bind_eq_some_iff] at h
      obtain ⟨⟨ps, r⟩, hr, h⟩ := h
      have := length_lt_of_pieces? hr
      simp_all
      omega
    · split at h
      · simp only [Option.bind_eq_bind, Option.bind_eq_some_iff] at h
        obtain ⟨⟨t, r⟩, hr, h⟩ := h
        have := length_lt_of_unsigned? hr
        simp_all
        omega
      · have := length_lt_of_unsigned? h
        simp only [List.length_cons] at this
        omega

/-- The tokens of a text, up to the place where it stops being JSON. -/
def Token.scan (text : List Char) : List Token :=
  match text with
  | [] => []
  | c :: rest =>
    if isSpace c then Token.scan rest
    else
      match _h : lexeme? c rest with
      | none => [.bad]
      | some (token, rest') => token :: Token.scan rest'
termination_by text.length
decreasing_by
  · simp
  · have := length_le_of_lexeme? _h
    simp only [List.length_cons]
    omega

end AppRoutes.Json
