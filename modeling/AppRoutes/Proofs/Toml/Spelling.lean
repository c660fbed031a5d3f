/-
Texts and whole numbers in TOML.

A value is written in many ways: a character of a text as it is or as one of its escapes, a number
with or without a sign.  `SpellsValue` lists the ways, and `value?_of_spellsValue` says that each of
them is read as the value, whatever blanks or line ends follow.
-/
import AppRoutes.Proofs.Json.Spelling
import AppRoutes.Toml.Collection

namespace AppRoutes.Toml

open Text

theorem takeWhile_append {isKind : Char → Bool} {front rest : List Char}
    (hfront : ∀ c ∈ front, isKind c = true) (hrest : ∀ c ∈ rest.head?, isKind c = false) :
    (front ++ rest).takeWhile isKind = front := by
  rw [List.takeWhile_append_of_pos hfront]
  cases rest with
  | nil => exact List.append_nil front
  | cons c rest => rw [List.takeWhile_cons, hrest c rfl]; exact List.append_nil front

theorem dropWhile_append {isKind : Char → Bool} {front rest : List Char}
    (hfront : ∀ c ∈ front, isKind c = true) (hrest : ∀ c ∈ rest.head?, isKind c = false) :
    (front ++ rest).dropWhile isKind = rest := by
  rw [List.dropWhile_append_of_pos hfront]
  cases rest with
  | nil => rfl
  | cons c rest => rw [List.dropWhile_cons, hrest c rfl]; rfl

/-- The letters after a backslash, with the characters that they stand for. -/
def escapes : List (Char × Char) :=
  [('b', '\x08'), ('t', '\t'), ('n', '\n'), ('f', '\x0c'), ('r', '\r'), ('"', '"'), ('\\', '\\')]

/-- How a character is written in a basic string.  Control characters, quotation marks and
backslashes do not stand for themselves. -/
inductive SpellsChar (c : Char) : List Char → Prop
  | plain (hcontrol : 0x20 ≤ c.toNat) (hdelete : c.toNat ≠ 0x7F) (hquote : c ≠ '"')
      (hbackslash : c ≠ '\\') : SpellsChar c [c]
  | letter {letter : Char} (h : (letter, c) ∈ escapes) : SpellsChar c ['\\', letter]
  | short {digits : List Char} (hlength : digits.length = 4)
      (h : Numeral.valueIn? 16 digits = some c.toNat) : SpellsChar c ('\\' :: 'u' :: digits)
  | long {digits : List Char} (hlength : digits.length = 8)
      (h : Numeral.valueIn? 16 digits = some c.toNat) : SpellsChar c ('\\' :: 'U' :: digits)

/-- How a text is written between the quotation marks of a basic string. -/
inductive SpellsChars : List Char → List Char → Prop
  | nil : SpellsChars [] []
  | cons {c : Char} {text lexeme body : List Char} (h : SpellsChar c lexeme)
      (hrest : SpellsChars text body) : SpellsChars (c :: text) (lexeme ++ body)

/-- Four digits spell each of the characters that a basic string cannot hold as they are. -/
theorem valueIn?_low {n : Nat} (h : n < 128) :
    Numeral.valueIn? 16 ['0', '0', Nat.digitChar (n / 16), Nat.digitChar (n % 16)] = some n := by
  have hall : ∀ n < 128,
      Numeral.valueIn? 16 ['0', '0', Nat.digitChar (n / 16), Nat.digitChar (n % 16)] = some n := by
    decide +kernel
  exact hall n h

theorem exists_spellsChar (c : Char) : ∃ lexeme, SpellsChar c lexeme := by
  by_cases hlow : c.toNat < 128
  · exact ⟨_, .short rfl (valueIn?_low hlow)⟩
  · refine ⟨[c], .plain (by omega) (by omega) ?_ ?_⟩
    · rintro rfl
      exact hlow (by decide)
    · rintro rfl
      exact hlow (by decide)

/-- Every text can be written as a basic string. -/
theorem exists_spellsChars (text : List Char) : ∃ body, SpellsChars text body := by
  induction text with
  | nil => exact ⟨[], .nil⟩
  | cons c text ih =>
    obtain ⟨lexeme, hchar⟩ := exists_spellsChar c
    obtain ⟨body, hrest⟩ := ih
    exact ⟨lexeme ++ body, .cons hchar hrest⟩

theorem scalar?_of_valueIn? {digits : List Char} {c : Char}
    (h : Numeral.valueIn? 16 digits = some c.toNat) : scalar? digits = some c := by
  have hscalar := Json.isScalar c
  have hvalid : (c.toNat < 0xD800 || (0xE000 ≤ c.toNat && c.toNat < 0x110000)) = true := by
    simp only [Bool.or_eq_true, Bool.and_eq_true, decide_eq_true_eq]
    omega
  rw [scalar?, h]
  show (if _ then some (Char.ofNat c.toNat) else none) = some c
  rw [if_pos hvalid, Char.ofNat_toNat]

theorem codePoint?_append {digits : List Char} {c : Char}
    (h : Numeral.valueIn? 16 digits = some c.toNat) (rest : List Char) :
    codePoint? digits.length (digits ++ rest) = some (c, rest) := by
  rw [codePoint?, List.take_left, List.drop_left]
  simp [scalar?_of_valueIn? h]

theorem escape?_letter {letter c : Char} (h : (letter, c) ∈ escapes) (rest : List Char) :
    escape? (letter :: rest) = some (c, rest) := by
  simp only [escapes, List.mem_cons, Prod.mk.injEq, List.not_mem_nil, or_false] at h
  rcases h with ⟨rfl, rfl⟩ | ⟨rfl, rfl⟩ | ⟨rfl, rfl⟩ | ⟨rfl, rfl⟩ | ⟨rfl, rfl⟩ | ⟨rfl, rfl⟩ |
    ⟨rfl, rfl⟩
  all_goals rfl

/-- Reading a character of a basic string takes one off the bound. -/
theorem basicUpTo?_of_spellsChar {c : Char} {lexeme : List Char} (h : SpellsChar c lexeme)
    (bound : Nat) (rest : List Char) :
    basicUpTo? (bound + 1) (lexeme ++ rest) =
      (basicUpTo? bound rest).map (fun found => (c :: found.1, found.2)) := by
  have hescape : ∀ text, escape? text = some (c, rest) →
      basicUpTo? (bound + 1) ('\\' :: text) =
        (basicUpTo? bound rest).map (fun found => (c :: found.1, found.2)) := by
    intro text htext
    rw [basicUpTo?, if_neg (by decide), if_pos rfl, htext]
    cases hrest : basicUpTo? bound rest <;> simp [hrest]
  cases h with
  | plain hcontrol hdelete hquote hbackslash =>
    have hallowed : isForbidden c = false := by
      simp only [isForbidden, Bool.or_eq_false_iff, Bool.and_eq_false_iff, decide_eq_false_iff_not]
      omega
    rw [List.singleton_append, basicUpTo?, if_neg hquote, if_neg hbackslash, hallowed]
    cases hrest : basicUpTo? bound rest <;> simp
  | letter h => exact hescape _ (escape?_letter h rest)
  | @short digits hlength h =>
    refine hescape ('u' :: (digits ++ rest)) ?_
    rw [escape?, if_neg (by decide), if_pos rfl, ← hlength]
    exact codePoint?_append h rest
  | @long digits hlength h =>
    refine hescape ('U' :: (digits ++ rest)) ?_
    rw [escape?, if_neg (by decide), if_neg (by decide), if_pos rfl, ← hlength]
    exact codePoint?_append h rest

theorem basicUpTo?_of_spellsChars {text body : List Char} (h : SpellsChars text body)
    {bound : Nat} (hbound : text.length < bound) (rest : List Char) :
    basicUpTo? bound (body ++ '"' :: rest) = some (text, rest) := by
  induction h generalizing bound with
  | nil =>
    obtain ⟨bound, rfl⟩ := Nat.exists_eq_add_one_of_ne_zero (Nat.ne_zero_of_lt hbound)
    rfl
  | @cons c text lexeme body hchar _ ih =>
    obtain ⟨bound, rfl⟩ := Nat.exists_eq_add_one_of_ne_zero (Nat.ne_zero_of_lt hbound)
    rw [List.append_assoc, basicUpTo?_of_spellsChar hchar, ih (Nat.lt_of_succ_lt_succ hbound)]
    rfl

theorem one_le_length_of_spellsChar {c : Char} {lexeme : List Char} (h : SpellsChar c lexeme) :
    1 ≤ lexeme.length := by
  cases h <;> simp

theorem length_le_of_spellsChars {text body : List Char} (h : SpellsChars text body) :
    text.length ≤ body.length := by
  induction h with
  | nil => exact Nat.le_refl 0
  | cons hchar _ ih =>
    have hlexeme := one_le_length_of_spellsChar hchar
    rw [List.length_cons, List.length_append]
    omega

theorem basic?_of_spellsChars {text body : List Char} (h : SpellsChars text body)
    (rest : List Char) : basic? (body ++ '"' :: rest) = some (text, rest) := by
  have hlength := length_le_of_spellsChars h
  refine basicUpTo?_of_spellsChars h ?_ rest
  rw [List.length_append, List.length_cons]
  omega

/-- No mark stands at the front of a text that is written between marks. -/
theorem head?_ne_quote_of_spellsChars {text body : List Char} (h : SpellsChars text body) :
    body.head? ≠ some '"' := by
  cases h with
  | nil => exact nofun
  | cons hchar _ =>
    cases hchar with
    | plain _ _ hquote _ => simpa using hquote
    | letter | short | long => simp

/-- The empty text is written as two marks, so a third one must not follow. -/
theorem string?_of_spellsChars {text body : List Char} (h : SpellsChars text body)
    {rest : List Char} (hrest : rest.head? ≠ some '"') :
    string? ('"' :: (body ++ '"' :: rest)) = some (String.ofList text, rest) := by
  have hbasic := basic?_of_spellsChars h rest
  have hhead := head?_ne_quote_of_spellsChars h
  have hlong : ∀ tail, body ++ '"' :: rest ≠ '"' :: '"' :: tail := by
    intro tail heq
    cases body with
    | nil =>
      rw [List.nil_append, List.cons.injEq] at heq
      exact hrest (by rw [heq.2]; rfl)
    | cons c body =>
      rw [List.cons_append, List.cons.injEq] at heq
      exact hhead (by rw [heq.1]; rfl)
  rw [string?.eq_3 _ hlong, hbasic]
  rfl

/-- What follows a value: nothing that could belong to it. -/
def EndsWord (rest : List Char) : Prop := ∀ c ∈ rest.head?, isWordChar c = false ∧ c ≠ '"'

theorem isWordChar_of_isDigit {c : Char} (h : c.isDigit = true) : isWordChar c = true := by
  simp [isWordChar, Char.isAlphanum, h]

theorem ne_of_isDigit {c d : Char} (h : c.isDigit = true) (hd : d.isDigit = false) : c ≠ d := by
  rintro rfl
  rw [h] at hd
  exact absurd hd (by decide)

theorem fixedDigits?_eq_none {count : Nat} {c : Char} (hc : c.isDigit = false)
    (rest : List Char) : fixedDigits? (count + 1) (c :: rest) = none := by
  simp [fixedDigits?, hc]

/-- A run of digits is no date, since the year ends with a hyphen. -/
theorem date?_of_forall_isDigit {text : List Char} (h : ∀ c ∈ text, c.isDigit = true) :
    date? text = none := by
  have hmark : mark? '-' (text.drop 4) = none := by
    cases hdrop : text.drop 4 with
    | nil => rfl
    | cons c rest =>
      have hc : c ≠ '-' :=
        ne_of_isDigit (h c (List.mem_of_mem_drop (hdrop ▸ List.mem_cons_self))) (by decide)
      rw [mark?, if_neg hc]
  rw [date?, fixedDigits?]
  split
  · simp [hmark]
  · rfl

theorem date?_hyphen (rest : List Char) : date? ('-' :: rest) = none := by
  rw [date?, fixedDigits?_eq_none (by decide)]
  rfl

theorem takeWord_append {word rest : List Char} (hword : ∀ c ∈ word, isWordChar c = true)
    (hdate : date? word = none) (hrest : EndsWord rest) :
    takeWord (word ++ rest) = (word, rest) := by
  have hend : ∀ c ∈ rest.head?, isWordChar c = false := fun c hc => (hrest c hc).1
  rw [takeWord, takeWhile_append hword hend, dropWhile_append hword hend, hdate]

theorem wholeDigits?_digits (n : Nat) :
    wholeDigits? (Numeral.digits n) = some (Numeral.digits n) := by
  have hall : (Numeral.digits n).all Char.isDigit = true :=
    List.all_eq_true.mpr fun _ => Numeral.isDigit_of_mem_digits
  have hmark : '_' ∉ Numeral.digits n := fun hmem =>
    absurd (Numeral.isDigit_of_mem_digits hmem) (by decide)
  have hungroup : ungroup? Char.isDigit (Numeral.digits n) = some (Numeral.digits n) := by
    rw [ungroup?, split_of_not_mem hmark]
    simp [Numeral.digits_ne_nil, hall]
  have hwhole : ((Numeral.digits n).head? = some '0' && (Numeral.digits n).length ≠ 1) =
      false := by
    by_cases hn : n = 0
    · rw [hn]
      rfl
    · obtain ⟨first, rest, hfirst, hne⟩ :
          ∃ first rest, Numeral.digits n = first :: rest ∧ first ≠ '0' :=
        Json.head_toDigits_ne_zero (Nat.pos_of_ne_zero hn)
      rw [hfirst]
      simp [hne]
  rw [wholeDigits?, hungroup]
  show (if _ then none else some (Numeral.digits n)) = _
  rw [hwhole]
  rfl

theorem one_shiftLeft_127 : ((1 <<< 127 : Nat) : Int) =
    170141183460469231731687303715884105728 := by
  decide

theorem inRange?_eq_some {n : Int} (hlow : -(UInt64.size : Int) ≤ n) (hhigh : n < UInt64.size) :
    inRange? n = some n := by
  have hsize : (UInt64.size : Int) = 18446744073709551616 := rfl
  have hrange : (-((1 <<< 127 : Nat) : Int) ≤ n && n < 2 * ((1 <<< 127 : Nat) : Int)) = true := by
    rw [one_shiftLeft_127, Bool.and_eq_true, decide_eq_true_eq, decide_eq_true_eq]
    omega
  rw [inRange?]
  exact if_pos hrange

/-- A run of digits without a letter after its first digit is read in base ten. -/
theorem integer?_digits {n : Nat} (h : n < UInt64.size) :
    integer? (Numeral.digits n) = some (n : Int) := by
  have hletter : ∀ letter rest, Numeral.digits n = '0' :: letter :: rest →
      letter.isDigit = true := fun letter rest heq =>
    Numeral.isDigit_of_mem_digits (heq ▸ List.mem_cons_of_mem _ List.mem_cons_self)
  have hsign : cutSign (Numeral.digits n) = (none, Numeral.digits n) := by
    unfold cutSign
    split
    · rename_i rest heq
      exact absurd (Numeral.isDigit_of_mem_digits (heq ▸ List.mem_cons_self)) (by decide)
    · rename_i rest heq
      exact absurd (Numeral.isDigit_of_mem_digits (heq ▸ List.mem_cons_self)) (by decide)
    · rfl
  unfold integer?
  split
  · rename_i rest heq
    exact absurd (hletter _ _ heq) (by decide)
  · rename_i rest heq
    exact absurd (hletter _ _ heq) (by decide)
  · rename_i rest heq
    exact absurd (hletter _ _ heq) (by decide)
  · rw [hsign]
    show (wholeDigits? (Numeral.digits n)).bind _ = _
    rw [wholeDigits?_digits, Option.bind_some, Numeral.value_digits]
    show inRange? (if (none : Option Char) = some '-' then -(n : Int) else n) = _
    rw [if_neg (by decide)]
    exact inRange?_eq_some (by omega) (by omega)

theorem integer?_hyphen_digits {n : Nat} (h : n ≤ UInt64.size) :
    integer? ('-' :: Numeral.digits n) = some (-n : Int) := by
  show (wholeDigits? (Numeral.digits n)).bind _ = _
  rw [wholeDigits?_digits, Option.bind_some, Numeral.value_digits]
  show inRange? (if some '-' = some '-' then -(n : Int) else n) = _
  rw [if_pos rfl]
  have hsize : 0 < UInt64.size := by decide
  exact inRange?_eq_some (by omega) (by omega)

/-! ## Values -/

/-- How a text or a whole number is written.  Numbers have 64 bits, with a sign or without. -/
inductive SpellsValue : Value → List Char → Prop
  | text {text : String} {body : List Char} (h : SpellsChars text.toList body) :
      SpellsValue (.string text) ('"' :: (body ++ ['"']))
  | natural {n : Nat} (h : n < UInt64.size) : SpellsValue (.integer n) (Numeral.digits n)
  | negative {n : Nat} (h : 2 * n ≤ UInt64.size) :
      SpellsValue (.integer (-n)) ('-' :: Numeral.digits n)

/-- The value of a word that begins like a number and is a whole number. -/
theorem scalar_of_integer? {word rest : List Char} {n : Int}
    (hword : ∀ c ∈ word, isWordChar c = true) (hdate : date? word = none)
    (hletter : ∀ c ∈ word.head?, c ≠ 't' ∧ c ≠ 'f') (hinteger : integer? word = some n)
    (hrest : EndsWord rest) : scalar (word ++ rest) = some (.integer n, rest) := by
  have hvalue : scalarOf? word = some (.integer n) := by
    have htrue : word ≠ ['t', 'r', 'u', 'e'] := by
      rintro rfl
      exact (hletter 't' rfl).1 rfl
    have hfalse : word ≠ ['f', 'a', 'l', 's', 'e'] := by
      rintro rfl
      exact (hletter 'f' rfl).2 rfl
    rw [scalarOf?, if_neg htrue, if_neg hfalse, hinteger]
  rw [scalar, takeWord_append hword hdate hrest]
  show (scalarOf? word).map _ = _
  rw [hvalue]
  rfl

theorem scalar_digits {n : Nat} (h : n < UInt64.size) {rest : List Char}
    (hrest : EndsWord rest) :
    scalar (Numeral.digits n ++ rest) = some (.integer n, rest) := by
  refine scalar_of_integer? (fun c hc => isWordChar_of_isDigit (Numeral.isDigit_of_mem_digits hc))
    (date?_of_forall_isDigit fun _ => Numeral.isDigit_of_mem_digits) (fun c hc => ?_)
    (integer?_digits h) hrest
  have hdigit := Numeral.isDigit_of_mem_digits (List.mem_of_mem_head? hc)
  exact ⟨ne_of_isDigit hdigit (by decide), ne_of_isDigit hdigit (by decide)⟩

theorem scalar_hyphen_digits {n : Nat} (h : n ≤ UInt64.size) {rest : List Char}
    (hrest : EndsWord rest) :
    scalar ('-' :: Numeral.digits n ++ rest) = some (.integer (-n), rest) := by
  refine scalar_of_integer? (fun c hc => ?_) (date?_hyphen _) (fun c hc => ?_)
    (integer?_hyphen_digits h) hrest
  · rcases List.mem_cons.mp hc with heq | hc
    · rw [heq]
      decide
    · exact isWordChar_of_isDigit (Numeral.isDigit_of_mem_digits hc)
  · rw [List.head?_cons, Option.mem_some_iff] at hc
    rw [← hc]
    decide

/-- A text that begins neither an array nor a table between braces is a string or one word. -/
theorem valueAt?_eq {depth : Nat} {text : List Char}
    (h : ∀ c ∈ text.head?, c ≠ '[' ∧ c ≠ '{') :
    valueAt? depth text =
      match string? text with
      | some (s, rest) => some (.string s, rest)
      | none => scalar text := by
  cases depth with
  | zero => rfl
  | succ depth =>
    unfold valueAt?
    split
    · exact absurd rfl (h '[' rfl).1
    · exact absurd rfl (h _ rfl).2
    · rfl

theorem string?_eq_none {text : List Char} (h : ∀ c ∈ text.head?, c ≠ '"' ∧ c ≠ '\'') :
    string? text = none := by
  unfold string?
  split
  · exact absurd rfl (h '"' rfl).1
  · exact absurd rfl (h '\'' rfl).2
  · exact absurd rfl (h '"' rfl).1
  · exact absurd rfl (h '\'' rfl).2
  · rfl

theorem valueAt?_of_scalar {depth : Nat} {text rest : List Char} {value : Value}
    (hhead : ∀ c ∈ text.head?, c.isDigit = true ∨ c = '-') (h : scalar text = some (value, rest)) :
    valueAt? depth text = some (value, rest) := by
  have hne : ∀ c ∈ text.head?, ∀ d : Char, d.isDigit = false → d ≠ '-' → c ≠ d := by
    intro c hc d hd hhyphen
    rcases hhead c hc with hdigit | heq
    · exact ne_of_isDigit hdigit hd
    · rw [heq]
      exact hhyphen.symm
  have hstring : string? text = none := string?_eq_none fun c hc =>
    ⟨hne c hc _ (by decide) (by decide), hne c hc _ (by decide) (by decide)⟩
  have hword := @valueAt?_eq depth text fun c hc =>
    ⟨hne c hc _ (by decide) (by decide), hne c hc _ (by decide) (by decide)⟩
  rw [hword, hstring]
  exact h

/-- A value is read as it was written, whatever follows it. -/
theorem value?_of_spellsValue {value : Value} {lexeme : List Char} (h : SpellsValue value lexeme)
    {rest : List Char} (hrest : EndsWord rest) :
    value? (lexeme ++ rest) = some (value, rest) := by
  cases h with
  | @text text body hbody =>
    have hquote : rest.head? ≠ some '"' := fun hhead => (hrest '"' hhead).2 rfl
    have hstring := string?_of_spellsChars hbody hquote
    rw [String.ofList_toList] at hstring
    have happend : '"' :: (body ++ ['"']) ++ rest = '"' :: (body ++ '"' :: rest) := by
      rw [List.cons_append, List.append_assoc, List.singleton_append]
    rw [value?, happend, valueAt?_eq (by simp), hstring]
  | @natural n hn =>
    refine valueAt?_of_scalar (fun c hc => ?_) (scalar_digits hn hrest)
    obtain ⟨first, digits, hdigits⟩ := List.exists_cons_of_ne_nil (Numeral.digits_ne_nil n)
    have hfirst : first ∈ Numeral.digits n := hdigits ▸ List.mem_cons_self
    rw [hdigits, List.cons_append, List.head?_cons, Option.mem_some_iff] at hc
    rw [← hc]
    exact Or.inl (Numeral.isDigit_of_mem_digits hfirst)
  | @negative n hn =>
    refine valueAt?_of_scalar (fun c hc => ?_) (scalar_hyphen_digits (by omega) hrest)
    rw [List.cons_append, List.head?_cons, Option.mem_some_iff] at hc
    exact Or.inr hc.symm

end AppRoutes.Toml
