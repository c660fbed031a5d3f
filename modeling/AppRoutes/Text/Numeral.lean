/-
Decimal numerals of natural numbers.

`Numeral.digits` writes the shortest numeral and `Numeral.value` reads any run of digits,
leading zeros included; `value_digits` says that reading undoes writing.  Numbers that have
to fit in a machine word are read by `Numeral.below?` and narrowed by the caller.
-/
namespace AppRoutes.Text.Numeral

/-- The decimal numeral of `n`, without leading zeros. -/
def digits (n : Nat) : List Char := Nat.toDigits 10 n

/-- The number that a run of decimal digits denotes. -/
def value (text : List Char) : Nat := Nat.ofDigitChars 10 text 0

def isNumeral (text : List Char) : Bool := !text.isEmpty && text.all Char.isDigit

/-- The number below `bound` that `text` denotes: digits, with at most one `+` before them. -/
def below? (bound : Nat) (text : List Char) : Option Nat :=
  let body := match text with
    | '+' :: rest => rest
    | _ => text
  if isNumeral body && value body < bound then some (value body) else none

theorem isNumeral_iff {text : List Char} :
    isNumeral text = true ↔ text ≠ [] ∧ ∀ c ∈ text, c.isDigit = true := by
  simp [isNumeral]

/-- The texts of a number below a bound. -/
theorem below?_eq_some_iff {bound n : Nat} {text : List Char} :
    below? bound text = some n ↔
      ∃ digits, (text = digits ∨ text = '+' :: digits) ∧ isNumeral digits = true ∧
        value digits = n ∧ n < bound := by
  have hbody : ∀ body : List Char,
      (if isNumeral body && value body < bound then some (value body) else none) = some n ↔
        isNumeral body = true ∧ value body = n ∧ n < bound := by
    intro body
    by_cases hnumeral : isNumeral body = true
    · by_cases hlt : value body < bound
      · simp only [hnumeral, hlt, decide_true, Bool.and_self, if_true, Option.some.injEq, true_and]
        exact ⟨fun h => ⟨h, h ▸ hlt⟩, fun h => h.1⟩
      · simp only [hnumeral, hlt, decide_false, Bool.and_false, Bool.false_eq_true, if_false,
          true_and, reduceCtorEq, false_iff, not_and]
        rintro rfl
        exact hlt
    · simp [hnumeral]
  unfold below?
  split
  · rename_i rest
    rw [hbody]
    constructor
    · intro h
      exact ⟨rest, .inr rfl, h⟩
    · rintro ⟨digits, rfl | htext, h⟩
      · have hplus := (isNumeral_iff.mp h.1).2 '+' List.mem_cons_self
        cases hplus
      · obtain ⟨-, rfl⟩ := List.cons.inj htext
        exact h
  · rename_i hsign
    rw [hbody]
    constructor
    · intro h
      exact ⟨text, .inl rfl, h⟩
    · rintro ⟨digits, rfl | htext, h⟩
      · exact h
      · exact absurd htext (hsign digits)

/-- The value of a digit; letters of either case go on from nine. -/
def digitValue? (c : Char) : Option Nat :=
  if '0' ≤ c && c ≤ '9' then some (c.toNat - '0'.toNat)
  else if 'a' ≤ c && c ≤ 'z' then some (c.toNat - 'a'.toNat + 10)
  else if 'A' ≤ c && c ≤ 'Z' then some (c.toNat - 'A'.toNat + 10)
  else none

def digitIn? (base : Nat) (c : Char) : Option Nat := do
  let d ← digitValue? c
  if d < base then some d else none

/-- The number that digits of a base spell, unless one is no digit of it. -/
def valueIn? (base : Nat) (digits : List Char) : Option Nat :=
  digits.foldlM (fun n c => do return n * base + (← digitIn? base c)) 0

theorem value_digits (n : Nat) : value (digits n) = n :=
  Nat.ofDigitChars_ten_toDigits

theorem isDigit_of_mem_digits {n : Nat} {c : Char} (h : c ∈ digits n) : c.isDigit = true :=
  Nat.isDigit_of_mem_toDigits (b := 10) (by decide) (by decide) h

theorem digits_ne_nil (n : Nat) : digits n ≠ [] := Nat.toDigits_ne_nil

theorem isNumeral_digits (n : Nat) : isNumeral (digits n) = true := by
  have h : (digits n).all Char.isDigit = true :=
    List.all_eq_true.mpr (fun _ hc => isDigit_of_mem_digits hc)
  have hne : (digits n).isEmpty = false := by
    rw [List.isEmpty_eq_false_iff]
    exact digits_ne_nil n
  simp [isNumeral, h, hne]

end AppRoutes.Text.Numeral
