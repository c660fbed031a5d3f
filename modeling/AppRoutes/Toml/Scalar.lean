/-
TOML values that are neither strings nor collections.

Such a value is one word: a truth value, an integer in one of four bases, a floating-point
number, or a date, a time or both.  The values of floating-point numbers and of dates are
checked but not kept, since no setting holds one.
-/
import AppRoutes.Text.Numeral
import AppRoutes.Text.Split

namespace AppRoutes.Toml
open Text

/-- A value of a file, as far as settings look at it. -/
inductive Value where
  | string (text : String)
  | integer (value : Int)
  | float
  | boolean (value : Bool)
  | dateTime
  | array
  | table
  deriving DecidableEq, Inhabited

/-- The digits of a number whose digits may be grouped by single underscores. -/
def ungroup? (isDigit : Char → Bool) (text : List Char) : Option (List Char) :=
  let groups := split '_' text
  if groups.all (fun group => !group.isEmpty && group.all isDigit) then some groups.flatten
  else none

def cutSign : List Char → Option Char × List Char
  | '+' :: rest => (some '+', rest)
  | '-' :: rest => (some '-', rest)
  | text => (none, text)

def wholeDigits? (text : List Char) : Option (List Char) := do
  let digits ← ungroup? Char.isDigit text
  if digits.head? = some '0' && digits.length ≠ 1 then none else some digits

def natural? (base : Nat) (text : List Char) : Option Nat := do
  let digits ← ungroup? (fun c => (Numeral.digitIn? base c).isSome) text
  Numeral.valueIn? base digits

/-- Integers have 128 bits, with a sign or without. -/
def inRange? (n : Int) : Option Int :=
  let half : Nat := 1 <<< 127
  if -(half : Int) ≤ n && n < 2 * half then some n else none

def integer? (text : List Char) : Option Int :=
  match text with
  | '0' :: 'x' :: rest => (natural? 16 rest).bind (fun n => inRange? n)
  | '0' :: 'o' :: rest => (natural? 8 rest).bind (fun n => inRange? n)
  | '0' :: 'b' :: rest => (natural? 2 rest).bind (fun n => inRange? n)
  | _ =>
    let (sign, body) := cutSign text
    (wholeDigits? body).bind fun digits =>
      let n : Int := Numeral.value digits
      inRange? (if sign = some '-' then -n else n)

/-- Whether `digits * 10 ^ exponent` rounds to a finite number of 64 bits. -/
def isFinite (digits : List Char) (exponent : Int) : Bool :=
  let significant := digits.dropWhile (· = '0')
  let magnitude := (significant.length : Int) + exponent
  let limit : Nat := (1 <<< 1024) - (1 <<< 970)
  if significant.isEmpty || magnitude < 308 then true
  else if 310 < magnitude then false
  else
    let n := Numeral.value significant
    if 0 ≤ exponent then n * Nat.pow 10 exponent.toNat < limit
    else n < limit * Nat.pow 10 (-exponent).toNat

def isExponentMark (c : Char) : Bool := c = 'e' || c = 'E'

def exponent? (text : List Char) : Option Int := do
  let (sign, body) := cutSign text
  let digits ← ungroup? Char.isDigit body
  let n : Int := Numeral.value digits
  return if sign = some '-' then -n else n

def isFloat (text : List Char) : Bool :=
  let body := (cutSign text).2
  if body = ['i', 'n', 'f'] || body = ['n', 'a', 'n'] then true
  else
    let mantissa := body.takeWhile (fun c => !isExponentMark c)
    let exponent := match body.dropWhile (fun c => !isExponentMark c) with
      | [] => some 0
      | _ :: rest => exponent? rest
    let hasExponent := mantissa.length ≠ body.length
    let decimal := match cut? '.' mantissa with
      | none => if hasExponent then (wholeDigits? mantissa).map (·, []) else none
      | some (whole, fraction) => do
        return (← wholeDigits? whole, ← ungroup? Char.isDigit fraction)
    match decimal, exponent with
    | some (whole, fraction), some e => isFinite (whole ++ fraction) (e - fraction.length)
    | _, _ => false

/-- The number that exactly `count` digits spell, and the rest. -/
def fixedDigits? (count : Nat) (text : List Char) : Option (Nat × List Char) :=
  let digits := text.take count
  if digits.length = count && digits.all Char.isDigit then
    some (Numeral.value digits, text.drop count)
  else none

def mark? (mark : Char) : List Char → Option (List Char)
  | c :: rest => if c = mark then some rest else none
  | [] => none

def isLeapYear (year : Nat) : Bool := year % 4 = 0 && (year % 100 ≠ 0 || year % 400 = 0)

def daysInMonth (year month : Nat) : Nat :=
  if month = 2 then if isLeapYear year then 29 else 28
  else if month ∈ [4, 6, 9, 11] then 30
  else 31

def date? (text : List Char) : Option (List Char) := do
  let (year, rest) ← fixedDigits? 4 text
  let rest ← mark? '-' rest
  let (month, rest) ← fixedDigits? 2 rest
  let rest ← mark? '-' rest
  let (day, rest) ← fixedDigits? 2 rest
  if 1 ≤ month && month ≤ 12 && 1 ≤ day && day ≤ daysInMonth year month then some rest else none

/-- The rest after the seconds of a time, which may be left out. -/
def seconds? (text : List Char) : Option (List Char) :=
  match text with
  | ':' :: rest => do
    let (second, rest) ← fixedDigits? 2 rest
    if 60 < second then none
    else
      match rest with
      | '.' :: rest =>
        if (rest.takeWhile Char.isDigit).isEmpty then none
        else some (rest.dropWhile Char.isDigit)
      | _ => some rest
  | _ => some text

def time? (text : List Char) : Option (List Char) := do
  let (hour, rest) ← fixedDigits? 2 text
  let rest ← mark? ':' rest
  let (minute, rest) ← fixedDigits? 2 rest
  if hour ≤ 23 && minute ≤ 59 then seconds? rest else none

/-- Whether a text is an offset from universal time. -/
def isOffset (text : List Char) : Bool :=
  match text with
  | [c] => c = 'Z' || c = 'z'
  | sign :: rest =>
    (sign = '+' || sign = '-') &&
      match (do
        let (hour, rest) ← fixedDigits? 2 rest
        let rest ← mark? ':' rest
        let (minute, rest) ← fixedDigits? 2 rest
        return (hour, minute, rest) : Option (Nat × Nat × List Char)) with
      | some (hour, minute, []) => hour ≤ 23 && minute ≤ 59
      | _ => false
  | [] => false

def isDateTime (text : List Char) : Bool :=
  match date? text with
  | some [] => true
  | some (c :: rest) =>
    (c = 'T' || c = 't' || c = ' ') &&
      match time? rest with
      | some [] => true
      | some rest => isOffset rest
      | none => false
  | none => time? text = some []

def scalarOf? (word : List Char) : Option Value :=
  if word = ['t', 'r', 'u', 'e'] then some (.boolean true)
  else if word = ['f', 'a', 'l', 's', 'e'] then some (.boolean false)
  else
    match integer? word with
    | some n => some (.integer n)
    | none =>
      if isFloat word then some .float
      else if isDateTime word then some .dateTime
      else none

def isWordChar (c : Char) : Bool := c.isAlphanum || c ∈ ['_', '-', '+', '.', ':']

/-- A word, and the rest.  A date and a time may have a blank between them. -/
def takeWord (text : List Char) : List Char × List Char :=
  let word := text.takeWhile isWordChar
  let rest := text.dropWhile isWordChar
  match date? word, rest with
  | some [], ' ' :: c :: rest =>
    if c.isDigit then
      (word ++ ' ' :: (c :: rest).takeWhile isWordChar, (c :: rest).dropWhile isWordChar)
    else (word, ' ' :: c :: rest)
  | _, _ => (word, rest)

def scalar (text : List Char) : Option (Value × List Char) :=
  let (word, rest) := takeWord text
  (scalarOf? word).map (·, rest)

end AppRoutes.Toml
