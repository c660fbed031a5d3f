/-
Durations as they are written.

A whole number is a number of seconds.  Otherwise a duration is a row of segments, each a
decimal number and a unit: the number is read as a floating-point number, scaled by the unit
and rounded to whole nanoseconds, and the segments are added up.  Faults are reported from
left to right.
-/
import AppRoutes.Text.Blank
import AppRoutes.Text.Numeral
import AppRoutes.Duration.Basic
import AppRoutes.Duration.Rounding

namespace AppRoutes.Duration
open Text

inductive TimeUnit where
  | hour
  | minute
  | second
  | millisecond
  deriving DecidableEq

def TimeUnit.name : TimeUnit → String
  | .hour => "h"
  | .minute => "m"
  | .second => "s"
  | .millisecond => "ms"

def TimeUnit.ofName? (name : String) : Option TimeUnit :=
  if name = "h" then some .hour
  else if name = "m" then some .minute
  else if name = "s" then some .second
  else if name = "ms" then some .millisecond
  else none

/-- Why a text is no duration; `text` is the whole of it. -/
inductive Invalid where
  | empty
  | noNumber (text : String)
  | badNumber (number : String)
  | missingUnit (text : String)
  | unknownUnit (unit text : String)
  | outOfRange (text : String)
  deriving DecidableEq

def Invalid.message : Invalid → String
  | .empty => "Empty duration string"
  | .noNumber text => "Invalid duration: '" ++ text ++ "'"
  | .badNumber number => "Invalid number in duration: '" ++ number ++ "'"
  | .missingUnit text => "Missing unit in duration: '" ++ text ++ "'"
  | .unknownUnit unit text => "Unknown duration unit '" ++ unit ++ "' in '" ++ text ++ "'"
  | .outOfRange text => "Duration out of range: '" ++ text ++ "'"

/-- A decimal number, `digits` over ten to the power of `places`. -/
structure Decimal where
  digits : Nat
  places : Nat
  deriving DecidableEq

/-- Digits with at most one point among, before or after them. -/
def Decimal.ofText? (text : List Char) : Option Decimal :=
  let whole := text.takeWhile Char.isDigit
  match text.dropWhile Char.isDigit with
  | [] => if whole.isEmpty then none else some ⟨Numeral.value whole, 0⟩
  | point :: fraction =>
    let digits := whole ++ fraction
    if point = '.' && Numeral.isNumeral digits then
      some ⟨Numeral.value digits, fraction.length⟩
    else none

def Decimal.toUlps (decimal : Decimal) : Nat :=
  roundToFormat (decimal.digits * ulpsPerOne) (Nat.pow 10 decimal.places)

def TimeUnit.scale (unit : TimeUnit) (ulps : Nat) : Nat :=
  match unit with
  | .hour => roundToFormat (ulps * 3600) 1
  | .minute => roundToFormat (ulps * 60) 1
  | .second => ulps
  | .millisecond => roundToFormat ulps 1000

/-- The whole nanoseconds nearest to a number of seconds. -/
def nanosOfUlps (ulps : Nat) : Nat := roundQuotient (ulps * nanosPerSecond) ulpsPerOne

/-- A number and the unit behind it, as they are written. -/
structure Segment where
  number : List Char
  unit : List Char
  deriving DecidableEq

def isNumberChar (c : Char) : Bool := c.isDigit || c = '.'

/-- Whether a character belongs to a unit, which ends at the next digit. -/
def isUnitChar (c : Char) : Bool := !c.isDigit

theorem dropWhile_length_le {p : Char → Bool} (text : List Char) :
    (text.dropWhile p).length ≤ text.length :=
  (List.dropWhile_sublist p).length_le

/-- What follows the first segment is shorter than the text. -/
theorem rest_length_lt {c : Char} {rest : List Char} :
    (((c :: rest).dropWhile isNumberChar).dropWhile isUnitChar).length < (c :: rest).length := by
  by_cases h : isNumberChar c = true
  · rw [List.dropWhile_cons_of_pos h]
    exact Nat.lt_succ_of_le (Nat.le_trans (dropWhile_length_le _) (dropWhile_length_le _))
  · have hunit : isUnitChar c = true := by
      simp only [isNumberChar, Bool.or_eq_true, not_or, Bool.not_eq_true] at h
      simp [isUnitChar, h.1]
    rw [List.dropWhile_cons_of_neg h, List.dropWhile_cons_of_pos hunit]
    exact Nat.lt_succ_of_le (dropWhile_length_le _)

/-- Cut a text into segments, each the longest number and then the longest unit. -/
def segments (text : List Char) : List Segment :=
  match text with
  | [] => []
  | c :: rest =>
    let tail := (c :: rest).dropWhile isNumberChar
    ⟨(c :: rest).takeWhile isNumberChar, tail.takeWhile isUnitChar⟩ ::
      segments (tail.dropWhile isUnitChar)
termination_by text.length
decreasing_by exact rest_length_lt

/-- The nanoseconds of one segment of `text`. -/
def Segment.read (text : String) (segment : Segment) : Except Invalid Nat :=
  if segment.number.isEmpty then .error (.noNumber text)
  else
    match Decimal.ofText? segment.number with
    | none => .error (.badNumber (String.ofList segment.number))
    | some decimal =>
      if segment.unit.isEmpty then .error (.missingUnit text)
      else
        match TimeUnit.ofName? (String.ofList segment.unit) with
        | none => .error (.unknownUnit (String.ofList segment.unit) text)
        | some unit => .ok (nanosOfUlps (unit.scale decimal.toUlps))

/-- A duration of `text`, which has to be in range. -/
def orOutOfRange (text : String) : Option Duration → Except Invalid Duration
  | some duration => .ok duration
  | none => .error (.outOfRange text)

/-- Add one segment of `text` to what the earlier ones come to. -/
def addSegment (text : String) (total : Duration) (segment : Segment) :
    Except Invalid Duration := do
  let part ← orOutOfRange text (ofNanos? (← segment.read text))
  orOutOfRange text (total.add? part)

def parseTrimmed (text : List Char) : Except Invalid Duration :=
  if text.isEmpty then .error .empty
  else
    match (Numeral.below? UInt64.size text).bind ofSeconds? with
    | some duration => .ok duration
    | none => (segments text).foldlM (addSegment (String.ofList text)) zero

/-- Read a duration; blanks at either end do not count. -/
def parse (text : String) : Except Invalid Duration := parseTrimmed (trim text.toList)

end AppRoutes.Duration
