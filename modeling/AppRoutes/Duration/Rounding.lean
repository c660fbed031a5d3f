/-
Rounding to binary floating point with 53 significant bits.

Every finite number of the format is a whole multiple of the smallest one, `2 ^ -1074`.  A
number is kept as that multiple, so it is a natural number and every operation is exact
integer arithmetic with one rounding at its end.  There is no largest number here; the values
near the format's limit are far beyond any duration.
-/
namespace AppRoutes.Duration

/-- How many of the smallest number make one. -/
def ulpsPerOne : Nat := 1 <<< 1074

/-- The quotient rounded to the nearest whole number, a half to the even neighbour. -/
def roundQuotient (num den : Nat) : Nat :=
  let quotient := num / den
  let remainder := num % den
  if 2 * remainder < den then quotient
  else if den < 2 * remainder then quotient + 1
  else if quotient % 2 = 0 then quotient
  else quotient + 1

/-- How many of the low bits of the quotient lie below 53 significant bits. -/
def excessBits (num den : Nat) : Nat := Nat.log2 (num / den) + 1 - 53

/-- The quotient rounded to the nearest number of the format. -/
def roundToFormat (num den : Nat) : Nat :=
  let scale := 1 <<< excessBits num den
  roundQuotient num (den * scale) * scale

/-- A quotient without remainder is its own rounding. -/
theorem roundQuotient_mul_self (n : Nat) {den : Nat} (h : 0 < den) :
    roundQuotient (n * den) den = n := by
  simp [roundQuotient, Nat.mul_div_cancel n h, h]

end AppRoutes.Duration
