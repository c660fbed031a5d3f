/-
Whole numbers of seconds with and without a unit.

A bare number is read as it stands, up to the largest machine word.  With its unit the same
number is rounded to the format first, so the two agree exactly if the number is a short one:
up to `2 ^ 53` always, above it only if enough of its low bits are zero.
-/
import AppRoutes.Proofs.Duration.WholeCounts

namespace AppRoutes.Duration

open Text

/-- As many seconds as a machine word says. -/
def ofWord (n : UInt64) : Duration where
  nanos := n.toNat * nanosPerSecond
  nanos_lt := Nat.mul_lt_mul_of_pos_right n.toNat_lt (by decide)

theorem seconds_ofWord (n : UInt64) : (ofWord n).seconds = n.toNat :=
  Nat.mul_div_cancel _ (by decide)

theorem subsecondNanos_ofWord (n : UInt64) : (ofWord n).subsecondNanos = 0 :=
  Nat.mul_mod_left _ _

theorem eq_ofWord {n : UInt64} {d : Duration} (hseconds : d.seconds = n.toNat)
    (hnanos : d.subsecondNanos = 0) : d = ofWord n := by
  have hsplit : d.seconds * nanosPerSecond + d.subsecondNanos = d.nanos := Nat.div_add_mod' _ _
  rw [hseconds, hnanos, Nat.add_zero] at hsplit
  exact ext_nanos hsplit.symm

theorem word_ofWord (n : UInt64) : UInt64.ofNat (ofWord n).seconds = n := by
  rw [seconds_ofWord, UInt64.ofNat_toNat]

/-- A number of seconds without a unit. -/
def bareText (n : UInt64) : String := String.ofList (Numeral.digits n.toNat)

/-- A number of seconds with its unit. -/
def unitText (n : UInt64) : String := bareText n ++ TimeUnit.second.name

theorem parse_bareText (n : UInt64) : parse (bareText n) = .ok (ofWord n) := by
  have htrim : trim (Numeral.digits n.toNat) = Numeral.digits n.toNat :=
    trim_of_forall_not_isBlank fun c hc =>
      isBlank_of_isNumberChar (isNumberChar_of_isDigit (Numeral.isDigit_of_mem_digits hc))
  have hbelow : Numeral.below? UInt64.size (Numeral.digits n.toNat) = some n.toNat :=
    Numeral.below?_eq_some_iff.mpr
      ⟨_, .inl rfl, Numeral.isNumeral_digits _, Numeral.value_digits _, n.toNat_lt⟩
  obtain ⟨d, hd, hnanos⟩ := parseTrimmed_of_below? hbelow
  rw [parse, bareText, String.toList_ofList, htrim, hd]
  exact congrArg Except.ok (ext_nanos hnanos)

def secondsCount (n : UInt64) : Count :=
  ⟨Numeral.digits n.toNat, Numeral.isNumeral_digits n.toNat, .second⟩

theorem unitText_eq (n : UInt64) :
    unitText n = String.ofList (rowText [(secondsCount n).segment]) := by
  have htext : rowText [(secondsCount n).segment] = (secondsCount n).text := List.append_nil _
  rw [htext, Count.text, String.ofList_append, String.ofList_toList]
  rfl

theorem rowNanos_secondsCount (n : UInt64) :
    rowNanos [(secondsCount n).segment] = roundToFormat n.toNat 1 * nanosPerSecond := by
  have hvalue : (secondsCount n).value = n.toNat := Numeral.value_digits _
  rw [rowNanos, rowNanos, Nat.add_zero, Count.nanos_segment_eq, hvalue, toUlps_whole]
  exact nanosOfUlps_mul_ulpsPerOne _

/-- With its unit a number is read after it has been rounded. -/
theorem parse_unitText (n : UInt64) :
    parse (unitText n) = orOutOfRange (unitText n) (ofSeconds? (roundToFormat n.toNat 1)) := by
  have hrow : IsRow [(secondsCount n).segment] :=
    isRow_map_segment (List.cons_ne_nil (secondsCount n) [])
  rw [unitText_eq, parse_rowText hrow, rowNanos_secondsCount, ofSeconds?]

theorem parse_unitText_eq_ok {n : UInt64} {d : Duration} :
    parse (unitText n) = .ok d ↔ d.nanos = roundToFormat n.toNat 1 * nanosPerSecond := by
  rw [parse_unitText, ofSeconds?, orOutOfRange_eq_ok]

/-- The unit makes no difference exactly to short numbers. -/
theorem parse_unitText_eq_bareText {n : UInt64} :
    parse (unitText n) = parse (bareText n) ↔ IsShort n.toNat := by
  rw [parse_bareText, parse_unitText_eq_ok, ← roundToFormat_eq_self_iff, eq_comm]
  exact Nat.mul_left_inj (by decide)

end AppRoutes.Duration
