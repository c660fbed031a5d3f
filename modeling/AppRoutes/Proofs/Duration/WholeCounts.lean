/-
Whole numbers of hours, minutes, seconds and milliseconds.

Up to `2 ^ 53` seconds such a number and its product with the unit are numbers of the format,
so nothing is rounded.  A thousandth is not: dividing by 1000 is off by at most half of the
last place, which for four million seconds is far less than a nanosecond, so rounding to
nanoseconds makes up for it.
-/
import AppRoutes.Proofs.Duration.Reading
import AppRoutes.Proofs.Duration.Rounding

namespace AppRoutes.Duration

open Text

def TimeUnit.nanos : TimeUnit → Nat
  | .hour => 3600 * nanosPerSecond
  | .minute => 60 * nanosPerSecond
  | .second => nanosPerSecond
  | .millisecond => 1000000

/-- A numeral and a unit. -/
structure Count where
  digits : List Char
  isNumeral : Numeral.isNumeral digits = true
  unit : TimeUnit

namespace Count

def value (count : Count) : Nat := Numeral.value count.digits

def nanos (count : Count) : Nat := count.value * count.unit.nanos

def text (count : Count) : List Char := count.digits ++ count.unit.name.toList

/-- A count that is read exactly. -/
def IsSmall (count : Count) : Prop :=
  match count.unit with
  | .hour => count.value * 3600 ≤ 1 <<< 53
  | .minute => count.value * 60 ≤ 1 <<< 53
  | .second => count.value ≤ 1 <<< 53
  | .millisecond => count.value ≤ 4000000000

instance (count : Count) : Decidable count.IsSmall :=
  match count with
  | ⟨_, _, .hour⟩ | ⟨_, _, .minute⟩ | ⟨_, _, .second⟩ | ⟨_, _, .millisecond⟩ =>
    Nat.decLe _ _

def segment (count : Count) : Segment := ⟨count.digits, count.unit.name.toList⟩

theorem isWellFormed_segment (count : Count) : count.segment.IsWellFormed :=
  ⟨.whole count.isNumeral, count.unit, rfl⟩

theorem begins_segment (count : Count) : BeginsWithDigit count.segment.number := by
  obtain ⟨hne, hdigits⟩ := Numeral.isNumeral_iff.mp count.isNumeral
  obtain ⟨c, rest, hcons⟩ := List.exists_cons_of_ne_nil hne
  exact ⟨c, by simp [segment, hcons], hdigits c (hcons ▸ List.mem_cons_self)⟩

theorem nanos_segment_eq (count : Count) :
    count.segment.nanos = nanosOfUlps (count.unit.scale (Decimal.toUlps ⟨count.value, 0⟩)) :=
  nanos_of_unit (ofText?_whole count.isNumeral) rfl

end Count

theorem scale_millisecond_excessBits {n : Nat} (h : n ≤ 4000000000) :
    excessBits (n * ulpsPerOne) 1000 ≤ 1043 := by
  have hpower : 1 <<< (53 + 1043) = 4194304 * ulpsPerOne := one_shiftLeft_add 22 1074
  refine excessBits_le ?_
  rw [hpower, Nat.div_lt_iff_lt_mul (by decide), Nat.mul_right_comm,
    Nat.mul_lt_mul_right ulpsPerOne_pos]
  omega

/-- A thousandth of a whole number of milliseconds is near enough to it. -/
theorem nanosOfUlps_millisecond {n : Nat} (h : n ≤ 4000000000) :
    nanosOfUlps (roundToFormat (n * ulpsPerOne) 1000) = n * 1000000 := by
  have hclose := @dist_roundToFormat_le (n * ulpsPerOne) 1000 (by decide)
  have hplace := one_shiftLeft_le (scale_millisecond_excessBits h)
  have hulps : ulpsPerOne = 2147483648 * 1 <<< 1043 := one_shiftLeft_add 31 1043
  have hpos := one_shiftLeft_pos 1043
  refine roundQuotient_eq_of_dist_lt ?_
  have hscale : Nat.dist (n * 1000000 * ulpsPerOne)
      (roundToFormat (n * ulpsPerOne) 1000 * nanosPerSecond) =
        Nat.dist (roundToFormat (n * ulpsPerOne) 1000 * 1000) (n * ulpsPerOne) * 1000000 := by
    rw [← Nat.dist_mul_right, Nat.dist_comm, Nat.mul_assoc _ 1000 1000000,
      Nat.mul_right_comm n 1000000]
    rfl
  rw [hscale]
  generalize Nat.dist (roundToFormat (n * ulpsPerOne) 1000 * 1000) (n * ulpsPerOne) = error
    at hclose ⊢
  generalize 1 <<< excessBits (n * ulpsPerOne) 1000 = place at hclose hplace
  rw [hulps]
  generalize 1 <<< 1043 = power at hplace hpos ⊢
  omega

/-- A small count is read without an error. -/
theorem Count.nanos_segment {count : Count} (h : count.IsSmall) :
    count.segment.nanos = count.nanos := by
  have hexact : ∀ {n}, n ≤ 1 <<< 53 → roundToFormat (n * ulpsPerOne) 1 = n * ulpsPerOne :=
    fun hn => by rw [roundToFormat_mul_ulpsPerOne, roundToFormat_of_isShort (isShort_of_le hn)]
  have hproduct : ∀ k, 0 < k → count.value * k ≤ 1 <<< 53 →
      roundToFormat (Decimal.toUlps ⟨count.value, 0⟩ * k) 1 = count.value * k * ulpsPerOne := by
    intro k hk hle
    have hvalue : count.value ≤ 1 <<< 53 := Nat.le_trans (Nat.le_mul_of_pos_right _ hk) hle
    rw [toUlps_whole, roundToFormat_of_isShort (isShort_of_le hvalue), Nat.mul_right_comm,
      hexact hle]
  rw [nanos_segment_eq]
  unfold IsSmall at h
  unfold nanos
  cases hunit : count.unit with
  | hour =>
    rw [hunit] at h
    rw [TimeUnit.scale, hproduct 3600 (by decide) h, nanosOfUlps_mul_ulpsPerOne, Nat.mul_assoc]
    rfl
  | minute =>
    rw [hunit] at h
    rw [TimeUnit.scale, hproduct 60 (by decide) h, nanosOfUlps_mul_ulpsPerOne, Nat.mul_assoc]
    rfl
  | second =>
    rw [hunit] at h
    rw [TimeUnit.scale, toUlps_whole, roundToFormat_of_isShort (isShort_of_le h),
      nanosOfUlps_mul_ulpsPerOne]
    rfl
  | millisecond =>
    rw [hunit] at h
    have hshort : count.value ≤ 1 <<< 53 := Nat.le_trans h (by decide)
    rw [TimeUnit.scale, toUlps_whole, roundToFormat_of_isShort (isShort_of_le hshort),
      nanosOfUlps_millisecond h]
    rfl

/-! ## Counts in a row -/

def countsText (counts : List Count) : List Char := counts.flatMap Count.text

/-- The nanoseconds of counts taken together. -/
def totalNanos : List Count → Nat
  | [] => 0
  | count :: counts => count.nanos + totalNanos counts

theorem rowText_map_segment (counts : List Count) :
    rowText (counts.map Count.segment) = countsText counts := by
  rw [rowText, List.flatMap_map]
  rfl

theorem isRow_map_segment {counts : List Count} (h : counts ≠ []) :
    IsRow (counts.map Count.segment) where
  nonempty := by simp [h]
  wellFormed := by
    intro segment hmem
    obtain ⟨count, -, rfl⟩ := List.mem_map.mp hmem
    exact count.isWellFormed_segment
  begins := by
    intro segment hmem
    obtain ⟨count, -, rfl⟩ := List.mem_map.mp (List.mem_of_mem_tail hmem)
    exact count.begins_segment

theorem rowNanos_map_segment {counts : List Count} (h : ∀ count ∈ counts, count.IsSmall) :
    rowNanos (counts.map Count.segment) = totalNanos counts := by
  induction counts with
  | nil => rfl
  | cons count counts ih =>
    obtain ⟨hcount, hcounts⟩ := List.forall_mem_cons.mp h
    rw [List.map_cons, rowNanos, totalNanos, Count.nanos_segment hcount, ih hcounts]

theorem dvd_totalNanos {k : Nat} {counts : List Count}
    (h : ∀ count ∈ counts, k ∣ count.unit.nanos) : k ∣ totalNanos counts := by
  induction counts with
  | nil => exact Nat.dvd_zero k
  | cons count counts ih =>
    obtain ⟨hcount, hcounts⟩ := List.forall_mem_cons.mp h
    exact Nat.dvd_add (Nat.dvd_mul_left_of_dvd hcount _) (ih hcounts)

theorem TimeUnit.nanosPerSecond_dvd_nanos {unit : TimeUnit} (h : unit ≠ .millisecond) :
    nanosPerSecond ∣ unit.nanos := by
  cases unit with
  | millisecond => exact absurd rfl h
  | hour | minute | second => decide

theorem TimeUnit.million_dvd_nanos (unit : TimeUnit) : 1000000 ∣ unit.nanos := by
  cases unit <;> decide

/-- Small whole numbers of hours, minutes, seconds and milliseconds are read as exactly their
sum. -/
theorem parse_counts {counts : List Count} (hne : counts ≠ [])
    (hsmall : ∀ count ∈ counts, count.IsSmall)
    (hfits : totalNanos counts / nanosPerSecond < UInt64.size) :
    ∃ d, parse (String.ofList (countsText counts)) = .ok d ∧ d.nanos = totalNanos counts ∧
      ((∀ count ∈ counts, count.unit ≠ .millisecond) → d.subsecondNanos = 0) ∧
      1000000 ∣ d.subsecondNanos := by
  have hlt : totalNanos counts < UInt64.size * nanosPerSecond :=
    (Nat.div_lt_iff_lt_mul (by decide)).mp hfits
  refine ⟨⟨totalNanos counts, hlt⟩, ?_, rfl, ?_, ?_⟩
  · rw [← rowText_map_segment, parse_rowText (isRow_map_segment hne), orOutOfRange_eq_ok]
    exact (rowNanos_map_segment hsmall).symm
  · intro hunits
    refine Nat.mod_eq_zero_of_dvd (dvd_totalNanos fun count hcount => ?_)
    exact TimeUnit.nanosPerSecond_dvd_nanos (hunits count hcount)
  · refine (Nat.dvd_mod_iff (by decide)).mpr (dvd_totalNanos fun count _ => ?_)
    exact TimeUnit.million_dvd_nanos count.unit

theorem parse_counts_mixed :
    ∃ d, parse "2h05m15s1001ms" = .ok d ∧ d.nanos = 7516001000000 ∧ 1000000 ∣ d.subsecondNanos := by
  obtain ⟨d, hparse, hnanos, -, hdvd⟩ := @parse_counts
    [⟨"2".toList, by decide, .hour⟩, ⟨"05".toList, by decide, .minute⟩,
      ⟨"15".toList, by decide, .second⟩, ⟨"1001".toList, by decide, .millisecond⟩]
    (by decide) (by decide) (by decide)
  exact ⟨d, hparse, hnanos, hdvd⟩

end AppRoutes.Duration
