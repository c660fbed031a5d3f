/-
How far rounding is off.

The numbers of the format are the short ones: fewer than 54 significant bits, anywhere.
Rounding yields the nearest of them, so it leaves a short number alone, and it is off by at
most half of the last place it keeps.
-/
import AppRoutes.Duration.Literal
import Mathlib.Data.Nat.Dist

namespace AppRoutes.Duration

theorem roundQuotient_cases (num den : Nat) :
    roundQuotient num den = num / den ∧ 2 * (num % den) ≤ den ∨
      roundQuotient num den = num / den + 1 ∧ den ≤ 2 * (num % den) := by
  simp only [roundQuotient]
  split
  · exact .inl ⟨rfl, by omega⟩
  · split
    · exact .inr ⟨rfl, by omega⟩
    · split
      · exact .inl ⟨rfl, by omega⟩
      · exact .inr ⟨rfl, by omega⟩

/-- A rounded quotient is off by at most one half. -/
theorem dist_roundQuotient_le (num : Nat) {den : Nat} (h : 0 < den) :
    2 * Nat.dist (roundQuotient num den * den) num ≤ den := by
  have hdiv := Nat.div_add_mod' num den
  have hmod := Nat.mod_lt num h
  unfold Nat.dist
  rcases roundQuotient_cases num den with ⟨hround, hhalf⟩ | ⟨hround, hhalf⟩
  · rw [hround]
    omega
  · rw [hround, Nat.succ_mul (num / den)]
    omega

/-- No whole number is nearer to a quotient than its rounding. -/
theorem roundQuotient_nearest (num k : Nat) {den : Nat} (h : 0 < den) :
    Nat.dist (roundQuotient num den * den) num ≤ Nat.dist (k * den) num := by
  have hhalf := dist_roundQuotient_le num h
  unfold Nat.dist at hhalf ⊢
  rcases Nat.lt_trichotomy k (roundQuotient num den) with hlt | rfl | hlt
  · have hstep := Nat.mul_le_mul_right den (Nat.succ_le_of_lt hlt)
    rw [Nat.succ_mul] at hstep
    omega
  · exact Nat.le_refl _
  · have hstep := Nat.mul_le_mul_right den (Nat.succ_le_of_lt hlt)
    rw [Nat.succ_mul] at hstep
    omega

/-- A whole number less than one half away is the rounding. -/
theorem roundQuotient_eq_of_dist_lt {num den k : Nat} (h : 2 * Nat.dist (k * den) num < den) :
    roundQuotient num den = k := by
  have hpos : 0 < den := Nat.zero_lt_of_lt h
  have hhalf := dist_roundQuotient_le num hpos
  unfold Nat.dist at h hhalf
  have hupper : roundQuotient num den * den < (k + 1) * den := by
    rw [Nat.succ_mul]
    omega
  have hlower : k * den < (roundQuotient num den + 1) * den := by
    rw [Nat.succ_mul]
    omega
  have hle := Nat.lt_of_mul_lt_mul_right hupper
  have hge := Nat.lt_of_mul_lt_mul_right hlower
  omega

theorem roundQuotient_mul_mul (num den : Nat) {k : Nat} (h : 0 < k) :
    roundQuotient (num * k) (den * k) = roundQuotient num den := by
  have hhalf : ∀ a b : Nat, 2 * (a * k) < b * k ↔ 2 * a < b := fun a b => by
    rw [← Nat.mul_assoc, Nat.mul_lt_mul_right h]
  have hhalf' : ∀ a b : Nat, b * k < 2 * (a * k) ↔ b < 2 * a := fun a b => by
    rw [← Nat.mul_assoc, Nat.mul_lt_mul_right h]
  simp only [roundQuotient, Nat.mul_div_mul_right _ _ h, Nat.mul_mod_mul_right, hhalf, hhalf']

theorem shiftLeft_eq_mul (m e : Nat) : m <<< e = m * 1 <<< e := by
  rw [Nat.one_shiftLeft, Nat.shiftLeft_eq]

theorem one_shiftLeft_pos (e : Nat) : 0 < 1 <<< e := by
  rw [Nat.one_shiftLeft]
  exact Nat.two_pow_pos e

theorem one_shiftLeft_add (a b : Nat) : 1 <<< (a + b) = 1 <<< a * 1 <<< b := by
  rw [Nat.shiftLeft_add, shiftLeft_eq_mul]

theorem one_shiftLeft_le {a b : Nat} (h : a ≤ b) : 1 <<< a ≤ 1 <<< b := by
  rw [Nat.one_shiftLeft, Nat.one_shiftLeft]
  exact Nat.pow_le_pow_right (by decide) h

theorem lt_one_shiftLeft_log2 (n : Nat) : n < 1 <<< (n.log2 + 1) := by
  rw [Nat.one_shiftLeft]
  exact Nat.lt_log2_self

theorem one_shiftLeft_log2_le {n : Nat} (h : n ≠ 0) : 1 <<< n.log2 ≤ n := by
  rw [Nat.one_shiftLeft]
  exact Nat.log2_self_le h

/-- Whether a number has at most 53 significant bits. -/
def IsShort (n : Nat) : Prop := ∃ m e, m < 1 <<< 53 ∧ n = m <<< e

theorem isShort_of_lt {n : Nat} (h : n < 1 <<< 53) : IsShort n := ⟨n, 0, h, rfl⟩

theorem IsShort.shiftLeft {n : Nat} (h : IsShort n) (j : Nat) : IsShort (n <<< j) := by
  obtain ⟨m, e, hm, rfl⟩ := h
  exact ⟨m, e + j, hm, (Nat.shiftLeft_add m e j).symm⟩

theorem isShort_of_le {n : Nat} (h : n ≤ 1 <<< 53) : IsShort n := by
  rcases Nat.lt_or_eq_of_le h with h | rfl
  · exact isShort_of_lt h
  · exact ⟨1, 53, by decide, rfl⟩

/-- What the low bits are counted for: above them there are at most 53. -/
theorem div_lt_of_excessBits (num den : Nat) :
    num / den < 1 <<< 53 * 1 <<< excessBits num den := by
  rw [← one_shiftLeft_add]
  refine Nat.lt_of_lt_of_le (lt_one_shiftLeft_log2 _) (one_shiftLeft_le ?_)
  unfold excessBits
  omega

/-- If there are low bits, there are exactly 53 above them. -/
theorem le_div_of_excessBits {num den : Nat} (h : 0 < excessBits num den) :
    1 <<< 52 * 1 <<< excessBits num den ≤ num / den := by
  have hlog : 52 + excessBits num den = (num / den).log2 := by
    unfold excessBits at h ⊢
    omega
  have hne : num / den ≠ 0 := by
    intro hzero
    rw [hzero, Nat.log2_zero] at hlog
    omega
  rw [← one_shiftLeft_add, hlog]
  exact one_shiftLeft_log2_le hne

theorem excessBits_le {num den b : Nat} (h : num / den < 1 <<< (53 + b)) :
    excessBits num den ≤ b := by
  refine Nat.le_of_not_lt fun hlt => ?_
  have hlow := le_div_of_excessBits (Nat.zero_lt_of_lt hlt)
  rw [← one_shiftLeft_add] at hlow
  have hmono : 1 <<< (53 + b) ≤ 1 <<< (52 + excessBits num den) := one_shiftLeft_le (by omega)
  omega

/-- Rounding to the format is off by at most half of the last place it keeps. -/
theorem dist_roundToFormat_le (num : Nat) {den : Nat} (h : 0 < den) :
    2 * Nat.dist (roundToFormat num den * den) num ≤ den * 1 <<< excessBits num den := by
  have hpos : 0 < den * 1 <<< excessBits num den := Nat.mul_pos h (one_shiftLeft_pos _)
  have hhalf := dist_roundQuotient_le num hpos
  rwa [roundToFormat, Nat.mul_assoc, Nat.mul_comm _ den]

theorem isShort_roundToFormat (num den : Nat) : IsShort (roundToFormat num den) := by
  have hle : roundQuotient num (den * 1 <<< excessBits num den) ≤ 1 <<< 53 := by
    have hquotient : num / (den * 1 <<< excessBits num den) < 1 <<< 53 := by
      rw [← Nat.div_div_eq_div_mul, Nat.div_lt_iff_lt_mul (one_shiftLeft_pos _)]
      exact div_lt_of_excessBits num den
    rcases roundQuotient_cases num (den * 1 <<< excessBits num den) with ⟨hround, -⟩ | ⟨hround, -⟩
    · rw [hround]
      exact Nat.le_of_lt hquotient
    · rw [hround]
      exact hquotient
  have hshort := (isShort_of_le hle).shiftLeft (excessBits num den)
  rwa [shiftLeft_eq_mul] at hshort

/-- No short number is nearer to a quotient than its rounding. -/
theorem roundToFormat_nearest (num : Nat) {den m : Nat} (h : 0 < den) (hm : IsShort m) :
    Nat.dist (roundToFormat num den * den) num ≤ Nat.dist (m * den) num := by
  have hpos : 0 < den * 1 <<< excessBits num den := Nat.mul_pos h (one_shiftLeft_pos _)
  have hnearest : ∀ k, Nat.dist (roundToFormat num den * den) num ≤
      Nat.dist (k * 1 <<< excessBits num den * den) num := by
    intro k
    have hround := roundQuotient_nearest num k hpos
    rwa [roundToFormat, Nat.mul_assoc, Nat.mul_comm _ den, Nat.mul_assoc, Nat.mul_comm _ den]
  obtain ⟨a, e, ha, rfl⟩ := hm
  by_cases he : excessBits num den ≤ e
  · -- The number ends in as many zeros as rounding leaves.
    obtain ⟨j, rfl⟩ := Nat.exists_eq_add_of_le' he
    have hnumber : a <<< (j + excessBits num den) = a <<< j * 1 <<< excessBits num den := by
      rw [Nat.shiftLeft_add, shiftLeft_eq_mul]
    rw [hnumber]
    exact hnearest (a <<< j)
  · -- A short number with fewer zeros is below every number of the quotient's length.
    have hquotient := le_div_of_excessBits (Nat.zero_lt_of_lt (Nat.lt_of_not_le he))
    have hlow : a <<< e ≤ 1 <<< 52 * 1 <<< excessBits num den := by
      have hmono : 1 <<< (53 + e) ≤ 1 <<< (52 + excessBits num den) := one_shiftLeft_le (by omega)
      rw [one_shiftLeft_add, one_shiftLeft_add] at hmono
      rw [shiftLeft_eq_mul]
      exact Nat.le_trans (Nat.mul_le_mul_right _ (Nat.le_of_lt ha)) hmono
    refine Nat.le_trans (hnearest (1 <<< 52)) ?_
    have hbelow := (Nat.le_div_iff_mul_le h).mp hquotient
    have hbetween := Nat.mul_le_mul_right den hlow
    unfold Nat.dist
    omega

theorem roundToFormat_of_isShort {n : Nat} (h : IsShort n) : roundToFormat n 1 = n := by
  have hnearest := roundToFormat_nearest n Nat.one_pos h
  rw [Nat.mul_one, Nat.mul_one, Nat.dist_self] at hnearest
  exact Nat.eq_of_dist_eq_zero (Nat.le_zero.mp hnearest)

theorem roundToFormat_eq_self_iff {n : Nat} : roundToFormat n 1 = n ↔ IsShort n :=
  ⟨fun h => h ▸ isShort_roundToFormat n 1, roundToFormat_of_isShort⟩

theorem log2_shiftLeft {n : Nat} (h : n ≠ 0) (j : Nat) : (n <<< j).log2 = n.log2 + j := by
  have hpos := one_shiftLeft_pos j
  have hne : n <<< j ≠ 0 := by
    rw [shiftLeft_eq_mul]
    exact Nat.mul_ne_zero h (Nat.ne_of_gt hpos)
  have hlow := Nat.mul_le_mul_right (1 <<< j) (one_shiftLeft_log2_le h)
  have hhigh := (Nat.mul_lt_mul_right hpos).mpr (lt_one_shiftLeft_log2 n)
  rw [← one_shiftLeft_add, ← shiftLeft_eq_mul, Nat.one_shiftLeft] at hlow hhigh
  rw [Nat.log2_eq_iff hne, Nat.add_right_comm]
  exact ⟨hlow, hhigh⟩

/-- Rounding does not depend on where the binary point is. -/
theorem roundToFormat_shiftLeft (n j : Nat) :
    roundToFormat (n <<< j) 1 = roundToFormat n 1 <<< j := by
  by_cases hshort : IsShort n
  · rw [roundToFormat_of_isShort hshort, roundToFormat_of_isShort (hshort.shiftLeft j)]
  have hlong : 1 <<< 53 ≤ n := Nat.le_of_not_lt fun hlt => hshort (isShort_of_lt hlt)
  have hne : n ≠ 0 := by
    rintro rfl
    exact absurd hlong (by decide)
  have hbits : 53 < n.log2 + 1 := by
    have hlog := lt_one_shiftLeft_log2 n
    refine Nat.lt_of_not_le fun hle => ?_
    have hmono := one_shiftLeft_le hle
    omega
  have hexcess : excessBits (n <<< j) 1 = excessBits n 1 + j := by
    simp only [excessBits, Nat.div_one, log2_shiftLeft hne]
    omega
  simp only [roundToFormat, hexcess, Nat.one_mul, one_shiftLeft_add]
  rw [shiftLeft_eq_mul n, roundQuotient_mul_mul _ _ (one_shiftLeft_pos j),
    shiftLeft_eq_mul (_ * _), Nat.mul_assoc]

theorem ulpsPerOne_pos : 0 < ulpsPerOne := one_shiftLeft_pos 1074

theorem roundToFormat_mul_ulpsPerOne (n : Nat) :
    roundToFormat (n * ulpsPerOne) 1 = roundToFormat n 1 * ulpsPerOne := by
  have hshift := roundToFormat_shiftLeft n 1074
  rwa [shiftLeft_eq_mul n, shiftLeft_eq_mul (roundToFormat n 1)] at hshift

theorem toUlps_whole (n : Nat) : Decimal.toUlps ⟨n, 0⟩ = roundToFormat n 1 * ulpsPerOne :=
  roundToFormat_mul_ulpsPerOne n

theorem nanosOfUlps_mul_ulpsPerOne (n : Nat) :
    nanosOfUlps (n * ulpsPerOne) = n * nanosPerSecond := by
  rw [nanosOfUlps, Nat.mul_right_comm, roundQuotient_mul_self _ ulpsPerOne_pos]

end AppRoutes.Duration
