/-
Durations written one after another.

The text of a row followed by that of another is the text of both rows together, if the second
begins with a digit, and of a row only the sum of its segments counts.  So durations written
in units add up, in either order.
-/
import AppRoutes.Proofs.Duration.Reading

namespace AppRoutes.Duration

open Text

/-- A text without blanks at its ends is read as a duration, and not as a bare number. -/
structure ReadsInUnits (text : String) (d : Duration) : Prop where
  trimmed : trimString text = text
  notWhole : ¬ IsWholeNumber text.toList
  reads : parse text = .ok d

/-- What is read in units is a row of segments, and their nanoseconds are read. -/
theorem readsInUnits_iff {text : String} {d : Duration} :
    ReadsInUnits text d ↔
      ∃ row, IsRow row ∧ text = String.ofList (rowText row) ∧ d.nanos = rowNanos row := by
  constructor
  · intro h
    have htrim : trim text.toList = text.toList := by
      have htext := congrArg String.toList h.trimmed
      rwa [trimString, String.toList_ofList] at htext
    have hreads : parseTrimmed text.toList = .ok d := by
      rw [← h.reads, parse, htrim]
    have hduration : IsDuration text.toList := by
      refine Classical.byContradiction fun hnot => ?_
      obtain ⟨e, he, -⟩ := parseTrimmed_of_not_isDuration hnot
      rw [hreads] at he
      cases he
    obtain ⟨row, hrow, htext⟩ := hduration.resolve_left h.notWhole
    rw [htext, parseTrimmed_rowText hrow, orOutOfRange_eq_ok] at hreads
    refine ⟨row, hrow, ?_, hreads⟩
    rw [← htext, String.ofList_toList]
  · rintro ⟨row, hrow, rfl, hnanos⟩
    refine ⟨?_, ?_, ?_⟩
    · rw [trimString, String.toList_ofList, trim_rowText hrow]
    · rw [String.toList_ofList]
      exact not_isWholeNumber_rowText hrow
    · rw [parse_rowText hrow, orOutOfRange_eq_ok]
      exact hnanos

/-- The second carried over when two durations are added. -/
def carry (a b : Duration) : Nat := (a.subsecondNanos + b.subsecondNanos) / nanosPerSecond

/-- A text is read as a sum, or is out of range if the whole seconds of the sum are. -/
structure ReadsAsSum (text : String) (a b : Duration) : Prop where
  sum : a.seconds + b.seconds + carry a b < UInt64.size →
    ∃ d, parse text = .ok d ∧ d.seconds = a.seconds + b.seconds + carry a b ∧
      d.subsecondNanos = (a.subsecondNanos + b.subsecondNanos) % nanosPerSecond
  outOfRange : UInt64.size ≤ a.seconds + b.seconds + carry a b →
    parse text = .error (.outOfRange text)

theorem seconds_of_add {a b : Duration} {nanos : Nat} (h : nanos = a.nanos + b.nanos) :
    nanos / nanosPerSecond = a.seconds + b.seconds + carry a b ∧
      nanos % nanosPerSecond = (a.subsecondNanos + b.subsecondNanos) % nanosPerSecond := by
  simp only [carry, seconds, subsecondNanos, nanosPerSecond, h]
  omega

/-- A row of as many nanoseconds as two durations is read as their sum. -/
theorem readsAsSum_rowText {row : List Segment} (hrow : IsRow row) {a b : Duration}
    (h : rowNanos row = a.nanos + b.nanos) :
    ReadsAsSum (String.ofList (rowText row)) a b := by
  obtain ⟨hseconds, hnanos⟩ := seconds_of_add h
  have hpos : 0 < nanosPerSecond := by decide
  constructor
  · intro hfits
    have hlt : rowNanos row < UInt64.size * nanosPerSecond := by
      rwa [← hseconds, Nat.div_lt_iff_lt_mul hpos] at hfits
    refine ⟨⟨rowNanos row, hlt⟩, ?_, hseconds, hnanos⟩
    rw [parse_rowText hrow, orOutOfRange_eq_ok]
  · intro hlong
    rw [← hseconds, Nat.le_div_iff_mul_le hpos] at hlong
    rw [parse_rowText hrow, orOutOfRange_of_le hlong]

theorem readsAsSum_rowText_append {first second : List Segment} (hfirst : IsRow first)
    (hsecond : IsRow second) (hbegins : BeginsWithDigit (rowText second)) {a b : Duration}
    (h : rowNanos first + rowNanos second = a.nanos + b.nanos) :
    ReadsAsSum (String.ofList (rowText first) ++ String.ofList (rowText second)) a b := by
  rw [← rowNanos_append] at h
  rw [← String.ofList_append, ← rowText_append]
  exact readsAsSum_rowText (hfirst.append hsecond hbegins) h

/-- Durations in units add up when they are written one after another, in either order if both
begin with a digit. -/
theorem parse_append {first second : String} {a b : Duration} (hfirst : ReadsInUnits first a)
    (hsecond : ReadsInUnits second b) (hbegins : BeginsWithDigit second.toList) :
    ReadsAsSum (first ++ second) a b ∧
      (BeginsWithDigit first.toList → ReadsAsSum (second ++ first) a b) := by
  obtain ⟨row, hrow, rfl, ha⟩ := readsInUnits_iff.mp hfirst
  obtain ⟨others, hothers, rfl, hb⟩ := readsInUnits_iff.mp hsecond
  rw [String.toList_ofList] at hbegins ⊢
  constructor
  · exact readsAsSum_rowText_append hrow hothers hbegins (by rw [ha, hb])
  · intro hbeginsFirst
    exact readsAsSum_rowText_append hothers hrow hbeginsFirst (by rw [ha, hb, Nat.add_comm])

/-- The parts of a second carry over. -/
theorem parse_append_carry :
    ReadsAsSum "1.5s600ms" ⟨1500000000, by decide⟩ ⟨600000000, by decide⟩ ∧
      ReadsAsSum "600ms1.5s" ⟨1500000000, by decide⟩ ⟨600000000, by decide⟩ := by
  have hfirst : ReadsInUnits "1.5s" ⟨1500000000, by decide⟩ := by
    refine readsInUnits_iff.mpr ⟨[⟨"1.5".toList, "s".toList⟩], ⟨by decide, ?_, nofun⟩, rfl, ?_⟩
    · refine List.forall_mem_singleton.mpr ⟨?_, .second, rfl⟩
      exact @IsNumber.pointed "1".toList "5".toList (by decide)
    · decide +kernel
  have hsecond : ReadsInUnits "600ms" ⟨600000000, by decide⟩ := by
    refine readsInUnits_iff.mpr ⟨[⟨"600".toList, "ms".toList⟩], ⟨by decide, ?_, nofun⟩, rfl, ?_⟩
    · exact List.forall_mem_singleton.mpr ⟨.whole (by decide), .millisecond, rfl⟩
    · decide +kernel
  have hsum := parse_append hfirst hsecond ⟨'6', by decide⟩
  exact ⟨hsum.1, hsum.2 ⟨'1', by decide⟩⟩

end AppRoutes.Duration
