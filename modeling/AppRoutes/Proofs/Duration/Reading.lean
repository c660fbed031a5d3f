/-
What is read as a duration.

Segments are added from left to right, so of a row only the sum counts: it is the duration of
all its nanoseconds or too long.  A segment outside the grammar is refused for what is wrong
with it, unless those before it are too long already.  `parse_accepts_grammar` says both of
whole texts.
-/
import AppRoutes.Proofs.Duration.Grammar

namespace AppRoutes.Duration

open Text

theorem orOutOfRange_eq_ok {text : String} {nanos : Nat} {d : Duration} :
    orOutOfRange text (ofNanos? nanos) = .ok d ↔ d.nanos = nanos := by
  rw [← ofNanos?_eq_some_iff]
  cases ofNanos? nanos <;> simp [orOutOfRange]

theorem orOutOfRange_eq_error {text : String} {nanos : Nat} {e : Invalid} :
    orOutOfRange text (ofNanos? nanos) = .error e ↔
      UInt64.size * nanosPerSecond ≤ nanos ∧ e = .outOfRange text := by
  rw [← ofNanos?_eq_none_iff]
  cases ofNanos? nanos <;> simp [orOutOfRange, eq_comm]

theorem orOutOfRange_of_le {text : String} {nanos : Nat}
    (h : UInt64.size * nanosPerSecond ≤ nanos) :
    orOutOfRange text (ofNanos? nanos) = .error (.outOfRange text) :=
  orOutOfRange_eq_error.mpr ⟨h, rfl⟩

theorem head?_append_of_head? {front : String} {c : Char} (h : front.toList.head? = some c)
    (rest : String) : (front ++ rest).toList.head? = some c := by
  rw [String.toList_append, List.head?_append, h, Option.some_or]

namespace Invalid

/-- The first letter of a message. -/
def initial : Invalid → Char
  | .empty => 'E'
  | .noNumber _ | .badNumber _ => 'I'
  | .missingUnit _ => 'M'
  | .unknownUnit .. => 'U'
  | .outOfRange _ => 'D'

theorem head?_message (e : Invalid) : e.message.toList.head? = some e.initial := by
  have hquoted : ∀ {front : String} {c : Char}, front.toList.head? = some c →
      ∀ text, (front ++ text ++ "'").toList.head? = some c :=
    fun h text => head?_append_of_head? (head?_append_of_head? h text) _
  cases e with
  | empty => exact (by decide : "Empty duration string".toList.head? = some 'E')
  | noNumber text =>
    exact hquoted (by decide : "Invalid duration: '".toList.head? = some 'I') text
  | badNumber number =>
    exact hquoted (by decide : "Invalid number in duration: '".toList.head? = some 'I') number
  | missingUnit text =>
    exact hquoted (by decide : "Missing unit in duration: '".toList.head? = some 'M') text
  | unknownUnit unit text =>
    have hunit : "Unknown duration unit '".toList.head? = some 'U' := by decide
    exact hquoted (head?_append_of_head? (head?_append_of_head? hunit unit) "' in '") text
  | outOfRange text =>
    exact hquoted (by decide : "Duration out of range: '".toList.head? = some 'D') text

theorem message_eq_outOfRange_iff {e : Invalid} :
    (∃ quoted, e.message = (outOfRange quoted).message) ↔ ∃ quoted, e = .outOfRange quoted := by
  constructor
  · rintro ⟨quoted, h⟩
    have hinitial : e.initial = 'D' := by
      have hhead := head?_message e
      rw [h, head?_message] at hhead
      exact (Option.some.inj hhead).symm
    cases e with
    | outOfRange text => exact ⟨text, rfl⟩
    | empty | noNumber text | badNumber text | missingUnit text | unknownUnit unit text =>
      simp [initial] at hinitial
  · rintro ⟨quoted, rfl⟩
    exact ⟨quoted, rfl⟩

end Invalid

/-- The nanoseconds of a segment of the grammar. -/
def Segment.nanos (segment : Segment) : Nat :=
  match Decimal.ofText? segment.number, TimeUnit.ofName? (String.ofList segment.unit) with
  | some decimal, some unit => nanosOfUlps (unit.scale decimal.toUlps)
  | _, _ => 0

/-- The nanoseconds of segments taken together. -/
def rowNanos : List Segment → Nat
  | [] => 0
  | segment :: row => segment.nanos + rowNanos row

theorem rowNanos_append (first second : List Segment) :
    rowNanos (first ++ second) = rowNanos first + rowNanos second := by
  induction first with
  | nil => rw [List.nil_append, rowNanos, Nat.zero_add]
  | cons segment row ih => rw [List.cons_append, rowNanos, rowNanos, ih, Nat.add_assoc]

theorem nanos_of_unit {segment : Segment} {decimal : Decimal} {unit : TimeUnit}
    (hnumber : Decimal.ofText? segment.number = some decimal)
    (hunit : segment.unit = unit.name.toList) :
    segment.nanos = nanosOfUlps (unit.scale decimal.toUlps) := by
  have hname : TimeUnit.ofName? (String.ofList segment.unit) = some unit := by
    rw [ofName?_eq_some_iff, hunit, String.ofList_toList]
  simp only [Segment.nanos, hnumber, hname]

theorem read_of_isWellFormed {segment : Segment} (h : segment.IsWellFormed) (text : String) :
    segment.read text = .ok segment.nanos := by
  obtain ⟨decimal, hdecimal⟩ := exists_ofText?_iff.mpr h.number
  obtain ⟨unit, hunit⟩ := h.unit
  have hname : TimeUnit.ofName? (String.ofList segment.unit) = some unit := by
    rw [ofName?_eq_some_iff, hunit, String.ofList_toList]
  have hnumber : segment.number.isEmpty = false := by simp [h.number.ne_nil]
  have hletters : segment.unit.isEmpty = false := by
    obtain ⟨_, _, hcons, -, -⟩ := unit_spec unit
    simp [hunit, hcons]
  rw [nanos_of_unit hdecimal hunit]
  simp only [Segment.read, hnumber, hdecimal, hletters, hname, Bool.false_eq_true, if_false]

/-- A segment outside the grammar is refused, but not for being too long. -/
theorem read_of_not_isWellFormed {segment : Segment} (h : ¬ segment.IsWellFormed)
    (text : String) :
    ∃ e, segment.read text = .error e ∧ ∀ quoted, e ≠ .outOfRange quoted := by
  unfold Segment.read
  split
  · exact ⟨_, rfl, nofun⟩
  · cases hdecimal : Decimal.ofText? segment.number with
    | none => exact ⟨_, rfl, nofun⟩
    | some decimal =>
      dsimp only
      split
      · exact ⟨_, rfl, nofun⟩
      · cases hname : TimeUnit.ofName? (String.ofList segment.unit) with
        | none => exact ⟨_, rfl, nofun⟩
        | some unit =>
          refine absurd ⟨exists_ofText?_iff.mp ⟨decimal, hdecimal⟩, unit, ?_⟩ h
          rw [← ofName?_eq_some_iff.mp hname, String.toList_ofList]

/-- A segment of the grammar adds its nanoseconds. -/
theorem addSegment_of_isWellFormed {segment : Segment} (h : segment.IsWellFormed) (text : String)
    (total : Duration) :
    addSegment text total segment =
      orOutOfRange text (ofNanos? (total.nanos + segment.nanos)) := by
  rw [addSegment, read_of_isWellFormed h]
  show (orOutOfRange text (ofNanos? segment.nanos) >>= fun part =>
    orOutOfRange text (total.add? part)) = _
  cases hpart : ofNanos? segment.nanos with
  | none =>
    have hle := ofNanos?_eq_none_iff.mp hpart
    exact (orOutOfRange_of_le (Nat.le_trans hle (Nat.le_add_left _ _))).symm
  | some part =>
    rw [← ofNanos?_eq_some_iff.mp hpart]
    rfl

theorem addSegment_of_not_isWellFormed {segment : Segment} (h : ¬ segment.IsWellFormed)
    (text : String) (total : Duration) :
    ∃ e, addSegment text total segment = .error e ∧ ∀ quoted, e ≠ .outOfRange quoted := by
  obtain ⟨e, he, hkind⟩ := read_of_not_isWellFormed h text
  refine ⟨e, ?_, hkind⟩
  rw [addSegment, he]
  rfl

/-- Of segments of the grammar only the sum counts. -/
theorem foldlM_addSegment {row : List Segment} (h : ∀ segment ∈ row, segment.IsWellFormed)
    (text : String) (total : Duration) :
    row.foldlM (addSegment text) total =
      orOutOfRange text (ofNanos? (total.nanos + rowNanos row)) := by
  induction row generalizing total with
  | nil => exact (orOutOfRange_eq_ok.mpr rfl).symm
  | cons segment row ih =>
    obtain ⟨hsegment, hrow⟩ := List.forall_mem_cons.mp h
    rw [List.foldlM_cons, addSegment_of_isWellFormed hsegment, rowNanos, ← Nat.add_assoc]
    cases hadd : ofNanos? (total.nanos + segment.nanos) with
    | none =>
      have hle := ofNanos?_eq_none_iff.mp hadd
      exact (orOutOfRange_of_le (Nat.le_trans hle (Nat.le_add_right _ _))).symm
    | some next =>
      rw [← ofNanos?_eq_some_iff.mp hadd]
      exact ih hrow next

/-- After `total` nanoseconds the segments up to some point, all of the grammar, are too many. -/
def Overruns (total : Nat) (row : List Segment) : Prop :=
  ∃ front rest, row = front ++ rest ∧ (∀ segment ∈ front, segment.IsWellFormed) ∧
    UInt64.size * nanosPerSecond ≤ total + rowNanos front

theorem overruns_of_le {total : Nat} (h : UInt64.size * nanosPerSecond ≤ total)
    (row : List Segment) : Overruns total row :=
  ⟨[], row, rfl, nofun, h⟩

theorem overruns_cons {segment : Segment} (h : segment.IsWellFormed) (row : List Segment)
    (total : Duration) :
    Overruns total.nanos (segment :: row) ↔ Overruns (total.nanos + segment.nanos) row := by
  constructor
  · rintro ⟨front, rest, hsplit, hfront, hle⟩
    cases front with
    | nil => exact absurd hle (Nat.not_le.mpr total.nanos_lt)
    | cons first front =>
      obtain ⟨rfl, rfl⟩ := List.cons.inj hsplit
      rw [rowNanos, ← Nat.add_assoc] at hle
      exact ⟨front, rest, rfl, (List.forall_mem_cons.mp hfront).2, hle⟩
  · rintro ⟨front, rest, rfl, hfront, hle⟩
    refine ⟨segment :: front, rest, rfl, List.forall_mem_cons.mpr ⟨h, hfront⟩, ?_⟩
    rwa [rowNanos, ← Nat.add_assoc]

theorem not_overruns_cons {segment : Segment} (h : ¬ segment.IsWellFormed) (row : List Segment)
    (total : Duration) : ¬ Overruns total.nanos (segment :: row) := by
  rintro ⟨front, rest, hsplit, hfront, hle⟩
  cases front with
  | nil => exact absurd hle (Nat.not_le.mpr total.nanos_lt)
  | cons first front =>
    obtain ⟨rfl, -⟩ := List.cons.inj hsplit
    exact absurd (hfront segment List.mem_cons_self) h

/-- A segment outside the grammar makes adding fail.  The sum is too long exactly if that of the
segments up to some point before it is. -/
theorem foldlM_addSegment_of_not {row : List Segment}
    (h : ∃ segment ∈ row, ¬ segment.IsWellFormed) (text : String) (total : Duration) :
    ∃ e, row.foldlM (addSegment text) total = .error e ∧
      ((∃ quoted, e = .outOfRange quoted) ↔ Overruns total.nanos row) := by
  induction row generalizing total with
  | nil =>
    obtain ⟨_, hmem, -⟩ := h
    cases hmem
  | cons segment row ih =>
    rw [List.foldlM_cons]
    by_cases hsegment : segment.IsWellFormed
    · rw [addSegment_of_isWellFormed hsegment, overruns_cons hsegment]
      cases hadd : ofNanos? (total.nanos + segment.nanos) with
      | none =>
        have hlong := overruns_of_le (ofNanos?_eq_none_iff.mp hadd) row
        exact ⟨_, rfl, iff_of_true ⟨text, rfl⟩ hlong⟩
      | some next =>
        have hrow : ∃ other ∈ row, ¬ other.IsWellFormed := by
          obtain ⟨other, hmem, hother⟩ := h
          rcases List.mem_cons.mp hmem with rfl | hmem
          · exact absurd hsegment hother
          · exact ⟨other, hmem, hother⟩
        rw [← ofNanos?_eq_some_iff.mp hadd]
        exact ih hrow next
    · obtain ⟨e, he, hkind⟩ := addSegment_of_not_isWellFormed hsegment text total
      rw [he]
      exact ⟨e, rfl, iff_of_false (fun ⟨quoted, hquoted⟩ => hkind quoted hquoted)
        (not_overruns_cons hsegment row total)⟩

/-! ## Texts -/

theorem parseTrimmed_of_below? {text : List Char} {n : Nat}
    (h : Numeral.below? UInt64.size text = some n) :
    ∃ d, parseTrimmed text = .ok d ∧ d.nanos = n * nanosPerSecond := by
  obtain ⟨digits, htext, hnumeral, -, hlt⟩ := Numeral.below?_eq_some_iff.mp h
  have hne : text.isEmpty = false := by
    rcases htext with rfl | rfl
    · simpa using (Numeral.isNumeral_iff.mp hnumeral).1
    · rfl
  have hrange : n * nanosPerSecond < UInt64.size * nanosPerSecond :=
    Nat.mul_lt_mul_of_pos_right hlt (by decide)
  have hsome : ofSeconds? n = some ⟨n * nanosPerSecond, hrange⟩ :=
    ofNanos?_eq_some_iff.mpr rfl
  refine ⟨⟨n * nanosPerSecond, hrange⟩, ?_, rfl⟩
  rw [parseTrimmed, hne, h, Option.bind_some, hsome]
  rfl

theorem parseTrimmed_of_not_isWholeNumber {text : List Char} (hne : text ≠ [])
    (h : ¬ IsWholeNumber text) :
    parseTrimmed text = (segments text).foldlM (addSegment (String.ofList text)) zero := by
  have hnone : Numeral.below? UInt64.size text = none := by
    cases hn : Numeral.below? UInt64.size text with
    | none => rfl
    | some n => exact absurd (isWholeNumber_iff.mpr ⟨n, hn⟩) h
  have hempty : text.isEmpty = false := by simpa using hne
  rw [parseTrimmed, hempty, hnone, Option.bind_none]
  rfl

theorem parseTrimmed_rowText {row : List Segment} (h : IsRow row) :
    parseTrimmed (rowText row) =
      orOutOfRange (String.ofList (rowText row)) (ofNanos? (rowNanos row)) := by
  rw [parseTrimmed_of_not_isWholeNumber (rowText_ne_nil h) (not_isWholeNumber_rowText h),
    segments_rowText h, foldlM_addSegment h.wellFormed]
  exact congrArg (fun nanos => orOutOfRange _ (ofNanos? nanos)) (Nat.zero_add _)

theorem parse_rowText {row : List Segment} (h : IsRow row) :
    parse (String.ofList (rowText row)) =
      orOutOfRange (String.ofList (rowText row)) (ofNanos? (rowNanos row)) := by
  rw [parse, String.toList_ofList, trim_rowText h, parseTrimmed_rowText h]

/-- Complete segments at the front of the text, another one behind them, are too long. -/
def RunsOver (text : List Char) : Prop :=
  ∃ row rest, IsRow row ∧ BeginsWithDigit rest ∧ text = rowText row ++ rest ∧
    parse (String.ofList (rowText row)) = .error (.outOfRange (String.ofList (rowText row)))

theorem exists_not_isWellFormed {text : List Char} (hne : text ≠ []) (h : ¬ IsDuration text) :
    ∃ segment ∈ segments text, ¬ segment.IsWellFormed := by
  refine Classical.byContradiction fun hnone => h (.inr ⟨segments text, ?_, ?_⟩)
  · refine isRow_segments hne fun segment hmem => ?_
    exact Classical.byContradiction fun hsegment => hnone ⟨segment, hmem, hsegment⟩
  · exact (rowText_segments text).symm

/-- What the segments of a text say about its front. -/
theorem runsOver_iff {text : List Char} (hbad : ∃ segment ∈ segments text, ¬ segment.IsWellFormed) :
    RunsOver text ↔ Overruns zero.nanos (segments text) := by
  constructor
  · rintro ⟨row, rest, hrow, hrest, htext, hlong⟩
    refine ⟨row, segments rest, ?_, hrow.wellFormed, ?_⟩
    · rw [htext, segments_rowText_append hrow (.inr hrest)]
    · rw [parse_rowText hrow, orOutOfRange_eq_error] at hlong
      exact Nat.le_trans hlong.1 (Nat.le_add_left _ _)
  · rintro ⟨front, rest, hsplit, hfront, hle⟩
    have hzero : zero.nanos + rowNanos front = rowNanos front := Nat.zero_add _
    rw [hzero] at hle
    have hfrontNe : front ≠ [] := by
      rintro rfl
      exact absurd hle (by decide)
    have hrestNe : rest ≠ [] := by
      rintro rfl
      obtain ⟨segment, hmem, hsegment⟩ := hbad
      rw [hsplit, List.append_nil] at hmem
      exact hsegment (hfront segment hmem)
    have hbegins : ∀ segment ∈ front.tail ++ rest, BeginsWithDigit segment.number := by
      intro segment hmem
      rw [← List.tail_append_of_ne_nil hfrontNe, ← hsplit] at hmem
      exact begins_of_mem_tail_segments hmem
    have hrow : IsRow front :=
      ⟨hfrontNe, hfront, fun segment hmem => hbegins segment (List.mem_append_left _ hmem)⟩
    refine ⟨front, rowText rest, hrow, ?_, ?_, ?_⟩
    · obtain ⟨next, others, rfl⟩ := List.exists_cons_of_ne_nil hrestNe
      rw [rowText_cons, Segment.text]
      exact ((hbegins next (List.mem_append_right _ List.mem_cons_self)).append _).append _
    · rw [← rowText_append, ← hsplit, rowText_segments]
    · rw [parse_rowText hrow, orOutOfRange_of_le hle]

/-- A text outside the grammar is refused. -/
theorem parseTrimmed_of_not_isDuration {text : List Char} (h : ¬ IsDuration text) :
    ∃ e, parseTrimmed text = .error e ∧ ((∃ quoted, e = .outOfRange quoted) ↔ RunsOver text) := by
  by_cases hne : text = []
  · subst hne
    refine ⟨.empty, rfl, nofun, ?_⟩
    rintro ⟨row, rest, hrow, -, htext, -⟩
    exact absurd (List.append_eq_nil_iff.mp htext.symm).1 (rowText_ne_nil hrow)
  · have hbad := exists_not_isWellFormed hne h
    rw [parseTrimmed_of_not_isWholeNumber hne fun hwhole => h (.inl hwhole), runsOver_iff hbad]
    exact foldlM_addSegment_of_not hbad (String.ofList text) zero

/-- A text of the grammar, blanks at its ends apart, is read unless it is too long, and a whole
number always is.  Any other text is refused, and its message says that it is too long only if
complete segments at its front are. -/
theorem parse_accepts_grammar (text : String) :
    (IsWholeNumber (trim text.toList) → ∃ d, parse text = .ok d) ∧
    (IsDuration (trim text.toList) →
      (∃ d, parse text = .ok d) ∨ parse text = .error (.outOfRange (trimString text))) ∧
    (¬ IsDuration (trim text.toList) → ∃ e, parse text = .error e ∧
      ((∃ quoted, e.message = (Invalid.outOfRange quoted).message) ↔
        RunsOver (trim text.toList))) := by
  have hwhole : IsWholeNumber (trim text.toList) → ∃ d, parse text = .ok d := by
    intro h
    obtain ⟨n, hn⟩ := isWholeNumber_iff.mp h
    obtain ⟨d, hd, -⟩ := parseTrimmed_of_below? hn
    exact ⟨d, hd⟩
  refine ⟨hwhole, ?_, ?_⟩
  · rintro (h | ⟨row, hrow, htext⟩)
    · exact .inl (hwhole h)
    · rw [parse, trimString, htext, parseTrimmed_rowText hrow]
      cases ofNanos? (rowNanos row) with
      | none => exact .inr rfl
      | some d => exact .inl ⟨d, rfl⟩
  · intro h
    obtain ⟨e, he, hiff⟩ := parseTrimmed_of_not_isDuration h
    exact ⟨e, he, Invalid.message_eq_outOfRange_iff.trans hiff⟩

/-- Of these three texts the last lacks a unit. -/
theorem parse_accepts_grammar_missing_unit :
    (∃ d, parse " +45 " = .ok d) ∧
    ((∃ d, parse "1m30.5s" = .ok d) ∨ parse "1m30.5s" = .error (.outOfRange "1m30.5s")) ∧
    ∃ e, parse "1m30" = .error e ∧
      ((∃ quoted, e.message = (Invalid.outOfRange quoted).message) ↔
        RunsOver (trim "1m30".toList)) := by
  refine ⟨(parse_accepts_grammar " +45 ").1 ?_, (parse_accepts_grammar "1m30.5s").2.1 ?_,
    (parse_accepts_grammar "1m30").2.2 ?_⟩
  · exact ⟨"45".toList, .inr (by decide), by decide, by decide⟩
  · refine .inr ⟨[⟨"1".toList, "m".toList⟩, ⟨"30.5".toList, "s".toList⟩], ⟨by decide, ?_, ?_⟩, ?_⟩
    · refine List.forall_mem_cons.mpr ⟨⟨.whole (by decide), .minute, rfl⟩, ?_⟩
      refine List.forall_mem_singleton.mpr ⟨?_, .second, rfl⟩
      exact @IsNumber.pointed "30".toList "5".toList (by decide)
    · exact List.forall_mem_singleton.mpr ⟨'3', by decide⟩
    · decide
  · rintro (h | ⟨row, hrow, htext⟩)
    · obtain ⟨n, hn⟩ := isWholeNumber_iff.mp h
      have hnone : Numeral.below? UInt64.size (trim "1m30".toList) = none := by decide
      rw [hnone] at hn
      cases hn
    · have hcut : segments (trim "1m30".toList) =
          [⟨"1".toList, "m".toList⟩, ⟨"30".toList, []⟩] := by
        rw [show trim "1m30".toList = "1m30".toList by decide]
        simp [segments, isNumberChar, isUnitChar]
      rw [htext, segments_rowText hrow] at hcut
      subst hcut
      obtain ⟨unit, hunit⟩ := (hrow.wellFormed ⟨"30".toList, []⟩ (by decide)).unit
      cases unit <;> exact absurd hunit (by decide)

end AppRoutes.Duration
