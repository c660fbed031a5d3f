/-
The grammar of durations.

A duration is a whole number of seconds or a row of segments, each a number and a unit.  A
segment ends where its unit does, and every later segment begins with a digit, so a row can be
cut in one way only: `segments_rowText` says that cutting finds the segments of any row, and
`rowText_segments` that it loses nothing of any text.
-/
import AppRoutes.Duration.Literal

namespace AppRoutes.Duration

open Text

/-- A numeral below `2 ^ 64`, with at most one plus sign before it. -/
def IsWholeNumber (text : List Char) : Prop :=
  ∃ digits, (text = digits ∨ text = '+' :: digits) ∧ Numeral.isNumeral digits = true ∧
    Numeral.value digits < UInt64.size

/-- Digits, at least one, with at most one point before, among or behind them. -/
inductive IsNumber : List Char → Prop
  | whole {digits : List Char} (h : Numeral.isNumeral digits = true) : IsNumber digits
  | pointed {before after : List Char} (h : Numeral.isNumeral (before ++ after) = true) :
      IsNumber (before ++ '.' :: after)

namespace Segment

def text (segment : Segment) : List Char := segment.number ++ segment.unit

/-- The segment is a number and a unit. -/
structure IsWellFormed (segment : Segment) : Prop where
  number : IsNumber segment.number
  unit : ∃ unit : TimeUnit, segment.unit = unit.name.toList

end Segment

def BeginsWithDigit (text : List Char) : Prop := ∃ c ∈ text.head?, c.isDigit = true

/-- Segments as they may stand one after another, at least one of them. -/
structure IsRow (row : List Segment) : Prop where
  nonempty : row ≠ []
  wellFormed : ∀ segment ∈ row, segment.IsWellFormed
  begins : ∀ segment ∈ row.tail, BeginsWithDigit segment.number

/-- The text of segments one after another. -/
def rowText (row : List Segment) : List Char := row.flatMap Segment.text

theorem rowText_cons (segment : Segment) (row : List Segment) :
    rowText (segment :: row) = segment.text ++ rowText row := List.flatMap_cons

theorem rowText_append (first second : List Segment) :
    rowText (first ++ second) = rowText first ++ rowText second := List.flatMap_append

def IsDuration (text : List Char) : Prop :=
  IsWholeNumber text ∨ ∃ row, IsRow row ∧ text = rowText row

theorem isWholeNumber_iff {text : List Char} :
    IsWholeNumber text ↔ ∃ n, Numeral.below? UInt64.size text = some n := by
  constructor
  · rintro ⟨digits, htext, hnumeral, hlt⟩
    exact ⟨_, Numeral.below?_eq_some_iff.mpr ⟨digits, htext, hnumeral, rfl, hlt⟩⟩
  · rintro ⟨n, h⟩
    obtain ⟨digits, htext, hnumeral, rfl, hlt⟩ := Numeral.below?_eq_some_iff.mp h
    exact ⟨digits, htext, hnumeral, hlt⟩

theorem BeginsWithDigit.append {text : List Char} (h : BeginsWithDigit text) (rest : List Char) :
    BeginsWithDigit (text ++ rest) := by
  obtain ⟨c, hc, hdigit⟩ := h
  exact ⟨c, by simp [Option.mem_def.mp hc], hdigit⟩

/-- Digits are the longest run of digits, whatever other character follows. -/
theorem takeWhile_isDigit {digits rest : List Char} (h : ∀ c ∈ digits, c.isDigit = true)
    (hrest : ∀ c ∈ rest.head?, c.isDigit = false) :
    (digits ++ rest).takeWhile Char.isDigit = digits ∧
      (digits ++ rest).dropWhile Char.isDigit = rest := by
  rw [List.takeWhile_append_of_pos h, List.dropWhile_append_of_pos h]
  cases rest with
  | nil => exact ⟨List.append_nil _, rfl⟩
  | cons c rest => simp [hrest c rfl]

theorem ofText?_whole {digits : List Char} (h : Numeral.isNumeral digits = true) :
    Decimal.ofText? digits = some ⟨Numeral.value digits, 0⟩ := by
  obtain ⟨hne, hdigits⟩ := Numeral.isNumeral_iff.mp h
  obtain ⟨htake, hdrop⟩ := @takeWhile_isDigit digits [] hdigits nofun
  rw [List.append_nil] at htake hdrop
  simp only [Decimal.ofText?, htake, hdrop]
  simp [hne]

theorem ofText?_pointed {before after : List Char}
    (h : Numeral.isNumeral (before ++ after) = true) :
    Decimal.ofText? (before ++ '.' :: after) =
      some ⟨Numeral.value (before ++ after), after.length⟩ := by
  obtain ⟨-, hdigits⟩ := Numeral.isNumeral_iff.mp h
  obtain ⟨htake, hdrop⟩ := @takeWhile_isDigit before ('.' :: after)
    (fun c hc => hdigits c (List.mem_append_left after hc)) (by simp)
  simp only [Decimal.ofText?, htake, hdrop]
  simp [h]

/-- What is read as a decimal number is a number of the grammar. -/
theorem exists_ofText?_iff {text : List Char} :
    (∃ decimal, Decimal.ofText? text = some decimal) ↔ IsNumber text := by
  constructor
  · rintro ⟨decimal, h⟩
    have htext := @List.takeWhile_append_dropWhile _ Char.isDigit text
    unfold Decimal.ofText? at h
    simp only at h
    split at h
    · rename_i hdrop
      rw [hdrop, List.append_nil] at htext
      split at h
      · cases h
      · rename_i hne
        rw [← htext]
        refine .whole (Numeral.isNumeral_iff.mpr ⟨by simpa using hne, fun c hc => ?_⟩)
        exact List.all_eq_true.mp List.all_takeWhile c hc
    · rename_i point fraction hdrop
      split at h
      · rename_i hnumber
        simp only [Bool.and_eq_true, decide_eq_true_eq] at hnumber
        rw [← htext, hdrop, hnumber.1]
        exact .pointed hnumber.2
      · cases h
  · rintro (h | h)
    · exact ⟨_, ofText?_whole h⟩
    · exact ⟨_, ofText?_pointed h⟩

theorem IsNumber.ne_nil {text : List Char} (h : IsNumber text) : text ≠ [] := by
  cases h with
  | whole h => exact (Numeral.isNumeral_iff.mp h).1
  | pointed h => simp

theorem IsNumber.isNumberChar {text : List Char} (h : IsNumber text) :
    ∀ c ∈ text, isNumberChar c = true := by
  intro c hc
  cases h with
  | whole h => simp [Duration.isNumberChar, (Numeral.isNumeral_iff.mp h).2 c hc]
  | @pointed before after h =>
    obtain ⟨-, hdigits⟩ := Numeral.isNumeral_iff.mp h
    simp only [List.mem_append, List.mem_cons] at hc
    rcases hc with hc | rfl | hc
    · simp [Duration.isNumberChar, hdigits c (List.mem_append_left after hc)]
    · rfl
    · simp [Duration.isNumberChar, hdigits c (List.mem_append_right before hc)]

theorem ofName?_eq_some_iff {name : String} {unit : TimeUnit} :
    TimeUnit.ofName? name = some unit ↔ name = unit.name := by
  unfold TimeUnit.ofName?
  constructor
  · intro h
    split at h
    · cases h; assumption
    · split at h
      · cases h; assumption
      · split at h
        · cases h; assumption
        · split at h
          · cases h; assumption
          · cases h
  · rintro rfl
    cases unit <;> decide

/-- A unit begins with a letter and holds no digit. -/
theorem unit_spec (unit : TimeUnit) :
    ∃ c rest, unit.name.toList = c :: rest ∧ isNumberChar c = false ∧
      ∀ d ∈ unit.name.toList, isUnitChar d = true ∧ isBlank d = false := by
  have hall : (unit.name.toList.all fun d => isUnitChar d && !isBlank d) = true := by
    cases unit <;> rfl
  have hchars : ∀ d ∈ unit.name.toList, isUnitChar d = true ∧ isBlank d = false := by
    intro d hd
    simpa using List.all_eq_true.mp hall d hd
  cases unit with
  | hour => exact ⟨'h', [], rfl, rfl, hchars⟩
  | minute => exact ⟨'m', [], rfl, rfl, hchars⟩
  | second => exact ⟨'s', [], rfl, rfl, hchars⟩
  | millisecond => exact ⟨'m', ['s'], rfl, rfl, hchars⟩

theorem isNumberChar_of_isDigit {c : Char} (h : c.isDigit = true) : isNumberChar c = true := by
  simp [isNumberChar, h]

theorem isUnitChar_eq_false {c : Char} : isUnitChar c = false ↔ c.isDigit = true := by
  simp [isUnitChar]

theorem Segment.text_ne_nil {segment : Segment} (h : segment.IsWellFormed) :
    segment.text ≠ [] := fun htext => h.number.ne_nil (List.append_eq_nil_iff.mp htext).1

theorem segments_nil : segments [] = [] := by rw [segments]

/-- A segment of the grammar is cut off a text, if its unit ends with it. -/
theorem segments_text_append {segment : Segment} (h : segment.IsWellFormed) {rest : List Char}
    (hrest : rest = [] ∨ BeginsWithDigit rest) :
    segments (segment.text ++ rest) = segment :: segments rest := by
  obtain ⟨unit, hunit⟩ := h.unit
  obtain ⟨letter, letters, hname, hletter, hchars⟩ := unit_spec unit
  rw [← hunit] at hname hchars
  have htakeNumber : (segment.text ++ rest).takeWhile isNumberChar = segment.number := by
    rw [Segment.text, List.append_assoc, List.takeWhile_append_of_pos h.number.isNumberChar,
      hname, List.cons_append, List.takeWhile_cons_of_neg (by simp [hletter]), List.append_nil]
  have hdropNumber : (segment.text ++ rest).dropWhile isNumberChar = segment.unit ++ rest := by
    rw [Segment.text, List.append_assoc, List.dropWhile_append_of_pos h.number.isNumberChar,
      hname, List.cons_append, List.dropWhile_cons_of_neg (by simp [hletter])]
  have hend : rest.takeWhile isUnitChar = [] ∧ rest.dropWhile isUnitChar = rest := by
    rcases hrest with rfl | ⟨c, hc, hdigit⟩
    · exact ⟨rfl, rfl⟩
    · cases rest with
      | nil => cases hc
      | cons d rest =>
        obtain rfl : d = c := Option.some.inj hc
        simp [isUnitChar_eq_false.mpr hdigit]
  have htakeUnit : (segment.unit ++ rest).takeWhile isUnitChar = segment.unit := by
    rw [List.takeWhile_append_of_pos fun d hd => (hchars d hd).1, hend.1, List.append_nil]
  have hdropUnit : (segment.unit ++ rest).dropWhile isUnitChar = rest := by
    rw [List.dropWhile_append_of_pos fun d hd => (hchars d hd).1, hend.2]
  obtain ⟨c, others, htext⟩ : ∃ c others, segment.text ++ rest = c :: others :=
    List.exists_cons_of_ne_nil (by simp [Segment.text_ne_nil h])
  rw [htext, segments, ← htext, htakeNumber, hdropNumber, htakeUnit, hdropUnit]

theorem IsRow.tail {segment : Segment} {row : List Segment} (h : IsRow (segment :: row)) :
    row = [] ∨ IsRow row ∧ BeginsWithDigit (rowText row) := by
  cases row with
  | nil => exact .inl rfl
  | cons next row =>
    refine .inr ⟨⟨List.cons_ne_nil _ _, fun s hs => h.wellFormed s (List.mem_cons_of_mem _ hs),
      fun s hs => h.begins s (List.mem_of_mem_tail hs)⟩, ?_⟩
    rw [rowText_cons]
    exact ((h.begins next List.mem_cons_self).append _).append _

/-- Cutting finds the segments of a row, whatever begins with a digit behind them. -/
theorem segments_rowText_append {row : List Segment} (h : IsRow row) {rest : List Char}
    (hrest : rest = [] ∨ BeginsWithDigit rest) :
    segments (rowText row ++ rest) = row ++ segments rest := by
  induction row with
  | nil => exact absurd rfl h.nonempty
  | cons segment row ih =>
    rw [rowText_cons, List.append_assoc]
    have hsegment := h.wellFormed segment List.mem_cons_self
    rcases h.tail with rfl | ⟨hrow, hbegins⟩
    · exact segments_text_append hsegment hrest
    · rw [segments_text_append hsegment (.inr (hbegins.append rest)), ih hrow, List.cons_append]

theorem segments_rowText {row : List Segment} (h : IsRow row) : segments (rowText row) = row := by
  have hsegments := segments_rowText_append h (.inl rfl)
  rwa [List.append_nil, segments_nil, List.append_nil] at hsegments

theorem rowText_segments (text : List Char) : rowText (segments text) = text := by
  fun_induction segments text with
  | case1 => rfl
  | case2 c rest tail ih =>
    rw [rowText_cons, ih, Segment.text, List.append_assoc,
      List.takeWhile_append_dropWhile, List.takeWhile_append_dropWhile]

/-- A unit ends with the text or before a digit. -/
theorem dropWhile_isUnitChar (text : List Char) :
    text.dropWhile isUnitChar = [] ∨ BeginsWithDigit (text.dropWhile isUnitChar) := by
  have hhead := List.head?_dropWhile_not isUnitChar text
  cases hend : text.dropWhile isUnitChar with
  | nil => exact .inl rfl
  | cons c rest =>
    rw [hend] at hhead
    exact .inr ⟨c, rfl, isUnitChar_eq_false.mp hhead⟩

/-- The segments of a text that begins with a digit all do. -/
theorem begins_of_mem_segments {text : List Char} (h : BeginsWithDigit text) {segment : Segment}
    (hmem : segment ∈ segments text) : BeginsWithDigit segment.number := by
  fun_induction segments text with
  | case1 => cases hmem
  | case2 c rest tail ih =>
    obtain ⟨d, hd, hdigit⟩ := h
    obtain rfl : c = d := Option.some.inj hd
    rcases List.mem_cons.mp hmem with rfl | hmem
    · refine ⟨c, ?_, hdigit⟩
      rw [List.takeWhile_cons_of_pos (isNumberChar_of_isDigit hdigit)]
      rfl
    · rcases dropWhile_isUnitChar tail with hend | hend
      · rw [hend, segments_nil] at hmem
        cases hmem
      · exact ih hend hmem

theorem begins_of_mem_tail_segments {text : List Char} {segment : Segment}
    (hmem : segment ∈ (segments text).tail) : BeginsWithDigit segment.number := by
  cases text with
  | nil =>
    rw [segments_nil] at hmem
    cases hmem
  | cons c rest =>
    rw [segments, List.tail_cons] at hmem
    rcases dropWhile_isUnitChar ((c :: rest).dropWhile isNumberChar) with hend | hend
    · rw [hend, segments_nil] at hmem
      cases hmem
    · exact begins_of_mem_segments hend hmem

/-- A text whose segments are all well formed is a row. -/
theorem isRow_segments {text : List Char} (hne : text ≠ [])
    (h : ∀ segment ∈ segments text, segment.IsWellFormed) : IsRow (segments text) where
  nonempty := fun hnil => hne (by rw [← rowText_segments text, hnil]; rfl)
  wellFormed := h
  begins := fun _ => begins_of_mem_tail_segments

/-! ## Rows among texts -/

theorem isBlank_of_isNumberChar {c : Char} (h : isNumberChar c = true) : isBlank c = false := by
  simp only [isNumberChar, Char.isDigit, Bool.or_eq_true, Bool.and_eq_true, decide_eq_true_eq] at h
  rcases h with ⟨hlow, hhigh⟩ | rfl
  · have hlow : 48 ≤ c.toNat := hlow
    have hhigh : c.toNat ≤ 57 := hhigh
    simp only [isBlank, Bool.or_eq_false_iff, Bool.and_eq_false_iff, decide_eq_false_iff_not,
      beq_eq_false_iff_ne]
    omega
  · rfl

theorem isBlank_of_mem_rowText {row : List Segment} (h : IsRow row) {c : Char}
    (hc : c ∈ rowText row) : isBlank c = false := by
  obtain ⟨segment, hsegment, hc⟩ := List.mem_flatMap.mp hc
  obtain ⟨hnumber, unit, hunit⟩ := h.wellFormed segment hsegment
  rcases List.mem_append.mp hc with hc | hc
  · exact isBlank_of_isNumberChar (hnumber.isNumberChar c hc)
  · obtain ⟨_, _, -, -, hchars⟩ := unit_spec unit
    exact (hchars c (hunit ▸ hc)).2

theorem trim_rowText {row : List Segment} (h : IsRow row) : trim (rowText row) = rowText row :=
  trim_of_forall_not_isBlank fun _ hc => isBlank_of_mem_rowText h hc

theorem rowText_ne_nil {row : List Segment} (h : IsRow row) : rowText row ≠ [] := by
  obtain ⟨segment, others, rfl⟩ := List.exists_cons_of_ne_nil h.nonempty
  rw [rowText_cons]
  simp [Segment.text_ne_nil (h.wellFormed segment List.mem_cons_self)]

/-- A row has a unit, which no numeral has. -/
theorem not_isWholeNumber_rowText {row : List Segment} (h : IsRow row) :
    ¬ IsWholeNumber (rowText row) := by
  rintro ⟨digits, htext, hnumeral, -⟩
  obtain ⟨-, hdigits⟩ := Numeral.isNumeral_iff.mp hnumeral
  obtain ⟨segment, others, rfl⟩ := List.exists_cons_of_ne_nil h.nonempty
  obtain ⟨hnumber, unit, hunit⟩ := h.wellFormed segment List.mem_cons_self
  obtain ⟨letter, letters, hname, hletter, hchars⟩ := unit_spec unit
  rw [← hunit] at hname
  have hmem : letter ∈ rowText (segment :: others) := by
    rw [rowText_cons, Segment.text, hname]
    simp
  have hnotDigit : letter.isDigit ≠ true := fun hdigit => by
    rw [isNumberChar_of_isDigit hdigit] at hletter
    cases hletter
  rcases htext with htext | htext
  · exact hnotDigit (hdigits letter (htext ▸ hmem))
  · -- The sign would have to be the first character of a number.
    obtain ⟨c, rest, hcons⟩ := List.exists_cons_of_ne_nil hnumber.ne_nil
    rw [rowText_cons, Segment.text, hcons] at htext
    obtain ⟨rfl, -⟩ := List.cons.inj htext
    have hplus := hnumber.isNumberChar '+' (hcons ▸ List.mem_cons_self)
    cases hplus

theorem IsRow.append {first second : List Segment} (hfirst : IsRow first) (hsecond : IsRow second)
    (hbegins : BeginsWithDigit (rowText second)) : IsRow (first ++ second) where
  nonempty := by simp [hfirst.nonempty]
  wellFormed := by
    intro segment hmem
    rcases List.mem_append.mp hmem with hmem | hmem
    · exact hfirst.wellFormed segment hmem
    · exact hsecond.wellFormed segment hmem
  begins := by
    intro segment hmem
    rw [List.tail_append_of_ne_nil hfirst.nonempty] at hmem
    rcases List.mem_append.mp hmem with hmem | hmem
    · exact hfirst.begins segment hmem
    · rw [← segments_rowText hsecond] at hmem
      exact begins_of_mem_segments hbegins hmem

end AppRoutes.Duration
