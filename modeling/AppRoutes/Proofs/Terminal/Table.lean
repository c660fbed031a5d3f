/-
Columns that line up.

A line is looked at position by position, as if spaces went on behind its end: `charAt` reads it so.
Padding a cell and trimming a line take away or add nothing but blanks, so neither moves a
character, and what stands at a position follows from the cells alone.  The width of a column bounds
every cell of it, whichever row asked for the width, so the columns begin at the same positions in
every line.
-/
import Mathlib.Algebra.GroupWithZero.Nat
import Mathlib.Data.List.Forall2
import Mathlib.Data.List.GetD
import AppRoutes.Terminal.Table

namespace AppRoutes.Terminal

open Text

/-- The character at a position of a line with spaces behind it. -/
def charAt (line : List Char) (position : Nat) : Char := line.getD position ' '

/-- Where a column begins: each column before it takes its width and the gap. -/
def columnStart (widths : List Nat) (column : Nat) : Nat :=
  ((widths.take column).map (· + 2)).sum

/-- The text stands at the start of the column, and from its end up to the start of the next column
there are blanks alone, two at least. -/
structure StandsIn (widths : List Nat) (line : List Char) (column : Nat) (text : List Char) :
    Prop where
  char : ∀ k c, text[k]? = some c → charAt line (columnStart widths column + k) = c
  room : columnStart widths column + text.length + 2 ≤ columnStart widths (column + 1)
  blank : ∀ k, columnStart widths column + text.length ≤ k → k < columnStart widths (column + 1) →
    isBlank (charAt line k) = true

/-- The line shows the cells of a row in their columns, and nothing behind them. -/
structure LinesUp (widths : List Nat) (cells : List String) (line : List Char) : Prop where
  cell : ∀ (column : Nat) (cell : String), column < widths.length → cells[column]? = some cell →
    StandsIn widths line column (trimEnd cell.toList)
  beyond : ∀ k, columnStart widths (min cells.length widths.length) ≤ k →
    isBlank (charAt line k) = true

theorem charAt_append (front back : List Char) (k : Nat) :
    charAt (front ++ back) k =
      if k < front.length then charAt front k else charAt back (k - front.length) := by
  by_cases hk : k < front.length
  · rw [if_pos hk]
    exact List.getD_append _ _ _ _ hk
  · rw [if_neg hk]
    exact List.getD_append_right _ _ _ _ (Nat.not_lt.mp hk)

theorem charAt_of_length_le {line : List Char} {k : Nat} (h : line.length ≤ k) :
    charAt line k = ' ' :=
  List.getD_eq_default _ _ h

theorem charAt_replicate (n k : Nat) : charAt (List.replicate n ' ') k = ' ' := by
  by_cases hk : k < n
  · exact List.getD_replicate ' ' hk
  · exact charAt_of_length_le (by rw [List.length_replicate]; omega)

theorem charAt_append_spaces (text : List Char) (n k : Nat) :
    charAt (text ++ List.replicate n ' ') k = charAt text k := by
  rw [charAt_append, charAt_replicate]
  by_cases hk : k < text.length
  · rw [if_pos hk]
  · rw [if_neg hk, charAt_of_length_le (Nat.not_lt.mp hk)]

theorem columnStart_zero (widths : List Nat) : columnStart widths 0 = 0 := rfl

theorem columnStart_cons (width : Nat) (widths : List Nat) (column : Nat) :
    columnStart (width :: widths) (column + 1) = width + 2 + columnStart widths column := by
  rw [columnStart, List.take_succ_cons, List.map_cons, List.sum_cons]
  rfl

theorem columnStart_succ {widths : List Nat} {column width : Nat}
    (h : widths[column]? = some width) :
    columnStart widths (column + 1) = columnStart widths column + (width + 2) := by
  unfold columnStart
  rw [List.take_add_one, h]
  simp

/-! ## Trimming a line

What is trimmed is blank, and behind the end a line is blank as well. -/

theorem exists_trimEnd_append (text : List Char) :
    ∃ tail, text = trimEnd text ++ tail ∧ ∀ c ∈ tail, isBlank c = true := by
  refine ⟨(text.reverse.takeWhile isBlank).reverse, ?_, fun c hc => ?_⟩
  · rw [trimEnd, ← List.reverse_append, List.takeWhile_append_dropWhile, List.reverse_reverse]
  · exact List.all_eq_true.mp List.all_takeWhile c (List.mem_reverse.mp hc)

theorem isBlank_charAt {text : List Char} (h : ∀ c ∈ text, isBlank c = true) (k : Nat) :
    isBlank (charAt text k) = true := by
  by_cases hk : k < text.length
  · have hchar : charAt text k = text[k] := List.getD_eq_getElem _ _ hk
    rw [hchar]
    exact h _ (List.getElem_mem hk)
  · rw [charAt_of_length_le (Nat.not_lt.mp hk)]
    rfl

/-- Trimming keeps every character with a character behind it that is not blank. -/
theorem charAt_trimEnd {text : List Char} {j k : Nat} (hkj : k ≤ j)
    (hj : isBlank (charAt text j) = false) : charAt (trimEnd text) k = charAt text k := by
  obtain ⟨tail, htext, htail⟩ := exists_trimEnd_append text
  have hlt : j < (trimEnd text).length := by
    by_contra hge
    rw [htext, charAt_append, if_neg hge, isBlank_charAt htail] at hj
    exact absurd hj (by decide)
  have happend := charAt_append (trimEnd text) tail k
  rw [if_pos (Nat.lt_of_le_of_lt hkj hlt), ← htext] at happend
  exact happend.symm

theorem isBlank_charAt_trimEnd (text : List Char) (k : Nat) :
    isBlank (charAt (trimEnd text) k) = isBlank (charAt text k) := by
  obtain ⟨tail, htext, htail⟩ := exists_trimEnd_append text
  have happend := charAt_append (trimEnd text) tail k
  rw [← htext] at happend
  by_cases hk : k < (trimEnd text).length
  · rw [happend, if_pos hk]
  · rw [happend, if_neg hk, isBlank_charAt htail, charAt_of_length_le (Nat.not_lt.mp hk)]
    rfl

/-- A trimmed text ends where the last character is that is not blank. -/
theorem isBlank_charAt_of_length_trimEnd_le {text : List Char} {k : Nat}
    (h : (trimEnd text).length ≤ k) : isBlank (charAt text k) = true := by
  rw [← isBlank_charAt_trimEnd, charAt_of_length_le h]
  rfl

theorem not_isBlank_last_trimEnd {text : List Char} (h : trimEnd text ≠ []) :
    isBlank (charAt text ((trimEnd text).length - 1)) = false := by
  rw [← isBlank_charAt_trimEnd]
  have hpos := List.length_pos_iff.mpr h
  have hlast : charAt (trimEnd text) ((trimEnd text).length - 1) = (trimEnd text).getLast h := by
    rw [List.getLast_eq_getElem]
    exact List.getD_eq_getElem _ _ (by omega)
  rw [hlast]
  have hhead := List.head?_dropWhile_not isBlank text.reverse
  have hgetLast : (text.reverse.dropWhile isBlank).head? = some ((trimEnd text).getLast h) := by
    rw [← List.getLast?_eq_some_getLast h, trimEnd, List.getLast?_reverse]
  rwa [hgetLast] at hhead

/-- Every cell that is shown is at most as long as its column is wide. -/
def Fits (widths : List Nat) (cells : List String) : Prop :=
  ∀ (column width : Nat) (cell : String), widths[column]? = some width →
    cells[column]? = some cell → cell.length ≤ width

theorem Fits.tail {width : Nat} {widths : List Nat} {cell : String} {cells : List String}
    (h : Fits (width :: widths) (cell :: cells)) : Fits widths cells :=
  fun column => h (column + 1)

/-- The row before its line is trimmed. -/
def joinedCells (widths : List Nat) (cells : List String) : List Char :=
  List.intercalate columnGap (paddedCells widths cells)

theorem length_padRight {width : Nat} {text : List Char} (h : text.length ≤ width) :
    (padRight width text).length = width := by
  rw [padRight, List.length_append, List.length_replicate]
  omega

theorem joinedCells_no_width (cells : List String) : joinedCells [] cells = [] := by
  cases cells <;> rfl

/-- Behind the first cell and its gap the other cells go on. -/
theorem charAt_joinedCells_cons {width : Nat} {cell : String} (h : cell.length ≤ width)
    (widths : List Nat) (cells : List String) (k : Nat) :
    charAt (joinedCells (width :: widths) (cell :: cells)) k =
      if k < width + 2 then charAt cell.toList k
      else charAt (joinedCells widths cells) (k - (width + 2)) := by
  have hlength : (padRight width cell.toList).length = width := length_padRight h
  have hpadded : ∀ j, charAt (padRight width cell.toList) j = charAt cell.toList j :=
    charAt_append_spaces cell.toList _
  have hbeyond : ∀ j, width ≤ j → charAt cell.toList j = ' ' := fun j hj =>
    charAt_of_length_le (Nat.le_trans h hj)
  cases hrest : paddedCells widths cells with
  | nil =>
    have hnone : joinedCells widths cells = [] := by
      rw [joinedCells, hrest]
      rfl
    have hone : joinedCells (width :: widths) (cell :: cells) = padRight width cell.toList := by
      show List.intercalate columnGap (padRight width cell.toList :: paddedCells widths cells) = _
      rw [hrest, List.intercalate_singleton]
    rw [hone, hnone, hpadded]
    by_cases hk : k < width + 2
    · rw [if_pos hk]
    · rw [if_neg hk, hbeyond k (by omega)]
      rfl
  | cons next rest =>
    have hmore : joinedCells (width :: widths) (cell :: cells) =
        padRight width cell.toList ++ (List.replicate 2 ' ' ++ joinedCells widths cells) := by
      show List.intercalate columnGap (padRight width cell.toList :: paddedCells widths cells) = _
      rw [joinedCells, hrest, List.intercalate_cons_cons, List.append_assoc]
      rfl
    rw [hmore, charAt_append, charAt_append, hpadded, hlength, charAt_replicate,
      List.length_replicate]
    by_cases hk : k < width
    · rw [if_pos hk, if_pos (by omega)]
    · by_cases hgap : k < width + 2
      · rw [if_neg hk, if_pos (by omega), if_pos hgap, hbeyond k (by omega)]
      · rw [if_neg hk, if_neg (by omega), if_neg hgap, Nat.sub_sub]

/-- A cell stands in its column, with spaces behind it up to the next column. -/
theorem charAt_joinedCells {widths : List Nat} {cells : List String} (h : Fits widths cells)
    {column width : Nat} {cell : String} (hwidth : widths[column]? = some width)
    (hcell : cells[column]? = some cell) {k : Nat} (hk : k < width + 2) :
    charAt (joinedCells widths cells) (columnStart widths column + k) =
      charAt cell.toList k := by
  induction column generalizing widths cells with
  | zero =>
    cases widths with
    | nil => simp at hwidth
    | cons w widths =>
      cases cells with
      | nil => simp at hcell
      | cons c cells =>
        obtain rfl := Option.some.inj hwidth
        obtain rfl := Option.some.inj hcell
        rw [charAt_joinedCells_cons (h 0 w c rfl rfl), columnStart_zero, Nat.zero_add, if_pos hk]
  | succ column ih =>
    cases widths with
    | nil => simp at hwidth
    | cons w widths =>
      cases cells with
      | nil => simp at hcell
      | cons c cells =>
        have hstart : w + 2 + columnStart widths column + k - (w + 2) =
            columnStart widths column + k := by omega
        rw [charAt_joinedCells_cons (h 0 w c rfl rfl), columnStart_cons, if_neg (by omega), hstart]
        exact ih h.tail hwidth hcell

/-- Behind the last cell that is shown there are spaces alone. -/
theorem charAt_joinedCells_beyond {widths : List Nat} {cells : List String}
    (h : Fits widths cells) {k : Nat}
    (hk : columnStart widths (min cells.length widths.length) ≤ k) :
    charAt (joinedCells widths cells) k = ' ' := by
  induction widths generalizing cells k with
  | nil => rw [joinedCells_no_width]; rfl
  | cons w widths ih =>
    cases cells with
    | nil => rfl
    | cons c cells =>
      have hmin : min (c :: cells).length (w :: widths).length =
          min cells.length widths.length + 1 := by
        simp only [List.length_cons]
        omega
      rw [hmin, columnStart_cons] at hk
      rw [charAt_joinedCells_cons (h 0 w c rfl rfl), if_neg (by omega)]
      exact ih h.tail (by omega)

theorem linesUp_rowLine {widths : List Nat} {cells : List String} (h : Fits widths cells) :
    LinesUp widths cells (rowLine widths cells) where
  cell := by
    intro column cell hcolumn hcell
    have hwidth : widths[column]? = some widths[column] := List.getElem?_eq_getElem hcolumn
    have hlength : cell.toList.length ≤ widths[column] := h column _ cell hwidth hcell
    obtain ⟨tail, htext, -⟩ := exists_trimEnd_append cell.toList
    have htrim : (trimEnd cell.toList).length ≤ cell.toList.length := by
      have hsum := congrArg List.length htext
      rw [List.length_append] at hsum
      omega
    have hstart := columnStart_succ hwidth
    have hjoined : ∀ k, k < widths[column] + 2 →
        charAt (joinedCells widths cells) (columnStart widths column + k) =
          charAt cell.toList k := fun k => charAt_joinedCells h hwidth hcell
    refine ⟨fun k c hc => ?_, by omega, fun k hfrom hto => ?_⟩
    · obtain ⟨hk, hget⟩ := List.getElem?_eq_some_iff.mp hc
      have hne : trimEnd cell.toList ≠ [] := List.ne_nil_of_length_pos (by omega)
      -- The last character of the text keeps the ones before it from being trimmed.
      have hlast : isBlank (charAt (joinedCells widths cells)
          (columnStart widths column + ((trimEnd cell.toList).length - 1))) = false := by
        rw [hjoined _ (by omega)]
        exact not_isBlank_last_trimEnd hne
      have hcell : charAt cell.toList k = c := by
        have happend := charAt_append (trimEnd cell.toList) tail k
        rw [← htext, if_pos hk] at happend
        rw [happend, ← hget]
        exact List.getD_eq_getElem _ _ hk
      rw [rowLine, ← joinedCells, charAt_trimEnd (by omega) hlast, hjoined _ (by omega), hcell]
    · rw [rowLine, ← joinedCells, isBlank_charAt_trimEnd]
      have hposition : k = columnStart widths column + (k - columnStart widths column) := by omega
      rw [hposition, hjoined _ (by omega)]
      exact isBlank_charAt_of_length_trimEnd_le (by omega)
  beyond := by
    intro k hk
    rw [rowLine, ← joinedCells, isBlank_charAt_trimEnd, charAt_joinedCells_beyond h hk]
    rfl

theorem length_widen (widths : List Nat) (cells : List String) :
    (widen widths cells).length = widths.length := by
  fun_induction widen widths cells with
  | case1 => rfl
  | case2 => rfl
  | case3 width widths cell cells ih => rw [List.length_cons, List.length_cons, ih]

theorem fits_widen (widths : List Nat) (cells : List String) :
    Fits (widen widths cells) cells := by
  fun_induction widen widths cells with
  | case1 => nofun
  | case2 => nofun
  | case3 width widths cell cells ih =>
    intro column w c hw hc
    cases column with
    | zero =>
      obtain rfl := Option.some.inj hw
      obtain rfl := Option.some.inj hc
      exact Nat.le_max_right _ _
    | succ column => exact ih column w c hw hc

/-- A row never narrows a column. -/
theorem forall₂_le_widen (widths : List Nat) (cells : List String) :
    List.Forall₂ (· ≤ ·) widths (widen widths cells) := by
  fun_induction widen widths cells with
  | case1 => exact .nil
  | case2 => exact List.forall₂_same.mpr fun _ _ => Nat.le_refl _
  | case3 width widths cell cells ih => exact .cons (Nat.le_max_left _ _) ih

theorem Fits.mono {widths wider : List Nat} {cells : List String} (h : Fits widths cells)
    (hle : List.Forall₂ (· ≤ ·) widths wider) : Fits wider cells := by
  induction hle generalizing cells with
  | nil => exact h
  | @cons width w widths wider hw _ ih =>
    cases cells with
    | nil => nofun
    | cons cell cells =>
      intro column v c hv hc
      cases column with
      | zero =>
        obtain rfl := Option.some.inj hv
        exact Nat.le_trans (h 0 width c rfl hc) hw
      | succ column => exact ih h.tail column v c hv hc

theorem Fits.foldl_widen {widths : List Nat} {cells : List String} (h : Fits widths cells)
    (rows : List (List String)) : Fits (rows.foldl widen widths) cells := by
  induction rows generalizing widths with
  | nil => exact h
  | cons row rows ih => exact ih (h.mono (forall₂_le_widen widths row))

theorem fits_foldl_widen {widths : List Nat} {row : List String} {rows : List (List String)}
    (h : row ∈ rows) : Fits (rows.foldl widen widths) row := by
  obtain ⟨before, after, rfl⟩ := List.append_of_mem h
  rw [List.foldl_append, List.foldl_cons]
  exact (fits_widen _ row).foldl_widen after

theorem length_columnWidths (headers : List String) (rows : List (List String)) :
    (columnWidths headers rows).length = headers.length := by
  have hfold : ∀ widths : List Nat, (rows.foldl widen widths).length = widths.length := by
    induction rows with
    | nil => exact fun _ => rfl
    | cons row rows ih => exact fun widths => (ih _).trans (length_widen widths row)
  rw [columnWidths, hfold, List.length_map]

/-- A text has at most as many characters as bytes. -/
theorem length_le_utf8ByteSize (text : String) : text.length ≤ text.utf8ByteSize := by
  rw [← String.ofList_toList (s := text)]
  induction text.toList with
  | nil => exact Nat.le_refl 0
  | cons c rest ih =>
    have hc := Char.utf8Size_pos c
    rw [← List.singleton_append, String.ofList_append, String.utf8ByteSize_append,
      String.length_append]
    simp only [← String.singleton_eq_ofList, String.length_singleton, String.utf8ByteSize_singleton]
    omega

theorem fits_headers (headers : List String) :
    Fits (headers.map String.utf8ByteSize) headers := by
  intro column width cell hwidth hcell
  rw [List.getElem?_map, hcell] at hwidth
  obtain rfl := Option.some.inj hwidth
  exact length_le_utf8ByteSize cell

/-- A column is no wider than what its cells and its header allow. -/
theorem forall_mem_widen {bound : Nat} {widths : List Nat} {cells : List String}
    (hwidths : ∀ width ∈ widths, width < bound) (hcells : ∀ cell ∈ cells, cell.length < bound) :
    ∀ width ∈ widen widths cells, width < bound := by
  fun_induction widen widths cells with
  | case1 => exact hwidths
  | case2 => exact hwidths
  | case3 width widths cell cells ih =>
    obtain ⟨hwidth, hwidths⟩ := List.forall_mem_cons.mp hwidths
    obtain ⟨hcell, hcells⟩ := List.forall_mem_cons.mp hcells
    exact List.forall_mem_cons.mpr ⟨Nat.max_lt.mpr ⟨hwidth, hcell⟩, ih hwidths hcells⟩

theorem forall_mem_foldl_widen {bound : Nat} {widths : List Nat} {rows : List (List String)}
    (hwidths : ∀ width ∈ widths, width < bound)
    (hrows : ∀ row ∈ rows, ∀ cell ∈ row, cell.length < bound) :
    ∀ width ∈ rows.foldl widen widths, width < bound := by
  induction rows generalizing widths with
  | nil => exact hwidths
  | cons row rows ih =>
    obtain ⟨hrow, hrows⟩ := List.forall_mem_cons.mp hrows
    exact ih (forall_mem_widen hwidths hrow) hrows

theorem widen_take (widths : List Nat) (cells : List String) :
    widen widths (cells.take widths.length) = widen widths cells := by
  fun_induction widen widths cells with
  | case1 => rfl
  | case2 widths _ =>
    rw [List.take_nil]
    cases widths <;> rfl
  | case3 width widths cell cells ih =>
    rw [List.length_cons, List.take_succ_cons, widen, ih]

theorem paddedCells_take (widths : List Nat) (cells : List String) :
    paddedCells widths (cells.take widths.length) = paddedCells widths cells := by
  induction widths generalizing cells with
  | nil => cases cells <;> rfl
  | cons width widths ih =>
    cases cells with
    | nil => rfl
    | cons cell cells => exact congrArg (padRight width cell.toList :: ·) (ih cells)

theorem rowLine_take (widths : List Nat) (cells : List String) :
    rowLine widths (cells.take widths.length) = rowLine widths cells := by
  rw [rowLine, paddedCells_take, rowLine]

theorem columnWidths_map_take (headers : List String) (rows : List (List String)) :
    columnWidths headers (rows.map (List.take headers.length)) = columnWidths headers rows := by
  have hfold : ∀ widths : List Nat, widths.length = headers.length →
      (rows.map (List.take headers.length)).foldl widen widths = rows.foldl widen widths := by
    induction rows with
    | nil => exact fun _ _ => rfl
    | cons row rows ih =>
      intro widths hlength
      rw [List.map_cons, List.foldl_cons, List.foldl_cons, ← hlength, widen_take, hlength]
      exact ih _ ((length_widen widths row).trans hlength)
  exact hfold _ (List.length_map _)

/-- The lines of a table are settled by the cells that have a column. -/
theorem tableLines_map_take (palette : Palette) (headers : List String)
    (rows : List (List String)) :
    tableLines palette headers (rows.map (List.take headers.length)) =
      tableLines palette headers rows := by
  have hrow : ∀ row : List String, rowLine (columnWidths headers rows) (row.take headers.length) =
      rowLine (columnWidths headers rows) row := by
    intro row
    rw [← length_columnWidths headers rows]
    exact rowLine_take _ row
  rw [tableLines, tableLines, columnWidths_map_take, List.map_map]
  exact congrArg (_ :: ·) (List.map_congr_left fun row _ => hrow row)

/-! ## Tables -/

/-- In a table without colors the header and all rows line up in columns of the same widths, and
every cell that has a column is shown whole.  Cells without a column make no difference.  If every
text has fewer than `2 ^ 16` bytes, so has every column, and padding takes no wider ones. -/
theorem table_lines_up (headers : List String) (rows : List (List String))
    (hheaders : ∀ header ∈ headers, header.utf8ByteSize < UInt16.size)
    (hrows : ∀ row ∈ rows, ∀ cell ∈ row, cell.utf8ByteSize < UInt16.size) :
    ∃ widths : List Nat, widths.length = headers.length ∧
      (∀ width ∈ widths, width < UInt16.size) ∧
      (∃ first lines, tableLines .plain headers rows = first :: lines ∧
        LinesUp widths headers first ∧ List.Forall₂ (LinesUp widths) rows lines) ∧
      ∀ others : List (List String),
        others.map (List.take headers.length) = rows.map (List.take headers.length) →
          columnWidths headers others = widths ∧
            tableLines .plain headers others = tableLines .plain headers rows := by
  have hbound : ∀ width ∈ headers.map String.utf8ByteSize, width < UInt16.size := by
    intro width hwidth
    obtain ⟨header, hheader, rfl⟩ := List.mem_map.mp hwidth
    exact hheaders header hheader
  have hcells : ∀ row ∈ rows, ∀ cell ∈ row, cell.length < UInt16.size := fun row hrow cell hcell =>
    Nat.lt_of_le_of_lt (length_le_utf8ByteSize cell) (hrows row hrow cell hcell)
  refine ⟨columnWidths headers rows, length_columnWidths headers rows,
    forall_mem_foldl_widen hbound hcells, ⟨_, _, rfl, ?_, ?_⟩, fun others hothers => ⟨?_, ?_⟩⟩
  · exact linesUp_rowLine ((fits_headers headers).foldl_widen rows)
  · rw [List.forall₂_map_right_iff, List.forall₂_same]
    exact fun row hrow => linesUp_rowLine (fits_foldl_widen hrow)
  · rw [← columnWidths_map_take headers others, hothers, columnWidths_map_take]
  · rw [← tableLines_map_take .plain headers others, hothers, tableLines_map_take]

/-- The header `naïve` counts six bytes, a cell ends with a blank of its own, one row is short and
one has a cell without a column. -/
theorem table_lines_up_ragged :
    (∀ header ∈ ["path", "naïve", "end"], header.utf8ByteSize < UInt16.size) ∧
      (∀ row ∈ [["/a b\t", "x", "", "more"], ["日本"]], ∀ cell ∈ row,
        cell.utf8ByteSize < UInt16.size) ∧
      tableLines .plain ["path", "naïve", "end"] [["/a b\t", "x", "", "more"], ["日本"]] =
        ["path   naïve   end".toList, "/a b\t  x".toList, "日本".toList] ∧
      ∃ widths : List Nat, widths.length = 3 ∧
        List.Forall₂ (LinesUp widths) [["/a b\t", "x", "", "more"], ["日本"]]
          ["/a b\t  x".toList, "日本".toList] := by
  have hheaders : ∀ header ∈ ["path", "naïve", "end"], header.utf8ByteSize < UInt16.size := by
    decide
  have hrows : ∀ row ∈ [["/a b\t", "x", "", "more"], ["日本"]], ∀ cell ∈ row,
      cell.utf8ByteSize < UInt16.size := by
    decide
  have hlines : tableLines .plain ["path", "naïve", "end"]
      [["/a b\t", "x", "", "more"], ["日本"]] =
        ["path   naïve   end".toList, "/a b\t  x".toList, "日本".toList] := by
    decide
  obtain ⟨widths, hlength, -, ⟨first, lines, hsome, -, hlined⟩, -⟩ :=
    table_lines_up _ _ hheaders hrows
  obtain ⟨-, rfl⟩ := List.cons.inj (hsome.symm.trans hlines)
  exact ⟨hheaders, hrows, hlines, widths, hlength, hlined⟩

end AppRoutes.Terminal
