/-
Tables: left-aligned columns under a header in bold.

A column is as wide as its widest cell, counted in characters, and at least as wide as its
header, counted in bytes.  Rows may be shorter or longer than the header; cells beyond it are
not shown.
-/
import AppRoutes.Text.Blank
import AppRoutes.Terminal.Style

namespace AppRoutes.Terminal

/-- The widths that one row asks for, where it asks for more. -/
def widen : List Nat → List String → List Nat
  | [], _ => []
  | widths, [] => widths
  | width :: widths, cell :: cells => max width cell.length :: widen widths cells

def columnWidths (headers : List String) (rows : List (List String)) : List Nat :=
  rows.foldl widen (headers.map String.utf8ByteSize)

/-- The text followed by spaces, if it is shorter than the width. -/
def padRight (width : Nat) (text : List Char) : List Char :=
  text ++ List.replicate (width - text.length) ' '

def columnGap : List Char := [' ', ' ']

/-- The cells of a row, each as wide as its column. -/
def paddedCells (widths : List Nat) (cells : List String) : List (List Char) :=
  List.zipWith (fun cell width => padRight width cell.toList) cells widths

def rowLine (widths : List Nat) (cells : List String) : List Char :=
  Text.trimEnd (List.intercalate columnGap (paddedCells widths cells))

/-- The lines of a table, the header first. -/
def tableLines (palette : Palette) (headers : List String) (rows : List (List String)) :
    List (List Char) :=
  let widths := columnWidths headers rows
  paint palette .bold (rowLine widths headers) :: rows.map (rowLine widths)

def tableText (palette : Palette) (headers : List String) (rows : List (List String)) : String :=
  String.ofList ((tableLines palette headers rows).flatMap (· ++ ['\n']))

end AppRoutes.Terminal
