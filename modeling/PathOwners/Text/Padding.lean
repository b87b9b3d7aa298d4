/-!
# Padding

Texts set in columns: cut to a precision, then filled with spaces up to a width. Both count characters, and a text
that is wider than its column stays whole.
-/

namespace PathOwners.Text

/-- The side of its column at which a text stands. -/
inductive Alignment where
  | left
  | right
  | center
  deriving DecidableEq, Repr

/-- A column: its width, the side at which a text stands, and the number of characters after which a text is cut. -/
structure Column where
  width : Nat := 0
  alignment : Alignment := .left
  precision : Option Nat := none
  deriving DecidableEq, Repr

/-- The spaces before and after a text that leaves `gap` places of its column free; of an odd number of them the
centred text has the extra one on its right. -/
def Alignment.margins (alignment : Alignment) (gap : Nat) : Nat × Nat :=
  match alignment with
  | .left => (0, gap)
  | .right => (gap, 0)
  | .center => (gap / 2, gap - gap / 2)

/-- The characters of a text that a column shows. -/
def Column.cut (column : Column) (text : List Char) : List Char :=
  match column.precision with
  | none => text
  | some count => text.take count

/-- A text set in a column. -/
def Column.set (column : Column) (text : String) : String :=
  let shown := column.cut text.toList
  let (before, after) := column.alignment.margins (column.width - shown.length)
  String.ofList (List.replicate before ' ' ++ shown ++ List.replicate after ' ')

end PathOwners.Text
