import PathOwners.Text.Split

/-!
# Lines of a text

A line feed ends a line, together with one carriage return directly before it. The last line may go without a line
feed, and keeps its carriage return then; a text that ends in a line feed has no empty line after it.
-/

namespace PathOwners.Text

/-- A line without the carriage return that belongs to its ending. -/
def dropReturn (line : List Char) : List Char :=
  if line.getLast? = some '\r' then line.dropLast else line

/-- The lines among the parts of a text: all but the last one were ended by a line feed. -/
def linesOfPieces : List (List Char) → List (List Char)
  | [] => []
  | [last] => if last.isEmpty then [] else [last]
  | piece :: rest => dropReturn piece :: linesOfPieces rest

/-- The lines of a text, without their endings. -/
def lines (text : List Char) : List (List Char) := linesOfPieces (pieces '\n' text)

end PathOwners.Text
