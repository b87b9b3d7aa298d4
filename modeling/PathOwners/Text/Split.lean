/-!
# Splitting texts

A text cut at one occurrence of a character, or at all of them.
-/

namespace PathOwners.Text

/-- A text up to the first occurrence of a character, and what follows that occurrence. -/
def splitFirst? (separator : Char) : List Char → Option (List Char × List Char)
  | [] => none
  | c :: cs =>
    if c = separator then some ([], cs)
    else (splitFirst? separator cs).map fun parts => (c :: parts.1, parts.2)

/-- The parts of a text between the occurrences of a character: always one more than there are occurrences. -/
def pieces (separator : Char) : List Char → List (List Char)
  | [] => [[]]
  | c :: cs =>
    if c = separator then [] :: pieces separator cs
    else
      match pieces separator cs with
      | [] => [[c]]
      | first :: rest => (c :: first) :: rest

end PathOwners.Text
