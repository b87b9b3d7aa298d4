import PathOwners.Rule.Basic
import PathOwners.Text.Blank
import PathOwners.Text.Lines

/-!
# Rules as lines of a file

A rule is written on one line: its pattern, then its owners, separated by spaces and tabs. A backslash takes the
character after it as it is, and double quotes keep the blanks between them inside a word. A `#` at the start of a line,
or directly after a space or tab, begins a comment; comments are cut before quotes and backslashes are read. An owner
ends at its first `#`.

`Rule.ofLine?` reads one line and `Rule.ofText` all the rules of a file; a line that holds no rule is passed over.
-/

namespace PathOwners.Rule

/-! ## Comments -/

/-- Whether a character separates words: a space or a tab. -/
def isGap (c : Char) : Bool := c == ' ' || c == '\t'

/-- A line up to the first `#` that directly follows a space or tab. -/
def beforeComment : List Char → List Char
  | b :: c :: cs => if isGap b && c == '#' then [b] else b :: beforeComment (c :: cs)
  | cs => cs

/-- The part of a line that is no comment, without the white space it ends with; `none` if the whole line is a
comment. -/
def content? (line : List Char) : Option (List Char) :=
  if (Text.trimStart line).head? = some '#' then none else some (Text.trimEnd (beforeComment line))

/-! ## Words -/

/-- A line read from some place on: the rest of the word that this place is in, or `none` between words, and the words
after it. -/
structure Words where
  current : Option (List Char)
  later : List (List Char)
  deriving DecidableEq, Repr

namespace Words

/-- The end of a line. -/
def empty : Words := ⟨none, []⟩

/-- One more character at the front of the current word. -/
def addChar (c : Char) (words : Words) : Words := { words with current := some (c :: words.current.getD []) }

/-- A quote: it makes a word, even one without characters. -/
def addQuote (words : Words) : Words := { words with current := some (words.current.getD []) }

/-- All words, the current one first. -/
def toList (words : Words) : List (List Char) := words.current.toList ++ words.later

/-- A separator in front: the word that begins here is one of the later words. -/
def addGap (words : Words) : Words := ⟨none, words.toList⟩

end Words

/-- Reads the words of a text, inside quotes or outside; `none` if a quote is left open at the end. A backslash at the
very end stands for nothing. -/
def readWords (inQuotes : Bool) : List Char → Option Words
  | [] => if inQuotes then none else some .empty
  | ['\\'] => if inQuotes then none else some .empty
  | '\\' :: c :: cs => (readWords inQuotes cs).map (Words.addChar c)
  | c :: cs =>
    if c = '"' then (readWords (!inQuotes) cs).map Words.addQuote
    else if isGap c && !inQuotes then (readWords inQuotes cs).map Words.addGap
    else (readWords inQuotes cs).map (Words.addChar c)

/-- The words of a text; `none` if a quote is left open. -/
def words? (text : List Char) : Option (List (List Char)) := (readWords false text).map Words.toList

/-! ## Rules -/

/-- An owner up to its first `#`. -/
def ownerName (word : List Char) : List Char := word.takeWhile (· != '#')

/-- The owners that the words after a pattern name; a word that is empty, or begins with `#`, names none. -/
def ownerNames (words : List (List Char)) : List (List Char) := (words.map ownerName).filter (· ≠ [])

/-- The rule that a list of words stands for: a pattern and at least one owner, none of them empty. -/
def ofWords? : List (List Char) → Option Rule
  | [] => none
  | pattern :: rest =>
    let owners := ownerNames rest
    if pattern = [] ∨ owners = [] then none
    else some ⟨String.ofList pattern, owners.map String.ofList⟩

/-- The rule on a line, given as characters. -/
def ofChars? (line : List Char) : Option Rule := do ofWords? (← words? (← content? line))

/-- The rule on a line, if it holds one. -/
def ofLine? (line : String) : Option Rule := ofChars? line.toList

/-- The rules of a file, in the order of its lines. -/
def ofText (text : String) : List Rule := (Text.lines text.toList).filterMap ofChars?

end PathOwners.Rule
