/-!
# Blank characters

The characters that count as white space between and around the words of a text: Unicode's `White_Space` property, and
the three ways to cut them from a text's ends.
-/

namespace PathOwners.Text

/-- The code points with Unicode's `White_Space` property, as inclusive ranges in increasing order. -/
def blankRanges : List (Nat × Nat) :=
  [(0x09, 0x0D), (0x20, 0x20), (0x85, 0x85), (0xA0, 0xA0), (0x1680, 0x1680), (0x2000, 0x200A), (0x2028, 0x2029),
    (0x202F, 0x202F), (0x205F, 0x205F), (0x3000, 0x3000)]

/-- Whether a code point lies in one of the given inclusive ranges. -/
def inRanges (ranges : List (Nat × Nat)) (code : Nat) : Bool :=
  ranges.any fun range => range.1 ≤ code && code ≤ range.2

/-- Whether a character is white space. -/
def isBlank (c : Char) : Bool := inRanges blankRanges c.toNat

/-- A text without the white space it begins with. -/
def trimStart (text : List Char) : List Char := text.dropWhile isBlank

/-- A text without the white space it ends with. -/
def trimEnd (text : List Char) : List Char := (text.reverse.dropWhile isBlank).reverse

/-- A text without the white space at either end. -/
def trim (text : List Char) : List Char := trimEnd (trimStart text)

end PathOwners.Text
