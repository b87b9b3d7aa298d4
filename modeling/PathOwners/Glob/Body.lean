/-!
# Normal form and body of a pattern

A backslash escapes the characters that mean something in a pattern and separates directories before any other; the
normal form settles which one each backslash is. A pattern that ends in `/` is for a directory. What is left of the
normal form without that `/`, and without one `/` at the front, is the pattern's body.
-/

namespace PathOwners.Glob

/-- The characters that a backslash can take as they are. -/
def isEscapable (c : Char) : Bool :=
  ['*', '?', '[', ']', '\x7b', '\x7d', ',', '!', '^', '-', ' ', '\t', '#', '"', '\\'].contains c

/-- A pattern with every backslash that escapes nothing made a separator. Escapes are read from left to right. -/
def normalize : List Char → List Char
  | [] => []
  | '\\' :: c :: cs => if isEscapable c then '\\' :: c :: normalize cs else '/' :: normalize (c :: cs)
  | c :: cs => (if c = '\\' then '/' else c) :: normalize cs

/-- A path with every backslash made a separator. -/
def normalizePath (path : List Char) : List Char := path.map fun c => if c = '\\' then '/' else c

/-- The body of a pattern, and whether the pattern is for a directory. -/
structure Body where
  text : List Char
  directory : Bool
  deriving DecidableEq, Repr

/-- A text without one `/` at the front. -/
def dropLeadingSlash : List Char → List Char
  | '/' :: cs => cs
  | cs => cs

/-- The body of a pattern in normal form. -/
def Body.ofNormal (pattern : List Char) : Body :=
  if pattern.getLast? = some '/' then ⟨dropLeadingSlash pattern.dropLast, true⟩
  else ⟨dropLeadingSlash pattern, false⟩

/-- The body of a pattern. -/
def Body.ofPattern (pattern : List Char) : Body := .ofNormal (normalize pattern)

/-- Whether a pattern is the one that matches every path: a single star. -/
def isCatchAll (pattern : List Char) : Bool := normalize pattern == ['*']

end PathOwners.Glob
