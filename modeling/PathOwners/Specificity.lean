import PathOwners.Glob.Body
import PathOwners.Glob.Scan

/-!
# Specificity of patterns

When several rules match a path, the one with the most specific pattern decides. Patterns are ranked by a ladder of
criteria, each one asked only where all before it leave the question open:

1. a plain path ranks above a pattern, and a deeper plain path above a shallower one,
2. a pattern for files above one for a directory,
3. a pattern without `**` above one with it,
4. a pattern with a literal extension above one without,
5. fewer alternatives above more,
6. more literal characters above fewer,
7. a `?` above a `*`,
8. a deeper pattern above a shallower one.

The pattern `*` stands below all others. A pattern that cannot be scanned has a specificity too, from a rough count of
its characters.
-/

namespace PathOwners

open Glob

/-! ## Counts -/

/-- How often the elements of a pattern occur, those inside its groups included. -/
structure Counts where
  /-- The alternatives of all groups. -/
  alternatives : Nat := 0
  /-- The characters that are no syntax. -/
  literals : Nat := 0
  questionMarks : Nat := 0
  stars : Nat := 0
  deriving DecidableEq, Repr

/-- Two counts taken together. -/
def Counts.add (a b : Counts) : Counts :=
  ⟨a.alternatives + b.alternatives, a.literals + b.literals, a.questionMarks + b.questionMarks, a.stars + b.stars⟩

/-- The literal characters that name a member of a class. -/
def classItemLiterals : ClassItem → Nat
  | .single _ => 1
  | .range _ _ => 2

mutual

/-- The counts of one token. -/
def Counts.ofToken : Token → Counts
  | .literal _ | .separator => { literals := 1 }
  | .star => { stars := 1 }
  | .question => { questionMarks := 1 }
  | .anyDirectories | .anyPath => {}
  | .charClass _ items => { literals := (items.map classItemLiterals).sum }
  | .alternation alternatives =>
    Counts.add { alternatives := alternatives.length } (Counts.ofAlternatives alternatives)

/-- The counts of a sequence of tokens. -/
def Counts.ofTokens : List Token → Counts
  | [] => {}
  | t :: ts => (Counts.ofToken t).add (Counts.ofTokens ts)

/-- The counts of several alternatives. -/
def Counts.ofAlternatives : List (List Token) → Counts
  | [] => {}
  | ts :: rest => (Counts.ofTokens ts).add (Counts.ofAlternatives rest)

end

/-- Whether a character is syntax in a pattern that cannot be scanned. -/
def isSyntax (c : Char) : Bool := ['*', '?', '[', ']', '\x7b', '\x7d', '\\'].contains c

/-- A rough count of the characters of a body that cannot be scanned. -/
def Counts.rough (body : List Char) : Counts where
  literals := body.countP fun c => !isSyntax c
  questionMarks := body.count '?'
  stars := body.count '*'

/-! ## The traits of a pattern -/

/-- The traits of a pattern that its rank depends on. -/
structure Specificity extends Counts where
  /-- The pattern is `*`. -/
  catchAll : Bool
  /-- The pattern is a plain path. -/
  exact : Bool
  /-- The pattern is for a directory. -/
  directory : Bool
  /-- There are two stars in a row. -/
  recursive : Bool
  /-- The last segment ends in a dot and a plain text. -/
  literalExtension : Bool
  /-- The number of segments. -/
  depth : Nat
  deriving DecidableEq, Repr

/-- Whether two stars stand next to each other in a text. -/
def hasDoubleStar : List Char → Bool
  | b :: c :: cs => (b == '*' && c == '*') || hasDoubleStar (c :: cs)
  | _ => false

/-- Whether a token is part of an extension: a literal character other than a dot. -/
def isExtensionPart : Token → Bool
  | .literal c => c != '.'
  | _ => false

/-- Whether a sequence of tokens ends in a dot and at least one literal character. -/
def hasLiteralExtension (tokens : List Token) : Bool :=
  match tokens.reverse.takeWhile isExtensionPart, tokens.reverse.dropWhile isExtensionPart with
  | _ :: _, .literal '.' :: _ => true
  | _, _ => false

/-- Whether every token stands for one character. -/
def isPlain (tokens : List Token) : Bool := tokens.all fun t => t.plain?.isSome

namespace Specificity

/-- The specificity of a pattern whose body was scanned. -/
def ofScanned (catchAll : Bool) (body : Body) (scanned : Scanned) : Specificity where
  toCounts := Counts.ofTokens scanned.tokens
  catchAll := catchAll
  exact := !body.directory && isPlain scanned.tokens
  directory := body.directory
  recursive := scanned.doubleStar
  literalExtension := hasLiteralExtension scanned.tokens
  depth := scanned.tokens.countP Token.isSeparator + 1

/-- The specificity of a pattern whose body cannot be scanned. -/
def ofMalformed (body : Body) : Specificity where
  toCounts := Counts.rough body.text
  catchAll := false
  exact := false
  directory := body.directory
  recursive := hasDoubleStar body.text
  literalExtension := false
  depth := body.text.count '/' + 1

/-- The specificity of a pattern, given as characters. -/
def ofChars (pattern : List Char) : Specificity :=
  let body := Body.ofPattern pattern
  match scan body.text with
  | .ok scanned => ofScanned (isCatchAll pattern) body scanned
  | .error _ => ofMalformed body

/-- The specificity of a pattern. -/
def ofPattern (pattern : String) : Specificity := ofChars pattern.toList

/-! ## The ladder -/

/-- Whether the wildcards alone put `a` above `b`: `a` has a `?`, and `b` has a `*` but no `?`. -/
def prefersWildcards (a b : Specificity) : Bool := a.questionMarks > 0 && b.questionMarks == 0 && b.stars > 0

/-- The order that the wildcards put two patterns in. -/
def compareWildcards (a b : Specificity) : Ordering :=
  if prefersWildcards a b then .gt else if prefersWildcards b a then .lt else .eq

/-- The criteria that decide between two patterns neither of which is a plain path. -/
def compareWild (a b : Specificity) : Ordering :=
  compare b.directory a.directory
    |>.then (compare b.recursive a.recursive)
    |>.then (compare a.literalExtension b.literalExtension)
    |>.then (compare b.alternatives a.alternatives)
    |>.then (compare a.literals b.literals)
    |>.then (compareWildcards a b)
    |>.then (compare a.depth b.depth)

/-- Compares two patterns; `gt` says that the first one is more specific. -/
def rank (a b : Specificity) : Ordering :=
  match a.catchAll, b.catchAll with
  | true, true => .eq
  | true, false => .lt
  | false, true => .gt
  | false, false =>
    match a.exact, b.exact with
    | true, false => .gt
    | false, true => .lt
    | true, true => compare a.depth b.depth
    | false, false => compareWild a b

/-- Whether the first pattern is more specific than the second. -/
def outranks (a b : Specificity) : Bool := rank a b == .gt

end Specificity

/-- Compares two patterns by specificity. -/
def rankPatterns (a b : String) : Ordering := (Specificity.ofPattern a).rank (.ofPattern b)

/-- Whether pattern `a` is more specific than pattern `b`. -/
def moreSpecific (a b : String) : Bool := rankPatterns a b == .gt

end PathOwners
