/-!
# Tokens of a pattern

A pattern's body as a sequence of tokens: single characters, separators, wildcards, character classes and groups of
alternatives.
-/

namespace PathOwners.Glob

/-- A member of a character class. -/
inductive ClassItem where
  | single (c : Char)
  | range (first last : Char)
  deriving DecidableEq, Repr

/-- Whether a member of a class covers a character. -/
def ClassItem.covers (c : Char) : ClassItem → Bool
  | .single member => c == member
  | .range first last => decide (first ≤ c) && decide (c ≤ last)

/-- An element of a pattern. -/
inductive Token where
  /-- The character itself. -/
  | literal (c : Char)
  /-- A `/` between two segments. -/
  | separator
  /-- Any text within a segment. -/
  | star
  /-- One character other than a separator. -/
  | question
  /-- Two stars or more as a whole segment before a `/`, with that `/`: any number of directories. -/
  | anyDirectories
  /-- Two stars or more as the whole last segment: any text, separators included. -/
  | anyPath
  /-- One character that the items cover or, negated, one that they do not cover and that is no separator. -/
  | charClass (negated : Bool) (items : List ClassItem)
  /-- One of several sequences. -/
  | alternation (alternatives : List (List Token))
  deriving Repr

/-- Whether a token parts two segments. -/
def Token.isSeparator : Token → Bool
  | .separator | .anyDirectories => true
  | _ => false

/-- The character that a token stands for, if it stands for exactly one. -/
def Token.plain? : Token → Option Char
  | .literal c => some c
  | .separator => some '/'
  | _ => none

/-- The text that a sequence of tokens stands for, if it stands for exactly one. -/
def plainText? (tokens : List Token) : Option (List Char) := tokens.mapM Token.plain?

end PathOwners.Glob
