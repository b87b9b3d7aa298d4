import PathOwners.Glob.Expr

/-!
# Plans

How a pattern is checked against a path. Most patterns need no expression: a plain path, a text with one star at its
end or at its start, or a plain directory is recognised by comparing texts.
-/

namespace PathOwners.Glob

/-- How a pattern is checked against a path. -/
inductive Plan where
  /-- Every path matches. -/
  | everything
  /-- The path is this text. -/
  | exactly (text : List Char)
  /-- The path begins with this text, and what follows it has no separator. -/
  | stem (text : List Char)
  /-- The path ends with this text, and what precedes it has no separator. -/
  | ending (text : List Char)
  /-- The path is this directory or below it. -/
  | within (directory : List Char)
  /-- The expression matches the path. -/
  | expression (e : Expr)
  deriving Repr

namespace Plan

/-- The text before a star that ends the tokens, if all else is plain. -/
def stem? (tokens : List Token) : Option (List Char) :=
  match tokens.getLast? with
  | some .star => plainText? tokens.dropLast
  | _ => none

/-- The text after a star that begins the tokens, if all else is plain and within one segment. -/
def ending? (tokens : List Token) : Option (List Char) :=
  match tokens with
  | .star :: rest => (plainText? rest).filter fun text => !text.contains '/'
  | _ => none

/-- The plan of a pattern for files. -/
def ofFile (tokens : List Token) : Except Error Plan :=
  match plainText? tokens, stem? tokens, ending? tokens with
  | some text, _, _ => .ok (.exactly text)
  | none, some text, _ => .ok (.stem text)
  | none, none, some text => .ok (.ending text)
  | none, none, none => (Expr.compile (Expr.ofTokens tokens)).map .expression

/-- The plan of a pattern for a directory. -/
def ofDirectory (tokens : List Token) : Except Error Plan :=
  match plainText? tokens with
  | some text => .ok (.within text)
  | none => (Expr.compile (Expr.ofDirectory tokens)).map .expression

/-- What follows `text` in a path that begins with it. -/
def after? : List Char → List Char → Option (List Char)
  | [], path => some path
  | c :: text, d :: path => if c = d then after? text path else none
  | _ :: _, [] => none

/-- What precedes `text` in a path that ends with it. -/
def before? (text path : List Char) : Option (List Char) := (after? text.reverse path.reverse).map List.reverse

/-- Whether a path, all its separators being `/`, matches a plan. -/
def isMatch (path : List Char) : Plan → Bool
  | .everything => true
  | .exactly text => path == text
  | .stem text => (after? text path).any fun rest => !rest.contains '/'
  | .ending text => (before? text path).any fun rest => !rest.contains '/'
  | .within directory => (after? directory path).any fun rest => rest.isEmpty || rest.head? == some '/'
  | .expression e => e.isMatch path

end Plan

end PathOwners.Glob
