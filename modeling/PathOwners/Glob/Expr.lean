import PathOwners.Glob.Error
import PathOwners.Glob.Token

/-!
# Expressions

The general form of a compiled pattern: an expression over characters, built from the tokens of the pattern and matched
against a whole path. `Expr.depth` measures how deep an expression is nested, and `Expr.compile` refuses one that is
nested deeper than `depthLimit`.

A match is decided without trying one way after another. The places of a path, one before each character and one at the
end, are marked or not; an expression carries the marks from the places where it may begin to the places where it may
end. So the work is the size of the expression times the length of the path.
-/

namespace PathOwners.Glob

/-! ## Expressions and their depth -/

/-- What an expression accepts in one place. -/
inductive Atom where
  | char (c : Char)
  | any
  | bracket (negated : Bool) (items : List ClassItem)
  deriving DecidableEq, Repr

/-- Whether an atom accepts a character. -/
def Atom.accepts (c : Char) : Atom → Bool
  | .char d => c == d
  | .any => true
  | .bracket negated items => (items.any (·.covers c)) != negated

/-- Any character but a separator. -/
def Atom.inSegment : Atom := .bracket true [.single '/']

/-- An expression over characters. -/
inductive Expr where
  | atom (a : Atom)
  /-- Any number of characters that the atom accepts. -/
  | many (a : Atom)
  | optional (e : Expr)
  | group (e : Expr)
  /-- The members, one after the other. -/
  | concat (members : List Expr)
  /-- One of the members. -/
  | alt (members : List Expr)
  deriving Repr

/-- The level that a node with this many members adds: one only joins them if there are two or more. -/
def joinDepth (count : Nat) : Nat := if 2 ≤ count then 1 else 0

/-- The levels of an atom: a bracket is one, and a list of items in it another. -/
def Atom.depth : Atom → Nat
  | .char _ | .any => 0
  | .bracket _ items => 1 + joinDepth items.length

mutual

/-- The number of levels of an expression. -/
def Expr.depth : Expr → Nat
  | .atom a => a.depth
  | .many a => 1 + a.depth
  | .optional e => 1 + e.depth
  | .group e => 1 + e.depth
  | .concat es => joinDepth es.length + Expr.maxDepth es
  | .alt es => joinDepth es.length + Expr.maxDepth es

/-- The number of levels of the deepest of several expressions. -/
def Expr.maxDepth : List Expr → Nat
  | [] => 0
  | e :: es => max e.depth (Expr.maxDepth es)

end

/-- The number of levels that an expression may have. -/
def depthLimit : Nat := 250

/-- The expression for a whole path: the members one after the other, under one more level, unless that is too deep. -/
def Expr.compile (members : List Expr) : Except Error Expr :=
  if 1 + Expr.maxDepth members > depthLimit then .error (.tooDeep depthLimit) else .ok (.concat members)

/-! ## Matching -/

/-- The marks after one character that the atom accepts. -/
def Atom.move (a : Atom) (path : List Char) (marks : List Bool) : List Bool :=
  false :: List.zipWith (fun c mark => mark && a.accepts c) path marks

/-- The marks after any number of characters that the atom accepts; `carried` says whether a run of them reaches the
first place from before it. -/
def Atom.spread (a : Atom) (carried : Bool) : List Char → List Bool → List Bool
  | _, [] => []
  | [], mark :: _ => [mark || carried]
  | c :: path, mark :: marks => (mark || carried) :: a.spread ((mark || carried) && a.accepts c) path marks

/-- The places that are marked on one side or the other. -/
def joinMarks (left right : List Bool) : List Bool := List.zipWith or left right

mutual

/-- The places where an expression may end that begins at a marked place. -/
def Expr.advance (path : List Char) : Expr → List Bool → List Bool
  | .atom a, marks => a.move path marks
  | .many a, marks => a.spread false path marks
  | .optional e, marks => joinMarks marks (e.advance path marks)
  | .group e, marks => e.advance path marks
  | .concat es, marks => Expr.advanceAll path es marks
  | .alt es, marks => Expr.advanceAny path es marks

/-- The places where a sequence of expressions may end. -/
def Expr.advanceAll (path : List Char) : List Expr → List Bool → List Bool
  | [], marks => marks
  | e :: es, marks => Expr.advanceAll path es (e.advance path marks)

/-- The places where one of several expressions may end. -/
def Expr.advanceAny (path : List Char) : List Expr → List Bool → List Bool
  | [], marks => marks.map fun _ => false
  | e :: es, marks => joinMarks (e.advance path marks) (Expr.advanceAny path es marks)

end

/-- Whether an expression matches a whole path. -/
def Expr.isMatch (e : Expr) (path : List Char) : Bool :=
  (e.advance path (true :: path.map fun _ => false)).getLast? == some true

/-! ## From tokens -/

mutual

/-- The expression for a token. -/
def Expr.ofToken : Token → Expr
  | .literal c => .atom (.char c)
  | .separator => .atom (.char '/')
  | .star => .many .inSegment
  | .question => .atom .inSegment
  | .anyDirectories => .optional (.group (.concat [.many .any, .atom (.char '/')]))
  | .anyPath => .many .any
  | .charClass false items => .atom (.bracket false items)
  | .charClass true items => .atom (.bracket true (.single '/' :: items))
  | .alternation alternatives => .group (.alt (Expr.ofAlternatives alternatives))

/-- The expressions for a sequence of tokens, one for each. -/
def Expr.ofTokens : List Token → List Expr
  | [] => []
  | t :: ts => Expr.ofToken t :: Expr.ofTokens ts

/-- The expressions for several alternatives, one for each. -/
def Expr.ofAlternatives : List (List Token) → List Expr
  | [] => []
  | ts :: rest => .concat (Expr.ofTokens ts) :: Expr.ofAlternatives rest

end

/-- The members of the expression for a directory and all that is below it. -/
def Expr.ofDirectory (tokens : List Token) : List Expr :=
  [.group (.concat (Expr.ofTokens tokens)), .optional (.group (.concat [.atom (.char '/'), .many .any]))]

end PathOwners.Glob
