import PathOwners.Glob.Expr

/-!
# A reader of expressions

The usual syntax in which expressions over characters are written, as far as it is needed for whole paths, and a reader
of it (`readExpr`). Outside brackets some characters are operators and all others stand for themselves; in brackets
others are. After a backslash every ASCII character that is no letter, no digit and no angle bracket stands for itself,
and `A` and `z` are the start and the end of the text. What the reader does not know it refuses.
-/

namespace PathOwners.Glob

/-! ## Characters -/

/-- Whether a character stands for itself outside brackets. -/
def standsOutside (c : Char) : Bool :=
  !(['\\', '.', '+', '*', '?', '(', ')', '|', '[', '\x7b', '^', '$'].contains c)

/-- Whether a character stands for itself in brackets. -/
def standsInside (c : Char) : Bool := !(['\\', '[', ']', '^', '-', '&', '~'].contains c)

/-- Whether a character stands for itself after a backslash. -/
def standsEscaped (c : Char) : Bool := c.toNat < 128 && !c.isAlphanum && c != '<' && c != '>'

/-! ## Readers -/

/-- What can come next in a bracket. -/
inductive BracketPhase where
  /-- After `[`. -/
  | opening
  | member
  /-- After a backslash. -/
  | escaped
  /-- After a character, which may be the start of a range. -/
  | after (c : Char)
  /-- After the first character of a range and the dash. -/
  | dash (first : Char)
  /-- After a backslash at the end of a range. -/
  | escapedEnd (first : Char)

/-- A bracket that is being read; its items are kept with the latest one first. -/
structure OpenBracket where
  negated : Bool := false
  items : List ClassItem := []
  phase : BracketPhase := .opening

/-- What the next character of the text of an expression belongs to. -/
inductive ReaderMode where
  | text
  | escaped
  /-- After `(`. -/
  | opening
  /-- After `(?`. -/
  | unnamed
  /-- After `(?s`. -/
  | flag
  | inBracket (bracket : OpenBracket)
  /-- After the mark of the end. -/
  | ended

/-- A sequence that is being read, with the latest member first, and the finished branches before it. -/
structure OpenBranch where
  members : List Expr := []
  branches : List Expr := []

/-- A reader of the text of an expression: the innermost open branch, and the open groups around it. -/
structure Reader where
  mode : ReaderMode := .text
  /-- Whether `.` is any character, line feeds not excepted. -/
  dotAll : Bool := false
  /-- Whether the mark of the start has been read. -/
  anchored : Bool := false
  branch : OpenBranch := {}
  groups : List OpenBranch := []

/-- The expression of a group that ends after a branch. -/
def OpenBranch.expr (b : OpenBranch) : Expr :=
  match b.branches with
  | [] => .concat b.members.reverse
  | branches => .alt (.concat b.members.reverse :: branches).reverse

namespace Reader

/-- One more member of the sequence. -/
def push (e : Expr) (r : Reader) : Reader :=
  { r with mode := .text, branch := { r.branch with members := e :: r.branch.members } }

/-- A bracket that goes on. -/
def stayInBracket (b : OpenBracket) (r : Reader) : Reader := { r with mode := .inBracket b }

/-- A star after a single place makes it many. -/
def repeatLast (r : Reader) : Option Reader :=
  match r.branch.members with
  | .atom a :: rest => some { r with branch := { r.branch with members := .many a :: rest } }
  | _ => none

/-- A question mark makes what is before it optional; after a repetition it would mean something else. -/
def optionalLast (r : Reader) : Option Reader :=
  match r.branch.members with
  | [] | .many _ :: _ | .optional _ :: _ => none
  | e :: rest => some { r with branch := { r.branch with members := .optional e :: rest } }

/-- The end of a branch. -/
def nextBranch (r : Reader) : Reader :=
  { r with branch := { members := [], branches := .concat r.branch.members.reverse :: r.branch.branches } }

/-- The end of a group. -/
def closeGroup (r : Reader) : Option Reader :=
  match r.groups with
  | [] => none
  | outer :: groups => some { r with groups, branch := { outer with members := .group r.branch.expr :: outer.members } }

/-- A reader that stands outside all groups and before all but one branch. -/
def atTop (r : Reader) : Bool := r.groups.isEmpty && r.branch.branches.isEmpty

/-- A character outside brackets. -/
def textStep (r : Reader) (c : Char) : Option Reader :=
  match c with
  | '\\' => some { r with mode := .escaped }
  | '.' => if r.dotAll then some (r.push (.atom .any)) else none
  | '*' => r.repeatLast
  | '?' => r.optionalLast
  | '|' => some r.nextBranch
  | '(' => some { r with mode := .opening }
  | ')' => r.closeGroup
  | '[' => some (r.stayInBracket {})
  | c => if standsOutside c then some (r.push (.atom (.char c))) else none

/-- A character after a backslash. The start can only be before everything, and the end only outside all groups. -/
def escapedStep (r : Reader) (c : Char) : Option Reader :=
  if c = 'A' then
    if r.atTop && r.branch.members.isEmpty && !r.anchored then some { r with mode := .text, anchored := true } else none
  else if c = 'z' then if r.atTop then some { r with mode := .ended } else none
  else if standsEscaped c then some (r.push (.atom (.char c)))
  else none

/-- A character after `(?`: a group without a number begins, or `.` is made any character from here on. -/
def unnamedStep (r : Reader) (c : Char) : Option Reader :=
  if c = ':' then some { r with mode := .text, branch := {}, groups := r.branch :: r.groups }
  else if c = 's' then if r.atTop then some { r with mode := .flag } else none
  else none

/-- A character where an item may begin. -/
def itemStep (b : OpenBracket) (r : Reader) (c : Char) : Option Reader :=
  if c = ']' then
    if b.items.isEmpty then none else some (r.push (.atom (.bracket b.negated b.items.reverse)))
  else if c = '\\' then some (r.stayInBracket { b with phase := .escaped })
  else if standsInside c then some (r.stayInBracket { b with phase := .after c })
  else none

/-- The end of a range. -/
def rangeStep (b : OpenBracket) (r : Reader) (first last : Char) : Option Reader :=
  if last < first then none
  else some (r.stayInBracket { b with items := .range first last :: b.items, phase := .member })

/-- A character in a bracket. -/
def bracketStep (b : OpenBracket) (r : Reader) (c : Char) : Option Reader :=
  match b.phase with
  | .opening => if c = '^' then some (r.stayInBracket { b with negated := true, phase := .member }) else r.itemStep b c
  | .member => r.itemStep b c
  | .escaped => if standsEscaped c then some (r.stayInBracket { b with phase := .after c }) else none
  | .after m =>
    if c = '-' then some (r.stayInBracket { b with phase := .dash m })
    else r.itemStep { b with items := .single m :: b.items } c
  | .dash m =>
    if c = '\\' then some (r.stayInBracket { b with phase := .escapedEnd m })
    else if standsInside c then r.rangeStep b m c
    else none
  | .escapedEnd m => if standsEscaped c then r.rangeStep b m c else none

/-- One step of a reader. -/
def step (r : Reader) (c : Char) : Option Reader :=
  match r.mode with
  | .text => r.textStep c
  | .escaped => r.escapedStep c
  | .opening => if c = '?' then some { r with mode := .unnamed } else none
  | .unnamed => r.unnamedStep c
  | .flag => if c = ')' then some { r with mode := .text, dotAll := true } else none
  | .inBracket b => r.bracketStep b c
  | .ended => none

/-- A reader over the characters of a text. -/
def run (r : Reader) (text : List Char) : Option Reader := text.foldlM step r

/-- The members of the expression at the end of a text that has both its marks. -/
def finish (r : Reader) : Option (List Expr) :=
  match r.mode with
  | .ended => if r.anchored then some r.branch.members.reverse else none
  | _ => none

end Reader

/-- The members of the expression for a whole path that a text is for. -/
def readExpr (text : List Char) : Option (List Expr) := (Reader.run {} text).bind Reader.finish

/-- A line feed is any character after `(?s)`, and two members are optional in different ways. -/
example : readExpr "(?s)\\A(?:.*/)?[^/]*\\.c?\\z".toList =
    some [.optional (.group (.concat [.many .any, .atom (.char '/')])), .many (.bracket true [.single '/']),
      .atom (.char '.'), .optional (.atom (.char 'c'))] := rfl

/-- Without `(?s)` a dot is refused, and so is a repetition that is not greedy. -/
example : readExpr "\\A.*\\z".toList = none ∧ readExpr "(?s)\\A.*?\\z".toList = none := ⟨rfl, rfl⟩

end PathOwners.Glob
