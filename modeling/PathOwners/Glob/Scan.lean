import PathOwners.Glob.Error
import PathOwners.Glob.Token

/-!
# Scanning a body into tokens

The body of a pattern is scanned from left to right, one character at a time. The scan remembers the groups that are
open, the class that is open, a run of stars that may go on, and whether it stands at the start of a segment: only
there is a run of two or more stars a segment of its own.

`scan` is a fold over the characters, so the scan of `s ++ t` is the scan of `t` from where the scan of `s` ended.
-/

namespace PathOwners.Glob

/-! ## The state of a scan -/

/-- Where a scan stands inside a class. -/
inductive ClassPhase where
  /-- Directly after `[`, where `!` or `^` negates the class. -/
  | opening
  /-- Before a member or the closing `]`. -/
  | member
  /-- After a backslash: the next character is a member, whatever it is. -/
  | escaped
  /-- After a member, which a `-` may make the start of a range. -/
  | after (c : Char)
  /-- After a member and a `-`. -/
  | dash (c : Char)
  /-- After a member, a `-` and a backslash. -/
  | escapedEnd (c : Char)
  deriving DecidableEq, Repr

/-- A class that is being read; its members are kept with the latest one first. -/
structure OpenClass where
  start : Nat
  negated : Bool := false
  items : List ClassItem := []
  phase : ClassPhase := .opening
  deriving DecidableEq, Repr

/-- A group that is being read: the offset of its opening brace, whether that stood at the start of a segment, the
tokens before it and its finished alternatives, both with the latest one first. -/
structure OpenGroup where
  start : Nat
  segmentStart : Bool
  before : List Token
  alternatives : List (List Token)
  deriving Repr

/-- What the next character belongs to. -/
inductive Mode where
  | text
  /-- After a backslash. -/
  | escaped
  /-- In a run of stars: one star so far, or more. -/
  | stars (many : Bool)
  | inClass (openClass : OpenClass)
  deriving DecidableEq, Repr

/-- The state of a scan: the bytes read, the tokens of the innermost open alternative (the latest one first), the open
groups (the innermost one first), and whether two stars in a row have been met. -/
structure ScanState where
  offset : Nat := 0
  mode : Mode := .text
  segmentStart : Bool := true
  tokens : List Token := []
  groups : List OpenGroup := []
  doubleStar : Bool := false
  deriving Repr

namespace ScanState

/-! ## Text -/

/-- A token that is part of a segment. -/
def push (token : Token) (s : ScanState) : ScanState :=
  { s with mode := .text, tokens := token :: s.tokens, segmentStart := false }

/-- An opening brace: each alternative begins where the group does. -/
def openGroup (s : ScanState) : ScanState :=
  { s with groups := ⟨s.offset, s.segmentStart, s.tokens, []⟩ :: s.groups, tokens := [] }

/-- A comma: the next alternative of the innermost group, or a plain character outside all groups. -/
def comma (s : ScanState) : ScanState :=
  match s.groups with
  | [] => s.push (.literal ',')
  | g :: gs =>
    { s with
      groups := { g with alternatives := s.tokens.reverse :: g.alternatives } :: gs
      tokens := []
      segmentStart := g.segmentStart }

/-- A closing brace: the end of the innermost group, or a plain character outside all groups. -/
def closeGroup (s : ScanState) : ScanState :=
  match s.groups with
  | [] => s.push (.literal '\x7d')
  | g :: gs =>
    { s with
      groups := gs
      tokens := .alternation (s.tokens.reverse :: g.alternatives).reverse :: g.before
      segmentStart := false }

/-- A character in plain text. -/
def textStep (c : Char) (s : ScanState) : ScanState :=
  match c with
  | '\\' => { s with mode := .escaped }
  | '/' => { s with tokens := .separator :: s.tokens, segmentStart := true }
  | '*' => { s with mode := .stars false }
  | '?' => s.push .question
  | '[' => { s with mode := .inClass { start := s.offset } }
  | '\x7b' => s.openGroup
  | ',' => s.comma
  | '\x7d' => s.closeGroup
  | c => s.push (.literal c)

/-! ## Stars -/

/-- Whether a character ends an alternative. -/
def endsAlternative (c : Char) (s : ScanState) : Bool := (c == ',' || c == '\x7d') && !s.groups.isEmpty

/-- A character after stars. Two or more of them are a whole segment if they stand at the start of one and this
character ends it; otherwise the run means a single star. -/
def starStep (many : Bool) (c : Char) (s : ScanState) : ScanState :=
  if c = '*' then { s with mode := .stars true, doubleStar := true }
  else if many && s.segmentStart && c == '/' then
    { s with mode := .text, tokens := .anyDirectories :: s.tokens }
  else if many && s.segmentStart && s.endsAlternative c then
    textStep c { s with mode := .text, tokens := .anyPath :: s.tokens }
  else textStep c (s.push .star)

/-! ## Classes -/

/-- A class that goes on. -/
def stayInClass (k : OpenClass) (s : ScanState) : ScanState := { s with mode := .inClass k }

/-- A character where a member may begin. A `]` closes a class that has members and is a member of one that has none
yet. -/
def memberStep (k : OpenClass) (c : Char) (s : ScanState) : ScanState :=
  if c = ']' ∧ k.items ≠ [] then s.push (.charClass k.negated k.items.reverse)
  else s.stayInClass { k with phase := if c = '\\' then .escaped else .after c }

/-- The end of a range. -/
def rangeStep (k : OpenClass) (first last : Char) (s : ScanState) : Except Error ScanState :=
  if last < first then .error (.invalidRange first last)
  else .ok (s.stayInClass { k with items := .range first last :: k.items, phase := .member })

/-- A character in a class. A `-` between a member and anything but `]` makes a range. -/
def classStep (k : OpenClass) (c : Char) (s : ScanState) : Except Error ScanState :=
  match k.phase with
  | .opening =>
    .ok <|
      if c = '!' ∨ c = '^' then s.stayInClass { k with negated := true, phase := .member }
      else s.memberStep k c
  | .member => .ok (s.memberStep k c)
  | .escaped => .ok (s.stayInClass { k with phase := .after c })
  | .after m =>
    .ok <|
      if c = '-' then s.stayInClass { k with phase := .dash m }
      else s.memberStep { k with items := .single m :: k.items } c
  | .dash m =>
    if c = ']' then .ok (s.memberStep { k with items := .single '-' :: .single m :: k.items } c)
    else if c = '\\' then .ok (s.stayInClass { k with phase := .escapedEnd m })
    else s.rangeStep k m c
  | .escapedEnd m => s.rangeStep k m c

/-! ## The scan -/

/-- What a character does to a scan, its place in the text aside. -/
def advance (s : ScanState) (c : Char) : Except Error ScanState :=
  match s.mode with
  | .text => .ok (s.textStep c)
  | .escaped => .ok (s.push (.literal c))
  | .stars many => .ok (s.starStep many c)
  | .inClass k => s.classStep k c

/-- One step of a scan. -/
def step (s : ScanState) (c : Char) : Except Error ScanState :=
  (s.advance c).map fun t => { t with offset := s.offset + c.utf8Size }

/-- A scan over the characters of a text. -/
def run (s : ScanState) (text : List Char) : Except Error ScanState := text.foldlM step s

/-- The tokens of the innermost open alternative once the text is over, the latest one first: a run of stars ends here,
and a backslash that escapes nothing is a plain character. -/
def finalTokens (s : ScanState) : List Token :=
  match s.mode with
  | .text | .inClass _ => s.tokens
  | .escaped => .literal '\\' :: s.tokens
  | .stars many => (if many && s.segmentStart then .anyPath else .star) :: s.tokens

end ScanState

/-- What a scan finds: the tokens, and whether two stars stand next to each other anywhere outside classes. -/
structure Scanned where
  tokens : List Token
  doubleStar : Bool
  deriving Repr

/-- The end of a scan: no class and no group may be open. -/
def ScanState.finish (s : ScanState) : Except Error Scanned :=
  match s.mode, s.groups with
  | .inClass k, _ => .error (.unclosedClass k.start)
  | _, g :: _ => .error (.unclosedBrace g.start)
  | _, [] => .ok ⟨s.finalTokens.reverse, s.doubleStar⟩

/-- Scans a text into tokens. -/
def scan (text : List Char) : Except Error Scanned := do (← ScanState.run {} text).finish

end PathOwners.Glob
