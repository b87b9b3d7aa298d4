import PathOwners.Command.Log.Event
import PathOwners.Command.Log.ValuePattern
import PathOwners.Text.Blank
import PathOwners.Text.Split

/-!
# Directives of the log's filter

A directive says down to which level events are shown: all events (`debug`), those whose target begins with a given one
(`codeowners=debug`), or, in brackets and braces, those with a field of a given name (`[{path}]=debug`). What names a
span, or asks for the value of a field, is about spans alone, of which this program has none (`[reading]=debug`,
`[{path=a}]=debug`). A directive without a level shows everything.
-/

namespace PathOwners.Command

/-- Which events are shown, down to a verbosity. -/
structure Directive where
  /-- The beginning of the target of the events, if not all are meant. -/
  target : Option (List Char) := none
  /-- The name of a field that the events must have. -/
  field : Option (List Char) := none
  /-- The directive is about spans, and says nothing about events. -/
  onlySpans : Bool := false
  verbosity : Nat := Level.trace.verbosity
  deriving DecidableEq, Repr

namespace Directive

/-! ## Levels -/

/-- The verbosity that a number stands for. Its digits may have a plus sign in front. -/
def numberedVerbosity? (digits : List Char) : Option Nat :=
  let number := if digits.head? = some '+' then digits.tail else digits
  if number = [] ∨ !number.all Char.isDigit then none
  else
    match number.dropWhile (· == '0') with
    | [] => some 0
    | ['1'] => some 1
    | ['2'] => some 2
    | ['3'] => some 3
    | ['4'] => some 4
    | ['5'] => some 5
    | _ => none

/-- The verbosity that a word stands for, in capitals or not. -/
def namedVerbosity? (word : List Char) : Option Nat :=
  match String.ofList (word.map Char.toLower) with
  | "off" => some 0
  | "error" => some Level.error.verbosity
  | "warn" => some Level.warn.verbosity
  | "info" => some Level.info.verbosity
  | "debug" => some Level.debug.verbosity
  | "trace" => some Level.trace.verbosity
  | _ => none

/-- The verbosity that a text stands for. -/
def verbosity? (text : List Char) : Option Nat := (numberedVerbosity? text).or (namedVerbosity? text)

/-! ## Reading -/

/-- The part of a text after its first bytes; `none` if these end within a character. -/
def dropBytes? : Nat → List Char → Option (List Char)
  | 0, cs => some cs
  | _ + 1, [] => none
  | count + 1, c :: cs => if c.utf8Size ≤ count + 1 then dropBytes? (count + 1 - c.utf8Size) cs else none

/-- The part of a text that is its first bytes; `none` if these end within a character. -/
def takeBytes? : Nat → List Char → Option (List Char)
  | 0, _ => some []
  | _ + 1, [] => none
  | count + 1, c :: cs =>
    if c.utf8Size ≤ count + 1 then (takeBytes? (count + 1 - c.utf8Size) cs).map (c :: ·) else none

/-- The part of a text between two offsets in bytes. -/
def cut? (text : List Char) (start stop : Nat) : Option (List Char) :=
  (dropBytes? start text).bind (takeBytes? (stop - start))

/-- Where a reader stands in a directive; a part that is being read is known by the offset of its start. -/
inductive Phase where
  | start
  /-- In the first part, which is a target or a level. -/
  | first
  /-- In the name of a span, after an opening bracket. -/
  | span (start : Nat)
  /-- In a field, after an opening brace. -/
  | field (start : Nat)
  /-- After a closing brace. -/
  | afterField
  /-- After a closing bracket. -/
  | afterSpan
  | level (start : Nat)
  deriving DecidableEq, Repr

/-- A directive that is being read: the bytes read so far, where the reader stands, and what is known. -/
structure Reading where
  offset : Nat := 0
  phase : Phase := .start
  directive : Directive := {}
  deriving DecidableEq, Repr

/-- Whether a character can begin a directive without brackets. -/
def beginsFirst (c : Char) : Bool := Text.isAlphanumeric c || c == '-' || c == ':' || c == '_'

/-- A directive with a field: its name, and the value it must have if there is one after `=`. -/
def withField? (directive : Directive) (field : List Char) : Option Directive :=
  match Text.pieces '=' field with
  | name :: value :: _ =>
    if ValuePattern.isValue value then some { directive with field := some name, onlySpans := true } else none
  | _ => if field = [] then none else some { directive with field := some field }

/-- What a character does to a reading, its place in the text aside. Parts are cut out of `text`. -/
def Reading.advance (text : List Char) (r : Reading) (c : Char) : Option Reading :=
  match r.phase with
  | .start =>
    if c = '[' then some { r with phase := .span (r.offset + 1) }
    else if beginsFirst c then some { r with phase := .first }
    else none
  | .first =>
    if c = '=' ∨ c = '[' then do
      let target ← cut? text 0 r.offset
      let phase := if c = '=' then Phase.level (r.offset + 1) else .span (r.offset + 1)
      return { r with phase := phase, directive := { r.directive with target := some target } }
    else some r
  | .span start =>
    if c = ']' then some { r with phase := .afterSpan, directive := { r.directive with onlySpans := true } }
    else if c = '\x7b' then
      let named := start < r.offset
      some { r with phase := .field (r.offset + 1), directive := { r.directive with onlySpans := named } }
    else some r
  | .field start =>
    if c = '\x7d' then do
      return { r with phase := .afterField, directive := ← withField? r.directive (← cut? text start r.offset) }
    else some r
  | .afterField => if c = ']' then some { r with phase := .afterSpan } else none
  | .afterSpan => if c = '=' then some { r with phase := .level (r.offset + 1) } else none
  | .level _ => some r

/-- One step of a reading. -/
def Reading.step (text : List Char) (r : Reading) (c : Char) : Option Reading :=
  (r.advance text c).map fun next => { next with offset := r.offset + c.utf8Size }

/-- The end of a reading. -/
def Reading.finish? (text : List Char) (r : Reading) : Option Directive :=
  match r.phase with
  | .first =>
    match verbosity? text with
    | some verbosity => some { verbosity := verbosity }
    | none => some { target := some text }
  | .level start => do
    match ← dropBytes? start text with
    | [] => return r.directive
    | level => return { r.directive with verbosity := ← verbosity? level }
  | .afterSpan => some r.directive
  | _ => none

/-- The directive that a text stands for. White space around it is passed over, but offsets count from its first other
character while parts are cut from its start: so white space in front shifts every part, and a word that has white
space beside it is no level but a target. -/
def ofChars? (text : List Char) : Option Directive := do
  ((← (Text.trim text).foldlM (Reading.step text) {}).finish? text)

/-! ## Events -/

/-- Whether a directive is about an event: one with a target that begins as asked for, and with the field. -/
def concerns (directive : Directive) (event : Event) : Bool :=
  !directive.onlySpans && directive.target.all (·.isPrefixOf event.target.toList) &&
    directive.field.all fun name => event.fieldNames.contains (String.ofList name)

/-- Compares two directives that are about one event; `gt` says that the first one is more specific. A longer target
counts most, then a field, and of two fields the name that comes later in alphabetical order. -/
def compareDetail (a b : Directive) : Ordering :=
  compare (a.target.elim 0 (·.length + 1)) (b.target.elim 0 (·.length + 1))
    |>.then (compare (String.ofList (a.field.getD [])) (String.ofList (b.field.getD [])))

end Directive

end PathOwners.Command
