import PathOwners.Text.Alphanumeric
import PathOwners.Text.Split

/-!
# Patterns for values

A directive of the log's filter may ask for the value of a field: by a number, or by a pattern in the usual notation of
regular expressions. Here is decided which texts are such values (`isValue`); the filter of which one is not makes no
sense.

A pattern is read in two layers. The first takes the escapes away: it turns the characters into signs. The second reads
the signs with their groups and classes. Both read one character at a time, so `isPattern` is a fold. A counted
repetition, and all else that needs a closing brace, cannot be written here, since a brace ends the value; nor can a
word boundary be asked for.
-/

namespace PathOwners.Command.ValuePattern

/-! ## Numbers -/

/-- A text without a sign in front. -/
def dropSign : List Char → List Char
  | '+' :: cs | '-' :: cs => cs
  | cs => cs

/-- Whether a text is made of digits. -/
def isDigits (text : List Char) : Bool := text.all Char.isDigit

/-- Whether a text is digits with at most one dot, and at least one digit. -/
def isMantissa (text : List Char) : Bool :=
  match Text.pieces '.' text with
  | [whole] => !whole.isEmpty && isDigits whole
  | [whole, fraction] => !(whole.isEmpty && fraction.isEmpty) && isDigits whole && isDigits fraction
  | _ => false

/-- Whether a text is digits after an optional sign. -/
def isExponent (text : List Char) : Bool := !(dropSign text).isEmpty && isDigits (dropSign text)

/-- Whether a text in lower case is a decimal number without a sign. -/
def isUnsigned (text : List Char) : Bool :=
  match Text.splitFirst? 'e' text with
  | some (mantissa, exponent) => isMantissa mantissa && isExponent exponent
  | none => isMantissa text

/-- Whether a text is a number: a decimal one, an infinity, or the value that is none. -/
def isNumber (text : List Char) : Bool :=
  let unsigned := (dropSign text).map Char.toLower
  isUnsigned unsigned || ["inf", "infinity", "nan"].contains (String.ofList unsigned)

/-! ## Escapes -/

/-- What stands at one place of a pattern once the escapes have been read. -/
inductive Sign where
  /-- A character, which may be syntax. -/
  | plain (c : Char)
  /-- A character that stands for itself. -/
  | literal (c : Char)
  /-- A named set of characters, such as the digits. -/
  | charSet
  /-- The start or the end of the text. -/
  | edge
  deriving DecidableEq, Repr

/-- Where a reader stands in an escape. -/
inductive Escape where
  | outside
  /-- After the backslash. -/
  | begun
  /-- Before so many more digits of a code point. -/
  | hexadecimal (left value : Nat)
  /-- Before the letter of a general category. -/
  | category
  deriving DecidableEq, Repr

/-- The value of a hexadecimal digit. -/
def digitValue? (c : Char) : Option Nat :=
  if c.isDigit then some (c.toNat - '0'.toNat)
  else if 'a' ≤ c.toLower ∧ c.toLower ≤ 'f' then some (c.toLower.toNat - 'a'.toNat + 10)
  else none

/-- The sign of a code point. -/
def codePoint? (code : Nat) : Option Sign := if code.isValidChar then some (.literal (Char.ofNat code)) else none

/-- What a character after a backslash begins or stands for. -/
def escaped? (c : Char) : Option (Escape × Option Sign) :=
  match c with
  | 'x' => some (.hexadecimal 2 0, none)
  | 'u' => some (.hexadecimal 4 0, none)
  | 'U' => some (.hexadecimal 8 0, none)
  | 'p' | 'P' => some (.category, none)
  | 'd' | 'D' | 's' | 'S' | 'w' | 'W' => some (.outside, some .charSet)
  | 'A' | 'z' => some (.outside, some .edge)
  | 'a' => some (.outside, some (.literal '\x07'))
  | 't' => some (.outside, some (.literal '\t'))
  | 'n' => some (.outside, some (.literal '\n'))
  | 'v' => some (.outside, some (.literal '\x0b'))
  | 'f' => some (.outside, some (.literal '\x0c'))
  | 'r' => some (.outside, some (.literal '\r'))
  | c =>
    if c.toNat < 128 && !c.isAlphanum && c != '<' && c != '>' then some (.outside, some (.literal c)) else none

/-- One character of an escape, or outside all escapes: the sign it completes, if any. -/
def Escape.step (escape : Escape) (c : Char) : Option (Escape × Option Sign) :=
  match escape with
  | .outside => some (if c = '\\' then (.begun, none) else (.outside, some (.plain c)))
  | .begun => escaped? c
  | .hexadecimal left value => do
    let value := 16 * value + (← digitValue? c)
    if left ≤ 1 then return (.outside, some (← codePoint? value)) else return (.hexadecimal (left - 1) value, none)
  | .category => if ['c', 'l', 'm', 'n', 'p', 's', 'z'].contains c.toLower then some (.outside, some .charSet) else none

/-! ## Groups and classes -/

/-- Where a reader stands among groups and classes. -/
inductive Place where
  /-- Between the items of a group, or outside all groups, and whether there is an item that can be repeated. -/
  | items (repeatable : Bool)
  /-- After an opening parenthesis. -/
  | groupStart
  /-- After a question mark that begins a group, among its flags, the latest one first. -/
  | flags (seen : List Char)
  /-- After the letter that announces a name. -/
  | announced
  /-- In the name of a group, its latest character first. -/
  | name (read : List Char)
  /-- After an opening bracket. -/
  | classStart
  /-- Among the dashes at the front of a class, where a bracket that closes it is a member if there is none yet. -/
  | dashes (empty : Bool)
  /-- Before a member of a class. -/
  | member
  /-- After a character before a member that, doubled, is an operator. -/
  | operator (c : Char)
  /-- After a member, a character or a set. -/
  | after (c : Option Char)
  /-- After a member and a dash. -/
  | range (c : Option Char)
  deriving DecidableEq, Repr

/-- A pattern that is being read: the escape and the place where the reader stands, the numbers of open groups and of
open classes, and the names of the groups. -/
structure Reading where
  escape : Escape := .outside
  place : Place := .items false
  groups : Nat := 0
  classes : Nat := 0
  names : List (List Char) := []
  deriving DecidableEq, Repr

namespace Reading

/-- The reader at another place. -/
def goTo (r : Reading) (place : Place) : Reading := { r with place := place }

/-- One more open group. -/
def openGroup (r : Reading) : Reading := { r with place := .items false, groups := r.groups + 1 }

/-- One open group less: the group is an item. -/
def closeGroup? (r : Reading) : Option Reading :=
  if r.groups = 0 then none else some { r with place := .items true, groups := r.groups - 1 }

/-- One more open class. -/
def openClass (r : Reading) : Reading := { r with place := .classStart, classes := r.classes + 1 }

/-- One open class less: the outermost class is an item, another one a member. -/
def closeClass (r : Reading) : Reading :=
  { r with place := if r.classes ≤ 1 then .items true else .member, classes := r.classes - 1 }

/-- A sign between items. -/
def itemStep (r : Reading) (repeatable : Bool) (sign : Sign) : Option Reading :=
  match sign with
  | .plain '(' => some (r.goTo .groupStart)
  | .plain ')' => r.closeGroup?
  | .plain '[' => some r.openClass
  | .plain '|' => some (r.goTo (.items false))
  | .plain '?' | .plain '*' | .plain '+' => if repeatable then some r else none
  | .plain '\x7b' => none
  | _ => some (r.goTo (.items true))

/-- The flags that a group can set, and the dash that takes away those after it. -/
def isFlag (c : Char) : Bool := ['i', 'm', 's', 'U', 'u', 'R', 'x', '-'].contains c

/-- A sign among flags: each is there once, and none is missing after the dash. -/
def flagStep (r : Reading) (seen : List Char) (sign : Sign) : Option Reading :=
  match sign with
  | .plain ':' => if seen.head? = some '-' then none else some r.openGroup
  | .plain ')' => if seen = [] ∨ seen.head? = some '-' then none else some (r.goTo (.items false))
  | .plain 'P' => if seen = [] then some (r.goTo .announced) else none
  | .plain '<' => if seen = [] then some (r.goTo (.name [])) else none
  | .plain c => if isFlag c && !seen.contains c then some (r.goTo (.flags (c :: seen))) else none
  | _ => none

/-- Whether a character can be part of a name, at its start or later. -/
def isNameChar (first : Bool) (c : Char) : Bool :=
  c == '_' || (if first then Text.isAlphanumeric c && !c.isDigit
    else Text.isAlphanumeric c || c == '.' || c == '[' || c == ']')

/-- A sign in a name, which no other group may have. -/
def nameStep (r : Reading) (read : List Char) (sign : Sign) : Option Reading :=
  match sign with
  | .plain '>' => if read = [] ∨ read ∈ r.names then none else some { r.openGroup with names := read :: r.names }
  | .plain c => if isNameChar read.isEmpty c then some (r.goTo (.name (c :: read))) else none
  | _ => none

/-- A sign before a member of a class. -/
def memberStep (r : Reading) (sign : Sign) : Option Reading :=
  match sign with
  | .plain ']' => some r.closeClass
  | .plain '[' => some r.openClass
  | .plain '-' => some (r.goTo (.operator '-'))
  | .plain '&' => some (r.goTo (.operator '&'))
  | .plain '~' => some (r.goTo (.operator '~'))
  | .plain c | .literal c => some (r.goTo (.after (some c)))
  | .charSet => some (r.goTo (.after none))
  | .edge => none

/-- A sign at the front of a class. -/
def dashStep (r : Reading) (empty : Bool) (sign : Sign) : Option Reading :=
  if sign = .plain '-' then some (r.goTo (.dashes false))
  else if empty ∧ sign = .plain ']' then some (r.goTo .member)
  else r.memberStep sign

/-- A sign after a member of a class. -/
def afterStep (r : Reading) (c : Option Char) (sign : Sign) : Option Reading :=
  if sign = .plain '-' then some (r.goTo (.range c)) else r.memberStep sign

/-- A sign after a member of a class and a dash. Only characters have ranges between them, and none runs backwards. -/
def rangeStep (r : Reading) (first : Option Char) (sign : Sign) : Option Reading :=
  match sign, first with
  | .plain ']', _ => some r.closeClass
  | .plain '-', _ => some (r.goTo .member)
  | .plain last, some first | .literal last, some first => if first ≤ last then some (r.goTo .member) else none
  | _, _ => none

/-- One sign of a pattern. -/
def signStep (r : Reading) (sign : Sign) : Option Reading :=
  match r.place with
  | .items repeatable => r.itemStep repeatable sign
  | .groupStart => if sign = .plain '?' then some (r.goTo (.flags [])) else r.openGroup.itemStep false sign
  | .flags seen => r.flagStep seen sign
  | .announced => if sign = .plain '<' then some (r.goTo (.name [])) else none
  | .name read => r.nameStep read sign
  | .classStart => if sign = .plain '^' then some (r.goTo (.dashes true)) else r.dashStep true sign
  | .dashes empty => r.dashStep empty sign
  | .member => r.memberStep sign
  | .operator c => if sign = .plain c then some (r.goTo .member) else r.afterStep (some c) sign
  | .after c => r.afterStep c sign
  | .range c => r.rangeStep c sign

/-- One character of a pattern. -/
def step (r : Reading) (c : Char) : Option Reading := do
  let (escape, sign) ← r.escape.step c
  let r := { r with escape := escape }
  match sign with
  | none => return r
  | some sign => r.signStep sign

/-- Whether a pattern can end here: outside all escapes, groups and classes. -/
def isComplete (r : Reading) : Bool :=
  match r.escape, r.place with
  | .outside, .items _ => r.groups == 0
  | _, _ => false

end Reading

/-- Whether a text is a pattern. -/
def isPattern (text : List Char) : Bool := (text.foldlM Reading.step {}).any Reading.isComplete

/-- Whether a text can be asked for as the value of a field. -/
def isValue (text : List Char) : Bool := isNumber text || isPattern text

end PathOwners.Command.ValuePattern
