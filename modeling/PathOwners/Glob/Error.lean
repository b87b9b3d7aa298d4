/-!
# Pattern errors

Why a pattern has no meaning. Offsets count the bytes of the pattern's body in UTF-8.
-/

namespace PathOwners.Glob

/-- Why a pattern cannot be compiled. -/
inductive Error where
  /-- The class whose `[` stands at the offset is not closed. -/
  | unclosedClass (offset : Nat)
  /-- The group whose opening brace stands at the offset is not closed. -/
  | unclosedBrace (offset : Nat)
  /-- A range of characters ends before it starts. -/
  | invalidRange (first last : Char)
  /-- The expression for the pattern is nested deeper than the limit. -/
  | tooDeep (limit : Nat)
  deriving DecidableEq, Repr

/-- An error in words. -/
def Error.message : Error → String
  | .unclosedClass offset => s!"unclosed character class starting at offset {offset}"
  | .unclosedBrace offset => s!"unclosed brace group starting at offset {offset}"
  | .invalidRange first last => s!"invalid character range `{first}-{last}`"
  | .tooDeep limit => s!"failed to compile pattern: nested deeper than {limit} levels"

end PathOwners.Glob
