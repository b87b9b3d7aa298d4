import PathOwners.Glob.Body
import PathOwners.Glob.Plan
import PathOwners.Glob.Scan

/-!
# Patterns

A pattern is compiled once and then asked about any number of paths. A path is given from the root of the tree, and a
backslash in it separates directories as `/` does. A pattern that cannot be compiled matches no path.
-/

namespace PathOwners

/-- A compiled pattern: the text it was written as, and the plan for it. -/
structure Glob where
  pattern : String
  plan : Glob.Plan
  deriving Repr

namespace Glob

/-- The plan of a pattern, given as characters. -/
def planOf (pattern : List Char) : Except Error Plan :=
  if isCatchAll pattern then .ok .everything
  else
    let body := Body.ofPattern pattern
    do
      let scanned ← scan body.text
      if body.directory then Plan.ofDirectory scanned.tokens else Plan.ofFile scanned.tokens

/-- Compiles a pattern. -/
def compile (pattern : String) : Except Error Glob := (planOf pattern.toList).map (Glob.mk pattern)

/-- Whether a path matches a compiled pattern. -/
def isMatch (glob : Glob) (path : String) : Bool := glob.plan.isMatch (normalizePath path.toList)

/-- Whether a path matches a pattern that may have failed to compile. -/
def accepts (path : String) : Except Error Glob → Bool
  | .ok glob => glob.isMatch path
  | .error _ => false

end Glob

/-- Whether a path matches a pattern. -/
def pathMatches (path pattern : String) : Bool := Glob.accepts path (Glob.compile pattern)

end PathOwners
