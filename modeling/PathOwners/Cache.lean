import Std.Data.HashMap
import PathOwners.RuleSet

/-!
# Pattern caches

A cache remembers compiled patterns by the text they were written as, so that each is compiled once. Patterns that
cannot be compiled are remembered as well. No answer depends on what a cache holds.
-/

namespace PathOwners

/-- The patterns asked for so far, with what compiling each of them gave. -/
structure Cache where
  compiled : Std.HashMap String (Except Glob.Error Glob)

namespace Cache

/-- The cache without patterns. -/
def empty : Cache := ⟨∅⟩

/-- The number of patterns in a cache. -/
def size (cache : Cache) : Nat := cache.compiled.size

/-- Whether a cache has no patterns. -/
def isEmpty (cache : Cache) : Bool := cache.size == 0

/-- The compiled form of a pattern, and the cache that has it. -/
def lookup (cache : Cache) (pattern : String) : Except Glob.Error Glob × Cache :=
  match cache.compiled[pattern]? with
  | some glob => (glob, cache)
  | none =>
    let glob := Glob.compile pattern
    (glob, ⟨cache.compiled.insert pattern glob⟩)

/-- Whether a path matches a pattern, and the cache that has the pattern. -/
def pathMatches (cache : Cache) (path pattern : String) : Bool × Cache :=
  let (glob, cache) := cache.lookup pattern
  (Glob.accepts path glob, cache)

/-- The entries of some rules, their patterns looked up one after the other, and the cache that has them all. -/
def entriesOf (cache : Cache) : List Rule → List Entry × Cache
  | [] => ([], cache)
  | rule :: rules =>
    let (glob, cache) := cache.lookup rule.pattern
    let (entries, cache) := entriesOf cache rules
    (.ofCompiled rule glob :: entries, cache)

/-- The rule set of some rules, and the cache that has their patterns. -/
def ruleSetOf (cache : Cache) (rules : List Rule) : RuleSet × Cache :=
  let (entries, cache) := cache.entriesOf rules
  (⟨entries⟩, cache)

end Cache

end PathOwners
