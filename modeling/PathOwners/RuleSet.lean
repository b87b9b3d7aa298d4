import PathOwners.Glob.Basic
import PathOwners.Rule.Line
import PathOwners.Specificity

/-!
# Rule sets

The rules of a file with their patterns compiled, for asking who owns a path. Each rule that matches the path is
compared with the best one before it and takes its place if it is more specific; the rule that is left decides.
-/

namespace PathOwners

/-- A rule with its compiled pattern and the pattern's specificity. -/
structure Entry where
  rule : Rule
  glob : Except Glob.Error Glob
  specificity : Specificity

/-- Whether a path matches the rule of an entry. -/
def Entry.isMatch (path : String) (entry : Entry) : Bool := Glob.accepts path entry.glob

/-- The entry of a rule whose pattern has been compiled. -/
def Entry.ofCompiled (rule : Rule) (glob : Except Glob.Error Glob) : Entry :=
  ⟨rule, glob, .ofPattern rule.pattern⟩

/-- Rules in the order of their file, ready to be asked about paths. -/
structure RuleSet where
  entries : List Entry

namespace RuleSet

/-- The rule set without rules. -/
def empty : RuleSet := ⟨[]⟩

/-- The rule set of a list of rules, taken as they are. -/
def ofRules (rules : List Rule) : RuleSet :=
  ⟨rules.map fun rule => .ofCompiled rule (Glob.compile rule.pattern)⟩

/-- The rule set of the rules in a text. -/
def ofText (text : String) : RuleSet := ofRules (Rule.ofText text)

/-- The rules, in the order of their file. -/
def rules (set : RuleSet) : List Rule := set.entries.map Entry.rule

/-- The entries that match a path, each with its place in the file, in the order of the file. -/
def matching (set : RuleSet) (path : String) : List (Entry × Nat) :=
  set.entries.zipIdx.filter fun entry => entry.1.isMatch path

/-- The better of the best entry so far and the next one: a later entry has to be more specific. -/
def better (best : Option (Entry × Nat)) (next : Entry × Nat) : Option (Entry × Nat) :=
  match best with
  | none => some next
  | some held => if next.1.specificity.outranks held.1.specificity then some next else some held

/-- The entry that decides about a path, with its place in the file. -/
def best? (set : RuleSet) (path : String) : Option (Entry × Nat) := (set.matching path).foldl better none

/-- The rule that decides about a path. -/
def bestMatch? (set : RuleSet) (path : String) : Option Rule := (set.best? path).map fun entry => entry.1.rule

/-- The rules that match a path, each with its place in the file. -/
def matchingRules (set : RuleSet) (path : String) : List (Nat × Rule) :=
  (set.matching path).map fun entry => (entry.2, entry.1.rule)

/-- The owners of a path, if any rule matches it. -/
def ownersOf? (set : RuleSet) (path : String) : Option (List String) := (set.bestMatch? path).map Rule.owners

/-- Every owner that some rule names, once, in the order of first appearance. -/
def owners (set : RuleSet) : List String := (set.rules.flatMap Rule.owners).eraseDups

/-- The error of an entry's pattern, if it has one. -/
def invalidEntry? (entry : Entry) : Option (Rule × Glob.Error) :=
  match entry.glob with
  | .ok _ => none
  | .error e => some (entry.rule, e)

/-- The rules whose pattern cannot be compiled, with the reasons; they match no path. -/
def invalid (set : RuleSet) : List (Rule × Glob.Error) := set.entries.filterMap invalidEntry?

/-- What is known about one path: the rule that decides and its place in the file, the owners, and the places of all
rules that match. -/
structure Resolution where
  place : Option Nat
  rule : Option Rule
  owners : Option (List String)
  matching : List Nat
  deriving DecidableEq, Repr

/-- What a rule set says about a path. -/
def resolve (set : RuleSet) (path : String) : Resolution where
  place := (set.best? path).map Prod.snd
  rule := set.bestMatch? path
  owners := set.ownersOf? path
  matching := (set.matchingRules path).map Prod.fst

/-- All that can be asked of a rule set. -/
structure Description where
  rules : List Rule
  owners : List String
  invalid : List (Rule × Glob.Error)
  paths : List Resolution
  deriving DecidableEq, Repr

/-- What a rule set says about itself and about some paths. -/
def describe (set : RuleSet) (paths : List String) : Description where
  rules := set.rules
  owners := set.owners
  invalid := set.invalid
  paths := paths.map set.resolve

end RuleSet

/-- The most specific rule in a text that matches a path. -/
def findBestMatch (path text : String) : Option Rule := (RuleSet.ofText text).bestMatch? path

end PathOwners
