import PathOwners.Owner
import PathOwners.RuleSet
import PathOwners.Text.Padding

/-!
# Reports

What the command prints about a path, or about the owners that a file names.
-/

namespace PathOwners.Command

/-- What stands in the place of owners where there are none. -/
def unowned : String := "(unowned)"

/-- Some owners, in one text. -/
def ownerList (owners : List String) : String := String.intercalate " " owners

/-- The line for a path and its owners. -/
def bestLine (set : RuleSet) (path : String) : String :=
  Text.Column.set { width := 70 } path ++ "  " ++ ((set.ownersOf? path).map ownerList).getD unowned

/-- The line for a rule that matches a path, with the number of the rule counted from one; a star marks the rule that
decides. -/
def ruleLine (decides : Bool) (place : Nat) (rule : Rule) : String :=
  (if decides then " * rule " else "   rule ") ++
    Text.Column.set { width := 3, alignment := .right } (toString (place + 1)) ++ ": " ++
    Text.Column.set { width := 40 } rule.pattern ++ "  " ++ ownerList rule.owners

/-- The lines for a path and every rule that matches it. -/
def matchLines (set : RuleSet) (path : String) : List String :=
  let best := (set.best? path).map Prod.snd
  match set.matchingRules path with
  | [] => [path, "  " ++ unowned]
  | matching => path :: matching.map fun (place, rule) => ruleLine (best == some place) place rule

/-- A path and every rule that matches it, in one text. -/
def matchText (set : RuleSet) (path : String) : String := String.intercalate "\n" (matchLines set path)

/-- The line for an owner: name, kind and page. -/
def ownerLine (organisation : Option String) (name : String) : String :=
  let owner := Owner.ofName name
  let line := Text.Column.set { width := 40 } owner.name ++ "  " ++
    Text.Column.set { width := 7 } owner.kind.label ++ "  " ++ (owner.page? organisation).getD ""
  String.ofList (Text.trimEnd line.toList)

/-- The lines for all owners that a file names. -/
def ownerLines (set : RuleSet) (organisation : Option String) : List String :=
  set.owners.map (ownerLine organisation)

end PathOwners.Command
