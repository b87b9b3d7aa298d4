/-!
# Ownership rules

A rule gives the paths that match its pattern to its owners.
-/

namespace PathOwners

/-- A pattern and the owners of the paths it matches, as they were written and in that order. -/
structure Rule where
  pattern : String
  owners : List String
  deriving DecidableEq, Repr

end PathOwners
