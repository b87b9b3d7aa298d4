import PathOwners.Command.Report
import PathOwners.Proofs.Owner.Page
import PathOwners.Proofs.RuleSet.Unbeaten

/-!
# Printed lines

What stands on the lines that the command prints, character by character: the line for a path and its owners
(`IsPathLine`) and the line for an owner with its kind and page (`IsOwnerLine`).
-/

namespace PathOwners.Command

/-! ## Columns -/

/-- The word for a kind of owner. -/
inductive IsKindWord : OwnerKind → String → Prop
  | team : IsKindWord .team "team"
  | user : IsKindWord .user "user"
  | email : IsKindWord .email "email"
  | unknown : IsKindWord .unknown "unknown"

/-- The word for a kind does not end in white space. -/
theorem IsKindWord.last {kind : OwnerKind} {word : String} (h : IsKindWord kind word) :
    word.toList ≠ [] ∧ ∀ c ∈ word.toList.getLast?, Text.isBlank c = false := by
  cases h <;> exact ⟨by decide, fun _ hc => by cases hc; decide⟩

end PathOwners.Command
