import PathOwners.Proofs.Glob.ExprText
import PathOwners.Proofs.Glob.PlanLanguage

/-!
# The meaning of a pattern

Main result:

- `pathMatches_iff`: a pattern matches the paths in the language of the tokens of its body, by whichever plan they are
  looked for, and the text for these tokens is read as an expression with that language.
-/

namespace PathOwners

open Glob

/-- A pattern matches all paths if it is `*`, and otherwise those that its body stands for if it compiles. -/
theorem pathMatches_iff_language (path pattern : String) : pathMatches path pattern = true ↔ pattern = "*" ∨
    ∃ glob scanned, Glob.compile pattern = .ok glob ∧
      scan (Body.ofPattern pattern.toList).text = .ok scanned ∧
      normalizePath path.toList ∈ bodyLanguage (Body.ofPattern pattern.toList).directory scanned.tokens := by
  have hstar : pattern = "*" ↔ isCatchAll pattern.toList = true := by
    rw [isCatchAll_iff, ← String.toList_inj]
    rfl
  rw [pathMatches_iff_planOf, hstar]
  cases hcatchAll : isCatchAll pattern.toList with
  | true => simp [planOf_of_catchAll hcatchAll, Plan.isMatch]
  | false =>
    rw [planOf_isMatch_iff hcatchAll]
    simp only [Bool.false_eq_true, false_or, compile_eq_ok_iff]
    constructor
    · rintro ⟨plan, scanned, hplan, h⟩
      exact ⟨⟨pattern, plan⟩, scanned, ⟨plan, hplan, rfl⟩, h⟩
    · rintro ⟨glob, scanned, ⟨plan, hplan, rfl⟩, h⟩
      exact ⟨plan, scanned, hplan, h⟩

/-- The text for the tokens of a scan is read as an expression with their language, as deep as the one for them. -/
theorem readExpr_of_scan (directory : Bool) {text : List Char} {scanned : Scanned} (h : scan text = .ok scanned) :
    ∃ members, readExpr (bodyText directory scanned.tokens) = some members ∧
      Expr.languageAll members = bodyLanguage directory scanned.tokens ∧
      Expr.maxDepth members = Expr.maxDepth (Expr.ofBody directory scanned.tokens) := by
  obtain ⟨members, hread, halike⟩ := readExpr_bodyText directory (sound_of_scan h)
  exact ⟨members, hread, halike.language.trans (Expr.languageAll_ofBody directory scanned.tokens), halike.depth⟩

/-- **A pattern matches the paths that its body stands for** -/
theorem pathMatches_iff (path pattern : String) :
    (pathMatches path pattern = true ↔ pattern = "*" ∨
      ∃ glob scanned, Glob.compile pattern = .ok glob ∧
        scan (Body.ofPattern pattern.toList).text = .ok scanned ∧
        normalizePath path.toList ∈ bodyLanguage (Body.ofPattern pattern.toList).directory scanned.tokens) ∧
    ∀ scanned, scan (Body.ofPattern pattern.toList).text = .ok scanned →
      let directory := (Body.ofPattern pattern.toList).directory
      ∃ members, readExpr (bodyText directory scanned.tokens) = some members ∧
        Expr.languageAll members = bodyLanguage directory scanned.tokens ∧
        Expr.maxDepth members = Expr.maxDepth (Expr.ofBody directory scanned.tokens) :=
  ⟨pathMatches_iff_language path pattern, fun _ h => readExpr_of_scan _ h⟩

end PathOwners
