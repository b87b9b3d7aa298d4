import PathOwners.Proofs.Glob.Body
import PathOwners.Proofs.Specificity.Standing

/-!
# The criteria before the wildcards

All that the ladder can ask of a pattern before its wildcards and its depth, in one lexicographic value
(`Specificity.criteria`). The standing leaves most of it out for `*` and for plain paths. Among the patterns that match
one path this makes no difference (`sameCriteria_of_standing_eq`), for such a pattern is `*` itself if it is for all
paths (`catchAll_iff`), and all plain paths that match a path have one specificity, that of the path
(`ofPattern_of_exact`).
-/

namespace PathOwners

open Glob

namespace Specificity

/-! ## Criteria -/

/-- What the ladder asks before the wildcards, in its order and the better value the greater: not being `*`, being a
plain path, being for files, having no `**`, having a literal extension, the alternatives, fewer first, and the literal
characters. -/
def criteria (s : Specificity) : Bool ×ₗ Bool ×ₗ Bool ×ₗ Bool ×ₗ Bool ×ₗ Natᵒᵈ ×ₗ Nat :=
  toLex (!s.catchAll, toLex (s.exact, toLex (!s.directory, toLex (!s.recursive, toLex (s.literalExtension,
    toLex (.toDual s.alternatives, s.literals))))))

/-- Two patterns that agree in all that the ladder asks before the wildcards. -/
structure SameCriteria (a b : Specificity) : Prop where
  catchAll : a.catchAll = b.catchAll
  exact : a.exact = b.exact
  directory : a.directory = b.directory
  recursive : a.recursive = b.recursive
  literalExtension : a.literalExtension = b.literalExtension
  alternatives : a.alternatives = b.alternatives
  literals : a.literals = b.literals

variable {a b : Specificity}

theorem SameCriteria.refl (a : Specificity) : SameCriteria a a := ⟨rfl, rfl, rfl, rfl, rfl, rfl, rfl⟩

theorem SameCriteria.criteria_eq (h : SameCriteria a b) : a.criteria = b.criteria := by
  unfold criteria
  rw [h.catchAll, h.exact, h.directory, h.recursive, h.literalExtension, h.alternatives, h.literals]

theorem SameRung.sameCriteria (h : SameRung a b) : SameCriteria a b :=
  ⟨h.left.1.trans h.right.1.symm, h.left.2.trans h.right.2.symm, h.directory, h.recursive, h.literalExtension,
    h.alternatives, h.literals⟩

/-- A standing that is decided is decided by the criteria in the same way. -/
theorem criteria_lt_of_standing_lt (h : a.standing < b.standing) : a.criteria < b.criteria := by
  revert h
  unfold standing criteria
  cases a.catchAll <;> cases b.catchAll <;> cases a.exact <;> cases b.exact <;>
    simp [Prod.Lex.toLex_lt_toLex]

/-- The first part of a standing tells `*`, plain paths and other patterns apart. -/
theorem standing_kind (s : Specificity) :
    (ofLex s.standing).1 = if s.catchAll then 0 else if s.exact then 2 else 1 := by
  unfold standing
  split_ifs <;> rfl

theorem kind_of_standing_eq (h : a.standing = b.standing) :
    a.catchAll = b.catchAll ∧ (a.catchAll = false → a.exact = b.exact) := by
  have hkind := standing_kind a
  rw [h, standing_kind b] at hkind
  revert hkind
  cases a.catchAll <;> cases b.catchAll <;> cases a.exact <;> cases b.exact <;> simp

/-! ## Patterns for all paths -/

theorem ofChars_star : (ofChars ['*']).catchAll = true ∧ (ofChars ['*']).exact = false := by decide

theorem catchAll_iff_isCatchAll (pattern : List Char) :
    (ofChars pattern).catchAll = true ↔ isCatchAll pattern = true := by
  constructor
  · intro h
    unfold ofChars at h
    dsimp only at h
    split at h
    · exact h
    · cases h
  · intro h
    obtain rfl := (isCatchAll_iff pattern).mp h
    exact ofChars_star.1

/-- Only `*` stands below all other patterns. -/
theorem catchAll_iff (pattern : String) : (ofPattern pattern).catchAll = true ↔ pattern = "*" := by
  rw [ofPattern, catchAll_iff_isCatchAll, isCatchAll_iff, ← String.toList_inj]
  rfl

/-! ## Plain paths -/

/-- The specificity of a path as a pattern. -/
def ofPath (path : List Char) : Specificity := ofScanned false ⟨path, false⟩ ⟨path.map plainToken, false⟩

theorem exists_plainText {tokens : List Token} (h : isPlain tokens = true) : ∃ text, plainText? tokens = some text := by
  induction tokens with
  | nil => exact ⟨[], rfl⟩
  | cons t tokens ih =>
    obtain ⟨ht, htokens⟩ := List.forall_mem_cons.mp (List.all_eq_true.mp h)
    obtain ⟨c, hc⟩ := Option.isSome_iff_exists.mp ht
    obtain ⟨text, htext⟩ := ih (List.all_eq_true.mpr htokens)
    rw [plainText?] at htext
    exact ⟨c :: text, by simp [plainText?, List.mapM_cons, hc, htext]⟩

/-- A pattern that is a plain path has a body for files whose tokens are plain. -/
theorem exists_scanned_of_exact {pattern : List Char} (h : (ofChars pattern).exact = true) :
    ∃ scanned, scan (Body.ofPattern pattern).text = .ok scanned ∧ (Body.ofPattern pattern).directory = false ∧
      isPlain scanned.tokens = true ∧ ofChars pattern = ofScanned false (Body.ofPattern pattern) scanned := by
  have hcatchAll : isCatchAll pattern = false := by
    rw [← Bool.not_eq_true, isCatchAll_iff]
    rintro rfl
    rw [ofChars_star.2] at h
    cases h
  cases hscan : scan (Body.ofPattern pattern).text with
  | error e =>
    simp only [ofChars, hscan] at h
    cases h
  | ok scanned =>
    have hspecificity : ofChars pattern = ofScanned false (Body.ofPattern pattern) scanned := by
      simp only [ofChars, hscan, hcatchAll]
    have hexact : (!(Body.ofPattern pattern).directory && isPlain scanned.tokens) = true := by
      rw [hspecificity] at h
      exact h
    obtain ⟨hfile, hplain⟩ := Bool.and_eq_true_iff.mp hexact
    exact ⟨scanned, rfl, by simpa using hfile, hplain, hspecificity⟩

/-- **A plain path that matches a path has the specificity of the path.** -/
theorem ofPattern_of_exact {path pattern : String} (hexact : (ofPattern pattern).exact = true)
    (hmatch : pathMatches path pattern = true) : ofPattern pattern = ofPath (normalizePath path.toList) := by
  obtain ⟨scanned, hscan, hfile, hplain, hspecificity⟩ := exists_scanned_of_exact hexact
  obtain ⟨text, htext⟩ := exists_plainText hplain
  have hscanned : scanned = ⟨text.map plainToken, false⟩ := scanned_of_plainText (normalize_bodyText _) hscan htext
  have hcatchAll : isCatchAll pattern.toList = false := by
    rw [← Bool.not_eq_true, ← catchAll_iff_isCatchAll, hspecificity]
    simp [ofScanned]
  obtain ⟨_, scanned', -, hscan', hlanguage⟩ :=
    (planOf_isMatch_iff hcatchAll).mp ((pathMatches_iff_planOf path pattern).mp hmatch)
  obtain rfl : scanned = scanned' := Except.ok.inj (hscan.symm.trans hscan')
  rw [hfile, bodyLanguage, if_neg Bool.false_ne_true, sequenceLanguage_of_plainText htext] at hlanguage
  obtain rfl : normalizePath path.toList = text := hlanguage
  rw [ofPattern, hspecificity, hscanned]
  simp only [ofPath, ofScanned, hfile]

/-! ## Patterns that match one path -/

/-- **Of the patterns that match a path, two of one standing agree in all criteria before the wildcards.** -/
theorem sameCriteria_of_standing_eq {path p q : String} (hp : pathMatches path p = true)
    (hq : pathMatches path q = true) (h : (ofPattern p).standing = (ofPattern q).standing) :
    SameCriteria (ofPattern p) (ofPattern q) := by
  by_cases hwild : (ofPattern p).IsWild
  · exact (sameRung_iff.mpr ⟨hwild, h⟩).sameCriteria
  · obtain ⟨hcatchAll, hexact⟩ := kind_of_standing_eq h
    cases hpc : (ofPattern p).catchAll with
    | true =>
      have hqc : (ofPattern q).catchAll = true := hcatchAll ▸ hpc
      rw [(catchAll_iff p).mp hpc, (catchAll_iff q).mp hqc]
      exact SameCriteria.refl _
    | false =>
      have hpe : (ofPattern p).exact = true := by simpa [IsWild, hpc] using hwild
      have hqe : (ofPattern q).exact = true := hexact hpc ▸ hpe
      rw [ofPattern_of_exact hpe hp, ofPattern_of_exact hqe hq]
      exact SameCriteria.refl _

/-- Of the patterns that match a path, the one with the better standing is the better by the criteria. -/
theorem criteria_le_of_standing_le {path p q : String} (hp : pathMatches path p = true)
    (hq : pathMatches path q = true) (h : (ofPattern p).standing ≤ (ofPattern q).standing) :
    (ofPattern p).criteria ≤ (ofPattern q).criteria := by
  rcases h.lt_or_eq with h | h
  · exact (criteria_lt_of_standing_lt h).le
  · exact (sameCriteria_of_standing_eq hp hq h).criteria_eq.le

end Specificity

end PathOwners
