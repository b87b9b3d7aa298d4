import PathOwners.Proofs.Specificity.Standing

/-!
# How far the ranking is an order

No pattern ranks above itself and no two rank above each other. Ranks and ties pass along three patterns with one
exception (`moreSpecific_order`): the three agree in every criterion before the wildcards, and one of them has a `?`,
one only `*`, and one neither. The first ranks above the second whatever their depths, but the third is compared with
both by depth alone, so three such patterns can rank above one another in a circle.
-/

namespace PathOwners

namespace Specificity

variable {a b c : Specificity}

/-! ## Where the wildcards break a chain -/

/-- Three patterns, undecided before the wildcards, of which the first ranks above the second and the second above the
third, but not the first above the third: the third is as deep as the first or deeper and the wildcards do not tell them
apart, or the first has only `*` and the third a `?`. -/
structure Crossed (a b c : Specificity) : Prop where
  left : SameRung a b
  right : SameRung b c
  wildcards :
    a.wildcards = .question ∧ b.wildcards = .star ∧ c.wildcards = .neither ∧ a.depth ≤ c.depth ∨
    a.wildcards = .star ∧ b.wildcards = .neither ∧ c.wildcards = .question ∨
    a.wildcards = .neither ∧ b.wildcards = .question ∧ c.wildcards = .star ∧ a.depth ≤ c.depth

/-- Three patterns, undecided before the wildcards, of which the second has neither wildcard, one of the others a `?`
and the other only `*`. -/
structure Parted (a b c : Specificity) : Prop where
  left : SameRung a b
  right : SameRung b c
  wildcards : b.wildcards = .neither ∧
    (a.wildcards = .question ∧ c.wildcards = .star ∨ a.wildcards = .star ∧ c.wildcards = .question)

/-! ## Ranks -/

theorem rank_self_ne_gt (a : Specificity) : rank a a ≠ .gt := by
  rw [Ne, rank_gt_iff]
  cases a.askedWildcards <;> simp [Wildcards.compare]

theorem rank_asymm (h : rank a b = .gt) : rank b a ≠ .gt := by
  intro h'
  rw [rank_gt_iff] at h h'
  rcases h with h | ⟨hs, h⟩ <;> rcases h' with h' | ⟨hs', h'⟩
  · exact lt_asymm h h'
  · exact h.ne hs'
  · exact h'.ne hs
  · revert h h'
    cases a.askedWildcards <;> cases b.askedWildcards <;> simp [Wildcards.compare] <;> omega

/-- A standing that is decided along a chain is decided at its ends. -/
theorem standing_lt_of_chain (hab : rank a b = .gt) (hbc : rank b c = .gt)
    (h : ¬(a.standing = b.standing ∧ b.standing = c.standing)) : c.standing < a.standing := by
  rw [rank_gt_iff] at hab hbc
  rcases hab with hab | ⟨hab, -⟩ <;> rcases hbc with hbc | ⟨hbc, -⟩
  · exact hbc.trans hab
  · exact hbc ▸ hab
  · exact hab ▸ hbc
  · exact absurd ⟨hab, hbc⟩ h

/-- **Ranks pass along three patterns unless these are crossed.** -/
theorem rank_trans_iff (hab : rank a b = .gt) (hbc : rank b c = .gt) : rank a c = .gt ↔ ¬Crossed a b c := by
  by_cases hs : a.standing = b.standing ∧ b.standing = c.standing
  · have hac : a.standing = c.standing := hs.1.trans hs.2
    by_cases ha : a.IsWild
    · have h₁ : SameRung a b := sameRung_iff.2 ⟨ha, hs.1⟩
      have h₂ : SameRung b c := sameRung_iff.2 ⟨h₁.right, hs.2⟩
      have hx : Crossed a b c ↔ _ := ⟨Crossed.wildcards, Crossed.mk h₁ h₂⟩
      rw [rank_gt_of_sameRung h₁] at hab
      rw [rank_gt_of_sameRung h₂] at hbc
      rw [rank_gt_of_sameRung (sameRung_iff.2 ⟨ha, hac⟩), hx]
      revert hab hbc
      cases a.wildcards <;> cases b.wildcards <;> cases c.wildcards <;> simp [Wildcards.compare] <;> omega
    · have hb : ¬b.IsWild := fun hb => ha (isWild_of_standing_eq hs.1.symm hb)
      rw [rank_gt_of_not_wild ha hs.1] at hab
      rw [rank_gt_of_not_wild hb hs.2] at hbc
      rw [rank_gt_of_not_wild ha hac]
      exact iff_of_true (hbc.trans hab) fun hx => ha hx.left.left
  · have hac := standing_lt_of_chain hab hbc hs
    refine iff_of_true ((rank_gt_iff a c).2 (.inl hac)) fun hx => hs ⟨?_, ?_⟩
    · exact (sameRung_iff.1 hx.left).2
    · exact (sameRung_iff.1 hx.right).2

/-- **Ties pass along three patterns unless these are parted.** -/
theorem tie_trans_iff (hab : rank a b = .eq) (hbc : rank b c = .eq) : rank a c = .eq ↔ ¬Parted a b c := by
  have hs := ((rank_eq_iff a b).1 hab).1
  have hs' := ((rank_eq_iff b c).1 hbc).1
  have hac : a.standing = c.standing := hs.trans hs'
  by_cases ha : a.IsWild
  · have h₁ : SameRung a b := sameRung_iff.2 ⟨ha, hs⟩
    have h₂ : SameRung b c := sameRung_iff.2 ⟨h₁.right, hs'⟩
    have hx : Parted a b c ↔ _ := ⟨Parted.wildcards, Parted.mk h₁ h₂⟩
    rw [rank_eq_of_sameRung h₁] at hab
    rw [rank_eq_of_sameRung h₂] at hbc
    rw [rank_eq_of_sameRung (sameRung_iff.2 ⟨ha, hac⟩), hx]
    revert hab hbc
    cases a.wildcards <;> cases b.wildcards <;> cases c.wildcards <;> simp [Wildcards.compare] <;> omega
  · have hb : ¬b.IsWild := fun hb => ha (isWild_of_standing_eq hs.symm hb)
    rw [rank_eq_of_not_wild ha hs] at hab
    rw [rank_eq_of_not_wild hb hs'] at hbc
    rw [rank_eq_of_not_wild ha hac]
    exact iff_of_true (hab.trans hbc) fun hx => ha hx.left.left

end Specificity

open Specificity

/-! ## The order of patterns -/

theorem moreSpecific_iff (a b : String) : moreSpecific a b = true ↔ rankPatterns a b = .gt := by simp [moreSpecific]

/-- **The order of patterns.** No pattern is more specific than itself, no two are more specific than each other, and
both ranks and ties pass along three patterns except where wildcards and depths cross. -/
theorem moreSpecific_order (a b c : String) :
    moreSpecific a a = false ∧
    (moreSpecific a b = true → moreSpecific b a = false) ∧
    (moreSpecific a b = true → moreSpecific b c = true →
      (moreSpecific a c = true ↔ ¬Crossed (.ofPattern a) (.ofPattern b) (.ofPattern c))) ∧
    (rankPatterns a b = .eq → rankPatterns b c = .eq →
      (rankPatterns a c = .eq ↔ ¬Parted (.ofPattern a) (.ofPattern b) (.ofPattern c))) := by
  simp only [moreSpecific_iff, ← Bool.not_eq_true]
  exact ⟨rank_self_ne_gt _, rank_asymm, rank_trans_iff, tie_trans_iff⟩

/-- Three patterns can rank above one another in a circle, and two that tie with a third need not tie. -/
theorem moreSpecific_circle :
    (moreSpecific "**/test?" "**/src/**/*" = true ∧ moreSpecific "**/src/**/*" "**/src/**" = true ∧
      moreSpecific "**/test?" "**/src/**" = false ∧ moreSpecific "**/src/**" "**/test?" = true) ∧
    rankPatterns "a?" "[a]" = .eq ∧ rankPatterns "[a]" "a*" = .eq ∧ rankPatterns "a?" "a*" = .gt := by
  decide +kernel

end PathOwners
