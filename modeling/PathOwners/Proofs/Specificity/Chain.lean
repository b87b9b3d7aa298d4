import PathOwners.Proofs.Specificity.Order

/-!
# Chains of patterns

Two patterns compare the other way round in the reverse way (`rank_swap`), whatever their traits are. Three patterns
that follow each other, none ranking below the next, should keep their order at the ends. They do unless they are
crossed (`isBroken_iff`), so a chain can break only among patterns that agree on every criterion before the wildcards,
and only if all three ways to have wildcards occur in it (`rank_chain`).
-/

namespace PathOwners.Specificity

variable {a b c : Specificity}

/-! ## Reversal -/

theorem Wildcards.compare_swap (x y : Wildcards) : y.compare x = (x.compare y).swap := by
  cases x <;> cases y <;> rfl

/-- Each criterion is reversed, so the first one that decides is. -/
theorem compareWild_swap (a b : Specificity) : compareWild b a = (compareWild a b).swap := by
  simp only [compareWild, compareWildcards_eq, Ordering.swap_then, ← Wildcards.compare_swap,
    ← Std.OrientedOrd.eq_swap]

/-- **The reverse comparison gives the reverse order.** -/
theorem rank_swap (a b : Specificity) : rank b a = (rank a b).swap := by
  cases hac : a.catchAll <;> cases hbc : b.catchAll <;> cases hae : a.exact <;> cases hbe : b.exact
  case false.false.false.false => simpa [rank, hac, hbc, hae, hbe] using compareWild_swap a b
  case false.false.true.true => simpa [rank, hac, hbc, hae, hbe] using Std.OrientedOrd.eq_swap
  all_goals simp [rank, hac, hbc, hae, hbe]

theorem rank_eq_lt_iff : rank a b = .lt ↔ rank b a = .gt := by rw [rank_swap a b, Ordering.swap_eq_gt]

/-! ## Chains -/

/-- The ends of a chain out of order: the first of three patterns ranks below the last, or level with it although one of
the steps between them goes down. -/
def IsBroken (a b c : Specificity) : Prop := rank a c = .lt ∨ rank a c = .eq ∧ (rank a b = .gt ∨ rank b c = .gt)

theorem standing_le_of_rank_ne_lt (h : rank a b ≠ .lt) : b.standing ≤ a.standing := by
  rw [Ne, rank_eq_lt_iff, rank_gt_iff, not_or] at h
  exact not_lt.mp h.1

/-- A chain on one rung is broken if it is crossed: the wildcards of the three patterns are compared two by two. -/
theorem isBroken_iff_of_sameRung (hleft : SameRung a b) (hright : SameRung b c) (hab : rank a b ≠ .lt)
    (hbc : rank b c ≠ .lt) : IsBroken a b c ↔ Crossed a b c := by
  have hab' := (sameRung_iff.mp hleft).2
  have hbc' := (sameRung_iff.mp hright).2
  have hac : SameRung a c := sameRung_iff.mpr ⟨hleft.left, hab'.trans hbc'⟩
  have hba : SameRung b a := sameRung_iff.mpr ⟨hleft.right, hab'.symm⟩
  have hcb : SameRung c b := sameRung_iff.mpr ⟨hright.right, hbc'.symm⟩
  have hca : SameRung c a := sameRung_iff.mpr ⟨hac.right, (hab'.trans hbc').symm⟩
  have hcrossed : Crossed a b c ↔ _ := ⟨Crossed.wildcards, Crossed.mk hleft hright⟩
  rw [Ne, rank_eq_lt_iff, rank_gt_of_sameRung hba] at hab
  rw [Ne, rank_eq_lt_iff, rank_gt_of_sameRung hcb] at hbc
  rw [IsBroken, rank_eq_lt_iff, rank_gt_of_sameRung hca, rank_eq_of_sameRung hac, rank_gt_of_sameRung hleft,
    rank_gt_of_sameRung hright, hcrossed]
  revert hab hbc
  cases a.wildcards <;> cases b.wildcards <;> cases c.wildcards <;> simp [Wildcards.compare] <;> omega

/-- Plain paths, and `*`, are compared by depth alone, so a chain of them is not broken. -/
theorem not_isBroken_of_not_wild (ha : ¬a.IsWild) (hleft : a.standing = b.standing)
    (hright : b.standing = c.standing) (hab : rank a b ≠ .lt) (hbc : rank b c ≠ .lt) : ¬IsBroken a b c := by
  have hb : ¬b.IsWild := fun hb => ha (isWild_of_standing_eq hleft.symm hb)
  have hc : ¬c.IsWild := fun hc => hb (isWild_of_standing_eq hright.symm hc)
  have hac := hleft.trans hright
  rw [Ne, rank_eq_lt_iff, rank_gt_of_not_wild hb hleft.symm] at hab
  rw [Ne, rank_eq_lt_iff, rank_gt_of_not_wild hc hright.symm] at hbc
  rw [IsBroken, rank_eq_lt_iff, rank_gt_of_not_wild hc hac.symm, rank_eq_of_not_wild ha hac,
    rank_gt_of_not_wild ha hleft, rank_gt_of_not_wild hb hright]
  omega

/-- A chain that a standing decides is not broken. -/
theorem not_isBroken_of_standing_lt (h : c.standing < a.standing) : ¬IsBroken a b c := by
  have hac : rank a c = .gt := (rank_gt_iff a c).mpr (.inl h)
  simp [IsBroken, hac]

/-- **A chain is broken exactly if it is crossed.** -/
theorem isBroken_iff (hab : rank a b ≠ .lt) (hbc : rank b c ≠ .lt) : IsBroken a b c ↔ Crossed a b c := by
  have hleft := standing_le_of_rank_ne_lt hab
  have hright := standing_le_of_rank_ne_lt hbc
  rcases hleft.lt_or_eq with hlt | hba
  · refine iff_of_false (not_isBroken_of_standing_lt (hright.trans_lt hlt)) fun hx => hlt.ne' ?_
    exact (sameRung_iff.mp hx.left).2
  rcases hright.lt_or_eq with hlt | hcb
  · refine iff_of_false (not_isBroken_of_standing_lt (hlt.trans_eq hba)) fun hx => hlt.ne' ?_
    exact (sameRung_iff.mp hx.right).2
  by_cases ha : a.IsWild
  · have hrung : SameRung a b := sameRung_iff.mpr ⟨ha, hba.symm⟩
    exact isBroken_iff_of_sameRung hrung (sameRung_iff.mpr ⟨hrung.right, hcb.symm⟩) hab hbc
  · exact iff_of_false (not_isBroken_of_not_wild ha hba.symm hcb.symm hab hbc) fun hx => ha hx.left.left

/-! ## The patterns of a broken chain -/

/-- All three ways to have wildcards occur: one pattern has a `?`, one has only `*`, and one has neither. -/
structure HasAllWildcards (patterns : List Specificity) : Prop where
  question : ∃ s ∈ patterns, 0 < s.questionMarks
  star : ∃ s ∈ patterns, s.questionMarks = 0 ∧ 0 < s.stars
  neither : ∃ s ∈ patterns, s.questionMarks = 0 ∧ s.stars = 0

theorem wildcards_eq_question_iff : a.wildcards = .question ↔ 0 < a.questionMarks := by
  unfold wildcards
  split_ifs <;> simp [*]

theorem wildcards_eq_star_iff : a.wildcards = .star ↔ a.questionMarks = 0 ∧ 0 < a.stars := by
  unfold wildcards
  split_ifs <;> simp <;> omega

theorem wildcards_eq_neither_iff : a.wildcards = .neither ↔ a.questionMarks = 0 ∧ a.stars = 0 := by
  unfold wildcards
  split_ifs <;> simp <;> omega

theorem Crossed.hasAllWildcards (h : Crossed a b c) : HasAllWildcards [a, b, c] := by
  rcases h.wildcards with ⟨ha, hb, hc, -⟩ | ⟨ha, hb, hc⟩ | ⟨ha, hb, hc, -⟩
  · exact ⟨⟨a, by simp, wildcards_eq_question_iff.mp ha⟩, ⟨b, by simp, wildcards_eq_star_iff.mp hb⟩,
      ⟨c, by simp, wildcards_eq_neither_iff.mp hc⟩⟩
  · exact ⟨⟨c, by simp, wildcards_eq_question_iff.mp hc⟩, ⟨a, by simp, wildcards_eq_star_iff.mp ha⟩,
      ⟨b, by simp, wildcards_eq_neither_iff.mp hb⟩⟩
  · exact ⟨⟨b, by simp, wildcards_eq_question_iff.mp hb⟩, ⟨c, by simp, wildcards_eq_star_iff.mp hc⟩,
      ⟨a, by simp, wildcards_eq_neither_iff.mp ha⟩⟩

/-- **How far the comparison is an order.** Exchanging two patterns reverses their comparison. Where each of three
patterns ranks no lower than the next, the ends keep that order, strictly if one of the steps is strict, unless the
three are crossed: they are wild, agree on every criterion before the wildcards, and one has a `?`, one only `*` and
one neither. -/
theorem rank_chain (a b c : Specificity) :
    rank b a = (rank a b).swap ∧
    (rank a b ≠ .lt → rank b c ≠ .lt →
      (IsBroken a b c ↔ Crossed a b c) ∧
      (IsBroken a b c → SameRung a b ∧ SameRung b c ∧ HasAllWildcards [a, b, c])) := by
  refine ⟨rank_swap a b, fun hab hbc => ?_⟩
  have hiff := isBroken_iff hab hbc
  refine ⟨hiff, fun hbroken => ?_⟩
  have hcrossed := hiff.mp hbroken
  exact ⟨hcrossed.left, hcrossed.right, hcrossed.hasAllWildcards⟩

/-- A chain that goes down at each step and up from its end to its start. -/
theorem rank_chain_broken :
    let a := ofPattern "**/test?"
    let b := ofPattern "**/src/**/*"
    let c := ofPattern "**/src/**"
    rank b a = .lt ∧ rank a b = .gt ∧ rank b c = .gt ∧ rank a c = .lt ∧
      SameRung a b ∧ SameRung b c ∧ HasAllWildcards [a, b, c] := by
  intro a b c
  have hab : rank a b = .gt := by decide +kernel
  have hbc : rank b c = .gt := by decide +kernel
  have hac : rank a c = .lt := by decide +kernel
  obtain ⟨hswap, hchain⟩ := rank_chain a b c
  obtain ⟨-, hbroken⟩ := hchain (by simp [hab]) (by simp [hbc])
  exact ⟨by rw [hswap, hab]; rfl, hab, hbc, hac, hbroken (.inl hac)⟩

end PathOwners.Specificity
