import Mathlib.Data.Set.Finite.Lemmas
import PathOwners.Proofs.Specificity.Standing

/-!
# Clear winners

Of several patterns one is a clear winner if no other ranks above it and it ranks above all that come before it. There
is one (`exists_clear`) unless the patterns are `Tangled`: on the rung of the best standing there are some with a `?`,
some with only `*` and some with neither, and their greatest depths do not fall from the first of these kinds to the
last with neither in the middle.
-/

namespace PathOwners.Specificity

/-! ## Tangles -/

/-- A tangle of patterns: of those of the best standing, `q` is the deepest with a `?`, `n` the deepest with neither
wildcard and `s` the deepest with only `*`; `n` is as deep as `q` or deeper, and `s` as deep as `n` or deeper. -/
structure Tangled (l : List Specificity) (q n s : Specificity) : Prop where
  mem : q ∈ l ∧ n ∈ l ∧ s ∈ l
  top : ∀ x ∈ l, x.standing ≤ q.standing
  left : SameRung q n
  right : SameRung n s
  wildcards : q.wildcards = .question ∧ n.wildcards = .neither ∧ s.wildcards = .star
  deepest : ∀ x ∈ l, ∀ y ∈ [q, n, s], SameRung y x → x.wildcards = y.wildcards → x.depth ≤ y.depth
  depths : q.depth ≤ n.depth ∧ n.depth ≤ s.depth

/-- Some patterns of a list form a tangle. -/
def IsTangled (l : List Specificity) : Prop := ∃ q n s, Tangled l q n s

/-- A tangle, with the wildcards and depths as the ladder asks for them. -/
theorem tangled_of_asked {l : List Specificity} {q n s : Specificity} (hq : q ∈ l) (hn : n ∈ l) (hs : s ∈ l)
    (htop : ∀ x ∈ l, x.standing ≤ q.standing) (hqn : q.standing = n.standing) (hns : n.standing = s.standing)
    (hqw : q.askedWildcards = .question) (hnw : n.askedWildcards = .neither) (hsw : s.askedWildcards = .star)
    (hd : ∀ x ∈ l, ∀ y ∈ [q, n, s], x.standing = q.standing → x.askedWildcards = y.askedWildcards →
      x.askedDepth ≤ y.askedDepth)
    (hdqn : q.askedDepth ≤ n.askedDepth) (hdns : n.askedDepth ≤ s.askedDepth) : Tangled l q n s := by
  have hwild : q.IsWild := isWild_of_askedWildcards (by simp [hqw])
  have h₁ : SameRung q n := sameRung_iff.2 ⟨hwild, hqn⟩
  have h₂ : SameRung n s := sameRung_iff.2 ⟨h₁.right, hns⟩
  rw [askedWildcards_of_wild hwild] at hqw
  rw [askedWildcards_of_wild h₂.left] at hnw
  rw [askedWildcards_of_wild h₂.right] at hsw
  rw [askedDepth_of_wild hwild, askedDepth_of_wild h₂.left] at hdqn
  rw [askedDepth_of_wild h₂.left, askedDepth_of_wild h₂.right] at hdns
  refine ⟨⟨hq, hn, hs⟩, htop, h₁, h₂, ⟨hqw, hnw, hsw⟩, fun x hx y hy hyx hw => ?_, hdqn, hdns⟩
  have hyq : y.standing = q.standing := by
    simp only [List.mem_cons, List.not_mem_nil, or_false] at hy
    rcases hy with rfl | rfl | rfl
    · rfl
    · exact hqn.symm
    · exact (hqn.trans hns).symm
  have hxq : x.standing = q.standing := (sameRung_iff.1 hyx).2.symm.trans hyq
  have hxw : x.askedWildcards = y.askedWildcards := by
    rw [askedWildcards_of_wild hyx.left, askedWildcards_of_wild hyx.right, hw]
  have hle := hd x hx y hy hxq hxw
  rwa [askedDepth_of_wild hyx.left, askedDepth_of_wild hyx.right] at hle

section

variable {l : List Specificity} {q n s x y : Specificity}

theorem Tangled.sameRung_star (T : Tangled l q n s) : SameRung q s :=
  sameRung_iff.2 ⟨T.left.left, (sameRung_iff.1 T.left).2.trans (sameRung_iff.1 T.right).2⟩

theorem Tangled.sameRung_question (T : Tangled l q n s) : SameRung q q := sameRung_iff.2 ⟨T.left.left, rfl⟩

/-- How deep a pattern on the rung of a tangle can be. -/
theorem Tangled.depth_le (T : Tangled l q n s) (hx : x ∈ l) (hqx : SameRung q x) :
    (x.wildcards = .question → x.depth ≤ q.depth) ∧ (x.wildcards = .neither → x.depth ≤ n.depth) ∧
      (x.wildcards = .star → x.depth ≤ s.depth) := by
  obtain ⟨hwq, hwn, hws⟩ := T.wildcards
  have hnx : SameRung n x := sameRung_iff.2 ⟨T.left.right, (sameRung_iff.1 T.left).2.symm.trans (sameRung_iff.1 hqx).2⟩
  have hsx : SameRung s x :=
    sameRung_iff.2 ⟨T.right.right, (sameRung_iff.1 T.right).2.symm.trans (sameRung_iff.1 hnx).2⟩
  exact ⟨fun h => T.deepest x hx q (by simp) hqx (h.trans hwq.symm),
    fun h => T.deepest x hx n (by simp) hnx (h.trans hwn.symm),
    fun h => T.deepest x hx s (by simp) hsx (h.trans hws.symm)⟩

/-- A pattern that is not on the rung of a tangle ranks above none that is. -/
theorem Tangled.rank_ne_gt (T : Tangled l q n s) (hx : x ∈ l) (hqx : ¬SameRung q x) (hqy : SameRung q y) :
    rank x y ≠ .gt := by
  have hs := (sameRung_iff.1 hqy).2
  have hne : x.standing ≠ y.standing := fun h => hqx (sameRung_iff.2 ⟨T.left.left, hs.trans h.symm⟩)
  exact rank_ne_gt_of_standing_lt (lt_of_le_of_ne ((T.top x hx).trans_eq hs) hne)

/-- On the rung, the wildcards decide, or else the depths. -/
theorem rank_gt_on_rung (hx : SameRung q x) (hy : SameRung q y) :
    rank x y = .gt ↔ x.wildcards.compare y.wildcards = .gt ∨
      x.wildcards.compare y.wildcards = .eq ∧ y.depth < x.depth :=
  rank_gt_of_sameRung (sameRung_iff.2 ⟨hx.right, (sameRung_iff.1 hx).2.symm.trans (sameRung_iff.1 hy).2⟩)

/-- No pattern with a `?` ranks above a deepest one with neither wildcard. -/
theorem Tangled.rank_question_ne_gt (T : Tangled l q n s) (hx : x ∈ l) (hqx : SameRung q x) (hqy : SameRung q y)
    (hxw : x.wildcards = .question) (hyw : y.wildcards = .neither) (hyd : y.depth = n.depth) : rank x y ≠ .gt := by
  have hxd := (T.depth_le hx hqx).1 hxw
  have hqn := T.depths.1
  rw [Ne, rank_gt_on_rung hqx hqy, hxw, hyw]
  simp [Wildcards.compare]
  omega

/-- Only a pattern with a `?` ranks above a deepest one with only `*`. -/
theorem Tangled.rank_star_ne_gt (T : Tangled l q n s) (hx : x ∈ l) (hqy : SameRung q y) (hyw : y.wildcards = .star)
    (hyd : y.depth = s.depth) (hxw : ¬(SameRung q x ∧ x.wildcards = .question)) : rank x y ≠ .gt := by
  by_cases hqx : SameRung q x
  · obtain ⟨-, hneither, hstar⟩ := T.depth_le hx hqx
    have hns := T.depths.2
    rw [Ne, rank_gt_on_rung hqx hqy, hyw]
    cases hw : x.wildcards with
    | question => exact absurd ⟨hqx, hw⟩ hxw
    | star =>
      have hxd := hstar hw
      simp [Wildcards.compare]
      omega
    | neither =>
      have hxd := hneither hw
      simp [Wildcards.compare]
      omega
  · exact T.rank_ne_gt hx hqx hqy

/-- If all depths are the same, none ranks above the pattern with neither wildcard. -/
theorem Tangled.rank_neither_ne_gt (T : Tangled l q n s) (hd : s.depth ≤ q.depth) (hx : x ∈ l) : rank x n ≠ .gt := by
  by_cases hqx : SameRung q x
  · obtain ⟨hquestion, hneither, hstar⟩ := T.depth_le hx hqx
    obtain ⟨hqn, hns⟩ := T.depths
    rw [Ne, rank_gt_on_rung hqx T.left, T.wildcards.2.1]
    cases hw : x.wildcards with
    | question =>
      have hxd := hquestion hw
      simp [Wildcards.compare]
      omega
    | star =>
      have hxd := hstar hw
      simp [Wildcards.compare]
      omega
    | neither =>
      have hxd := hneither hw
      simp [Wildcards.compare]
      omega
  · exact T.rank_ne_gt hx hqx T.left

end

/-! ## First and greatest elements of lists -/

section Lists

variable {α : Type}

/-- The first element that has a property. -/
theorem exists_first {P : α → Prop} {l : List α} (h : ∃ x ∈ l, P x) :
    ∃ pre u post, l = pre ++ u :: post ∧ P u ∧ ∀ x ∈ pre, ¬P x := by
  classical
  obtain ⟨u, hu⟩ : ∃ u, l.find? (fun x => decide (P x)) = some u :=
    Option.isSome_iff_exists.1 (List.find?_isSome.2 (by simpa using h))
  obtain ⟨hPu, pre, post, hl, hpre⟩ := List.find?_eq_some_iff_append.1 hu
  exact ⟨pre, u, post, hl, by simpa using hPu, by simpa using hpre⟩

/-- An element with the greatest value among those that have a property. -/
theorem exists_greatest {β : Type} [LinearOrder β] {P : α → Prop} {l : List α} (f : α → β) (h : ∃ x ∈ l, P x) :
    ∃ m ∈ l, P m ∧ ∀ x ∈ l, P x → f x ≤ f m := by
  have hfin : {x | x ∈ l ∧ P x}.Finite := (List.finite_toSet l).subset fun x hx => hx.1
  obtain ⟨m, ⟨hm, hPm⟩, hmax⟩ := Set.exists_max_image _ f hfin h
  exact ⟨m, hm, hPm, fun x hx hPx => hmax x ⟨hx, hPx⟩⟩

end Lists

/-! ## Clear winners -/

section Clear

variable {α : Type} (f : α → Specificity) {l : List α}

/-- A clear winner: no other ranks above it, and it ranks above all that come before it. -/
def Clear (l : List α) (u : α) : Prop :=
  ∃ pre post, l = pre ++ u :: post ∧ (∀ x ∈ pre, rank (f u) (f x) = .gt) ∧ ∀ x ∈ l, rank (f x) (f u) ≠ .gt

/-- A property that some pattern of the best standing has, such that a pattern with it yields to none and goes above
all of the best standing without it, has a clear winner. -/
theorem clear_of_property {top : Standing} {P : α → Prop} (htop : ∀ x ∈ l, (f x).standing ≤ top)
    (hP : ∀ u, P u → (f u).standing = top) (hex : ∃ x ∈ l, P x)
    (hne : ∀ u ∈ l, P u → ∀ x ∈ l, (f x).standing = top → rank (f x) (f u) ≠ .gt)
    (hgt : ∀ u ∈ l, P u → ∀ x ∈ l, (f x).standing = top → ¬P x → rank (f u) (f x) = .gt) : ∃ u, Clear f l u := by
  obtain ⟨pre, u, post, hl, hPu, hpre⟩ := exists_first hex
  have hu : u ∈ l := by simp [hl]
  refine ⟨u, pre, post, hl, fun x hx => ?_, fun x hx => ?_⟩
  · have hxl : x ∈ l := by simp [hl, hx]
    rcases (htop x hxl).lt_or_eq with h | h
    · rw [rank_gt_iff]
      exact .inl (hP u hPu ▸ h)
    · exact hgt u hu hPu x hxl h (hpre x hx)
  · rcases (htop x hx).lt_or_eq with h | h
    · exact rank_ne_gt_of_standing_lt (hP u hPu ▸ h)
    · exact hne u hu hPu x hx h

/-- The first of the deepest patterns of the best standing is a clear winner, unless it has only `*` and another has a
`?`. -/
theorem clear_of_deepest {top : Standing} {d : Nat} (htop : ∀ x ∈ l, (f x).standing ≤ top)
    (hd : ∀ x ∈ l, (f x).standing = top → (f x).askedDepth ≤ d)
    (hex : ∃ x ∈ l, (f x).standing = top ∧ (f x).askedDepth = d)
    (h : (∀ x ∈ l, (f x).standing = top → (f x).askedWildcards ≠ .question) ∨
      ∀ x ∈ l, (f x).standing = top → (f x).askedWildcards = .star → (f x).askedDepth < d) : ∃ u, Clear f l u := by
  -- no pattern of the best standing is preferred to a deepest one for its wildcards
  have hw : ∀ u ∈ l, (f u).standing = top → (f u).askedDepth = d → ∀ x ∈ l, (f x).standing = top →
      ¬((f u).askedWildcards = .star ∧ (f x).askedWildcards = .question) := by
    rintro u hu hut hud x hx hxt ⟨hus, hxq⟩
    rcases h with h | h
    · exact h x hx hxt hxq
    · exact absurd (h u hu hut hus) (by omega)
  refine clear_of_property f htop (fun u hu => hu.1) hex ?_ ?_
  · rintro u hu ⟨hut, hud⟩ x hx hxt
    have h₁ := hw u hu hut hud x hx hxt
    have h₂ := hd x hx hxt
    rw [Ne, rank_gt_of_standing_eq (hxt.trans hut.symm), Wildcards.compare_eq_gt, Wildcards.compare_eq_eq]
    rintro (⟨hxq, hus⟩ | ⟨-, h₃⟩)
    · exact h₁ ⟨hus, hxq⟩
    · omega
  · rintro u hu ⟨hut, hud⟩ x hx hxt hxd
    have h₁ := hw u hu hut hud x hx hxt
    have h₂ : (f x).askedDepth < d := lt_of_le_of_ne (hd x hx hxt) fun h => hxd ⟨hxt, h⟩
    rw [rank_gt_of_standing_eq (hut.trans hxt.symm), Wildcards.compare_eq_gt, Wildcards.compare_eq_eq]
    by_cases h₃ : (f u).askedWildcards = .question ∧ (f x).askedWildcards = .star
    · exact .inl h₃
    · exact .inr ⟨⟨h₃, h₁⟩, by omega⟩

/-- The first of the deepest patterns with a `?` is a clear winner if all with neither wildcard are less deep. -/
theorem clear_of_question {top : Standing} {d : Nat} (htop : ∀ x ∈ l, (f x).standing ≤ top)
    (hd : ∀ x ∈ l, (f x).standing = top → (f x).askedWildcards = .question → (f x).askedDepth ≤ d)
    (hex : ∃ x ∈ l, (f x).standing = top ∧ (f x).askedWildcards = .question ∧ (f x).askedDepth = d)
    (h : ∀ x ∈ l, (f x).standing = top → (f x).askedWildcards = .neither → (f x).askedDepth < d) :
    ∃ u, Clear f l u := by
  refine clear_of_property f htop (fun u hu => hu.1) hex ?_ ?_
  · rintro u hu ⟨hut, huq, hud⟩ x hx hxt
    rw [Ne, rank_gt_of_standing_eq (hxt.trans hut.symm), huq]
    cases hw : (f x).askedWildcards with
    | question =>
      have hle := hd x hx hxt hw
      simp [Wildcards.compare]
      omega
    | star => simp [Wildcards.compare]
    | neither =>
      have hlt := h x hx hxt hw
      simp [Wildcards.compare]
      omega
  · rintro u hu ⟨hut, huq, hud⟩ x hx hxt hxd
    rw [rank_gt_of_standing_eq (hut.trans hxt.symm), huq]
    cases hw : (f x).askedWildcards with
    | question =>
      have hle := hd x hx hxt hw
      have hne : (f x).askedDepth ≠ d := fun hxd' => hxd ⟨hxt, hw, hxd'⟩
      simp [Wildcards.compare]
      omega
    | star => simp [Wildcards.compare]
    | neither =>
      have hlt := h x hx hxt hw
      simp [Wildcards.compare]
      omega

/-- **Patterns that are not tangled have a clear winner.** -/
theorem exists_clear (hl : l ≠ []) (h : ¬IsTangled (l.map f)) : ∃ u, Clear f l u := by
  obtain ⟨t, ht, -, htop⟩ := exists_greatest (P := fun _ => True) (fun x => (f x).standing)
    ((List.exists_mem_of_ne_nil l hl).imp fun x hx => ⟨hx, trivial⟩)
  replace htop : ∀ x ∈ l, (f x).standing ≤ (f t).standing := fun x hx => htop x hx trivial
  obtain ⟨m, hml, hmt, hmd⟩ := exists_greatest (P := fun x => (f x).standing = (f t).standing)
    (fun x => (f x).askedDepth) ⟨t, ht, rfl⟩
  by_cases hq : ∃ x ∈ l, (f x).standing = (f t).standing ∧ (f x).askedWildcards = .question
  case neg =>
    refine clear_of_deepest f htop hmd ⟨m, hml, hmt, rfl⟩ (.inl fun x hx hxt hxq => hq ⟨x, hx, hxt, hxq⟩)
  obtain ⟨q, hql, ⟨hqt, hqw⟩, hqd⟩ := exists_greatest (fun x => (f x).askedDepth) hq
  by_cases hn : ∃ x ∈ l, ((f x).standing = (f t).standing ∧ (f x).askedWildcards = .neither) ∧
      (f q).askedDepth ≤ (f x).askedDepth
  case neg =>
    refine clear_of_question f htop (fun x hx hxt hxq => hqd x hx ⟨hxt, hxq⟩) ⟨q, hql, hqt, hqw, rfl⟩ ?_
    intro x hx hxt hxn
    by_contra hle
    exact hn ⟨x, hx, ⟨hxt, hxn⟩, by omega⟩
  obtain ⟨n, hnl, ⟨⟨hnt, hnw⟩, hqn⟩, hnd⟩ := exists_greatest (fun x => (f x).askedDepth) hn
  have hneither : ∀ x ∈ l, (f x).standing = (f t).standing → (f x).askedWildcards = .neither →
      (f x).askedDepth ≤ (f n).askedDepth := by
    intro x hx hxt hxn
    rcases le_total (f q).askedDepth (f x).askedDepth with hle | hle
    · exact hnd x hx ⟨⟨hxt, hxn⟩, hle⟩
    · exact hle.trans hqn
  have hq' : ∀ x ∈ l, (f x).standing = (f t).standing → (f x).askedWildcards = .question →
      (f x).askedDepth ≤ (f q).askedDepth := fun x hx hxt hxq => hqd x hx ⟨hxt, hxq⟩
  by_cases hs : ∃ x ∈ l, ((f x).standing = (f t).standing ∧ (f x).askedWildcards = .star) ∧
      (f n).askedDepth ≤ (f x).askedDepth
  case neg =>
    have hstar : ∀ x ∈ l, (f x).standing = (f t).standing → (f x).askedWildcards = .star →
        (f x).askedDepth < (f n).askedDepth := by
      intro x hx hxt hxs
      by_contra hle
      exact hs ⟨x, hx, ⟨hxt, hxs⟩, by omega⟩
    refine clear_of_deepest f (d := (f n).askedDepth) htop (fun x hx hxt => ?_) ⟨n, hnl, hnt, rfl⟩ (.inr hstar)
    cases hw : (f x).askedWildcards with
    | question => exact (hq' x hx hxt hw).trans hqn
    | star => exact (hstar x hx hxt hw).le
    | neither => exact hneither x hx hxt hw
  obtain ⟨s, hsl, ⟨⟨hst, hsw⟩, hns⟩, hsd⟩ := exists_greatest (fun x => (f x).askedDepth) hs
  have hstar : ∀ x ∈ l, (f x).standing = (f t).standing → (f x).askedWildcards = .star →
      (f x).askedDepth ≤ (f s).askedDepth := by
    intro x hx hxt hxs
    rcases le_total (f n).askedDepth (f x).askedDepth with hle | hle
    · exact hsd x hx ⟨⟨hxt, hxs⟩, hle⟩
    · exact hle.trans hns
  refine absurd ⟨f q, f n, f s, ?_⟩ h
  refine tangled_of_asked (List.mem_map_of_mem hql) (List.mem_map_of_mem hnl) (List.mem_map_of_mem hsl) ?_
    (hqt.trans hnt.symm) (hnt.trans hst.symm) hqw hnw hsw ?_ hqn hns <;> rw [List.forall_mem_map, hqt]
  · exact htop
  · intro x hx
    simp only [List.forall_mem_cons, hqw, hnw, hsw]
    exact ⟨hq' x hx, hneither x hx, hstar x hx, by simp⟩

end Clear

end PathOwners.Specificity
