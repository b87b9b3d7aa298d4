import PathOwners.Proofs.RuleSet.Best
import PathOwners.Proofs.Specificity.Clear

/-!
# The deciding rule among the matching rules

A matching rule is unbeaten if no matching rule is more specific. The rule that decides about a path always matches it,
and no rule after it beats it; it is the first unbeaten rule unless the matching patterns are tangled, and tangled
patterns can be put in an order in which it is not (`bestMatch_unbeaten`).
-/

namespace PathOwners.RuleSet

open Specificity

variable {path : String}

/-! ## Unbeaten rules -/

/-- Of rules given with their places, one that none of them is more specific than. -/
def Unbeaten (rules : List (Nat × Rule)) (r : Nat × Rule) : Prop :=
  r ∈ rules ∧ ∀ other ∈ rules, moreSpecific other.2.pattern r.2.pattern = false

/-- The first of the unbeaten rules. -/
def FirstUnbeaten (rules : List (Nat × Rule)) (r : Nat × Rule) : Prop :=
  Unbeaten rules r ∧ ∀ other, Unbeaten rules other → r.1 ≤ other.1

/-- The rule that decides about a path, with its place. -/
def decider? (set : RuleSet) (path : String) : Option (Nat × Rule) :=
  (set.best? path).map fun entry => (entry.2, entry.1.rule)

/-- The specificities of the rules that match a path. -/
def specificities (set : RuleSet) (path : String) : List Specificity :=
  (set.matchingRules path).map fun r => .ofPattern r.2.pattern

theorem bestMatch_eq_decider (set : RuleSet) (path : String) :
    set.bestMatch? path = (set.decider? path).map Prod.snd := by
  simp [bestMatch?, decider?, Function.comp_def]

theorem specificities_ofRules (rules : List Rule) (path : String) :
    (ofRules rules).specificities path = ((ofRules rules).matching path).map fun x => x.1.specificity := by
  simp only [specificities, matchingRules, List.map_map]
  exact List.map_congr_left fun x hx => (specificity_of_mem hx).symm

section Entries

variable {rules : List Rule} {x y : Entry × Nat}

theorem moreSpecific_iff_beats (hx : x ∈ (ofRules rules).matching path) (hy : y ∈ (ofRules rules).matching path) :
    moreSpecific x.1.rule.pattern y.1.rule.pattern = true ↔ Beats x y := by
  rw [Beats, specificity_of_mem hx, specificity_of_mem hy]
  simp [moreSpecific, rankPatterns]

/-- An entry's rule is unbeaten if no matching entry beats the entry. -/
theorem unbeaten_iff (hx : x ∈ (ofRules rules).matching path) :
    Unbeaten ((ofRules rules).matchingRules path) (x.2, x.1.rule) ↔
      ∀ y ∈ (ofRules rules).matching path, ¬Beats y x := by
  simp only [Unbeaten, matchingRules, List.mem_map, ← Bool.not_eq_true]
  constructor
  · rintro ⟨-, h⟩ y hy hb
    exact h _ ⟨y, hy, rfl⟩ ((moreSpecific_iff_beats hy hx).2 hb)
  · intro h
    refine ⟨⟨x, hx, rfl⟩, ?_⟩
    rintro _ ⟨y, hy, rfl⟩ hb
    exact h y hy ((moreSpecific_iff_beats hy hx).1 hb)

/-- An unbeaten rule is that of an entry that no matching entry beats. -/
theorem exists_of_unbeaten {r : Nat × Rule} (h : Unbeaten ((ofRules rules).matchingRules path) r) :
    ∃ x ∈ (ofRules rules).matching path, r = (x.2, x.1.rule) ∧ ∀ y ∈ (ofRules rules).matching path, ¬Beats y x := by
  obtain ⟨x, hx, rfl⟩ := List.mem_map.1 h.1
  exact ⟨x, hx, rfl, (unbeaten_iff hx).1 h⟩

/-- In a split of the matching entries, places grow from one part to the other. -/
theorem place_lt_of_split {pre post : List (Entry × Nat)} (h : (ofRules rules).matching path = pre ++ post)
    (hx : x ∈ pre) (hy : y ∈ post) : x.2 < y.2 := by
  have := matching_pairwise path 0 rules
  rw [← matching_ofRules, h] at this
  exact (List.pairwise_append.1 this).2.2 x hx y hy

end Entries

/-! ## Without a tangle -/

/-- A clear winner is the first unbeaten rule, and decides. -/
theorem decider_of_clear {rules : List Rule} {u : Entry × Nat}
    (hu : Clear (fun x => x.1.specificity) ((ofRules rules).matching path) u) :
    (ofRules rules).decider? path = some (u.2, u.1.rule) ∧
      FirstUnbeaten ((ofRules rules).matchingRules path) (u.2, u.1.rule) := by
  obtain ⟨pre, post, hl, hpre, hall⟩ := hu
  have hmem : u ∈ (ofRules rules).matching path := by simp [hl]
  have hbest : (ofRules rules).best? path = some u := by
    rw [best?, hl]
    exact best_of_clear hpre fun x hx => hall x (by simp [hl, hx])
  refine ⟨by rw [decider?, hbest]; rfl, (unbeaten_iff hmem).2 hall, fun other hother => ?_⟩
  obtain ⟨x, hx, rfl, hx'⟩ := exists_of_unbeaten hother
  rw [hl] at hx
  rcases List.mem_append.1 hx with hx | hx
  · exact absurd (hpre x hx) (hx' u hmem)
  · rcases List.mem_cons.1 hx with rfl | hx
    · exact le_rfl
    · rw [← List.singleton_append, ← List.append_assoc] at hl
      exact (place_lt_of_split hl (by simp) hx).le

theorem firstUnbeaten_of_not_tangled {rules : List Rule} {r : Nat × Rule}
    (h : ¬IsTangled ((ofRules rules).specificities path)) (hr : (ofRules rules).decider? path = some r) :
    FirstUnbeaten ((ofRules rules).matchingRules path) r := by
  have hne : (ofRules rules).matching path ≠ [] := by
    intro hnil
    simp [decider?, best?, hnil] at hr
  rw [specificities_ofRules] at h
  obtain ⟨u, hu⟩ := exists_clear (fun x : Entry × Nat => x.1.specificity) hne h
  obtain ⟨hd, hf⟩ := decider_of_clear hu
  rw [hr] at hd
  cases hd
  exact hf

/-! ## Reordering rules -/

section Sift

variable {α : Type}

/-- The elements that the first predicate takes, then those of the others that the next one takes, and so on. -/
def sift : List (α → Bool) → List α → List α
  | [], l => l
  | p :: ps, l => l.filter p ++ sift ps (l.filter fun x => !p x)

theorem sift_perm : ∀ (ps : List (α → Bool)) (l : List α), (sift ps l).Perm l
  | [], _ => .refl _
  | p :: ps, l => ((sift_perm ps _).append_left _).trans (List.filter_append_perm p l)

end Sift

/-! ## With a tangle -/

section Tangle

variable {rules : List Rule} {q n s : Specificity}

/-- Matching entries: those of the matching rules whose patterns have some property. -/
structure IsBlock (rules : List Rule) (path : String) (P : Specificity → Prop) (M : List (Entry × Nat)) : Prop where
  property : ∀ x ∈ M, P x.1.specificity
  exists_mem : ∀ y ∈ (ofRules rules).specificities path, P y → ∃ x ∈ M, x.1.specificity = y

theorem isBlock_matchingFrom (path : String) (k : Nat) {block : List Rule} {P : Specificity → Prop}
    (h : ∀ rule, rule ∈ block ↔ rule ∈ rules ∧ P (.ofPattern rule.pattern)) :
    IsBlock rules path P (matchingFrom path k block) := by
  have hsub : ∀ x ∈ matchingFrom path k block, x.1.rule ∈ rules ∧ P x.1.specificity := fun x hx => by
    rw [specificity_of_mem hx]
    exact (h _).1 (rule_of_mem hx).1
  refine ⟨fun x hx => (hsub x hx).2, fun y hy hP => ?_⟩
  · rw [specificities_ofRules, List.mem_map] at hy
    obtain ⟨x, hx, rfl⟩ := hy
    rw [specificity_of_mem hx] at hP ⊢
    obtain ⟨x', hx', hr⟩ := exists_mem_of_rule (k := k) ((h _).2 ⟨(rule_of_mem hx).1, hP⟩) (rule_of_mem hx).2
    exact ⟨x', hx', by rw [specificity_of_mem hx', hr]⟩

theorem specificity_mem_of_perm (path : String) {rules' : List Rule} (h : rules'.Perm rules) :
    ∀ x ∈ (ofRules rules').matching path, x.1.specificity ∈ (ofRules rules).specificities path := by
  intro x hx
  obtain ⟨hr, hm⟩ := rule_of_mem hx
  obtain ⟨x', hx', hr'⟩ := exists_mem_of_rule (k := 0) (h.mem_iff.1 hr) hm
  rw [specificities_ofRules, List.mem_map]
  exact ⟨x', hx', by rw [specificity_of_mem hx', specificity_of_mem hx, hr']⟩

/-- Rules can be put in an order in which those with some property come first, then of the others those with another
one, and so on. -/
theorem exists_blocks (rules : List Rule) (path : String) (P₁ P₂ P₃ : Specificity → Prop) :
    ∃ rules', rules'.Perm rules ∧ ∃ M₁ M₂ M₃ M₄, (ofRules rules').matching path = M₁ ++ (M₂ ++ (M₃ ++ M₄)) ∧
      (∀ x ∈ M₁ ++ (M₂ ++ (M₃ ++ M₄)), x.1.specificity ∈ (ofRules rules).specificities path) ∧
      IsBlock rules path P₁ M₁ ∧ IsBlock rules path (fun x => ¬P₁ x ∧ P₂ x) M₂ ∧
      IsBlock rules path (fun x => ¬P₁ x ∧ ¬P₂ x ∧ P₃ x) M₃ ∧
      IsBlock rules path (fun x => ¬P₁ x ∧ ¬P₂ x ∧ ¬P₃ x) M₄ := by
  classical
  let test (P : Specificity → Prop) (rule : Rule) : Bool := decide (P (.ofPattern rule.pattern))
  have hperm := sift_perm [test P₁, test P₂, test P₃] rules
  have hmem := specificity_mem_of_perm path hperm
  refine ⟨_, hperm, ?_⟩
  simp only [matching_ofRules, sift, matching_append] at hmem ⊢
  refine ⟨_, _, _, _, rfl, hmem, ?_, ?_, ?_, ?_⟩ <;> refine isBlock_matchingFrom path _ fun rule => ?_ <;>
    simp [test] <;> tauto

/-- The entry chosen from four blocks, if nothing of the second beats one of the first, something of the third beats
each of the first, and nothing of the fourth beats one of the third: it is of the third. -/
theorem best_of_blocks {M₁ M₂ M₃ M₄ : List (Entry × Nat)} (h₁ : M₁ ≠ []) (h₂ : ∀ b ∈ M₁, ∀ x ∈ M₂, ¬Beats x b)
    (h₃ : ∀ b ∈ M₁, ∃ x ∈ M₃, Beats x b) (h₄ : ∀ b ∈ M₃, ∀ x ∈ M₄, ¬Beats x b) :
    ∃ c ∈ M₃, (M₁ ++ (M₂ ++ (M₃ ++ M₄))).foldl better none = some c := by
  obtain ⟨b, hb⟩ := exists_best h₁
  have hbM := mem_of_best hb
  rw [List.foldl_append, hb, List.foldl_append, foldl_better_of_not_beats (h₂ b hbM), List.foldl_append]
  obtain ⟨c, hc, ⟨-, hnot⟩ | ⟨pre, post, hM₃, -⟩⟩ := foldl_better_cases M₃ b
  · obtain ⟨x, hx, hxb⟩ := h₃ b hbM
    exact absurd hxb (hnot x hx)
  · have hcM : c ∈ M₃ := by simp [hM₃]
    rw [hc, foldl_better_of_not_beats (h₄ c hcM)]
    exact ⟨c, hcM, rfl⟩

/-- **A tangle in which some pattern with only `*` is the deepest**: put the deepest with neither wildcard first, then
those with a `?`, then the deepest with only `*`. One of the last is chosen, and one with a `?` beats it. -/
theorem exists_perm_of_lt (T : Tangled ((ofRules rules).specificities path) q n s) (h : n.depth < s.depth) :
    ∃ rules', rules'.Perm rules ∧ ∃ r, (ofRules rules').decider? path = some r ∧
      ¬FirstUnbeaten ((ofRules rules').matchingRules path) r := by
  obtain ⟨hwq, hwn, hws⟩ := T.wildcards
  obtain ⟨rules', hperm, M₁, M₂, M₃, M₄, hM, hmem, b₁, b₂, b₃, b₄⟩ := exists_blocks rules path
    (fun x => SameRung q x ∧ x.wildcards = .neither ∧ x.depth = n.depth)
    (fun x => SameRung q x ∧ x.wildcards = .question)
    (fun x => SameRung q x ∧ x.wildcards = .star ∧ x.depth = s.depth)
  obtain ⟨c, hc, hbest⟩ : ∃ c ∈ M₃, (M₁ ++ (M₂ ++ (M₃ ++ M₄))).foldl better none = some c := by
    refine best_of_blocks ?_ ?_ ?_ ?_
    · obtain ⟨x, hx, -⟩ := b₁.exists_mem n T.mem.2.1 ⟨T.left, hwn, rfl⟩
      exact List.ne_nil_of_mem hx
    · intro b hb x hx
      obtain ⟨hqb, hwb, hdb⟩ := b₁.property b hb
      obtain ⟨-, hqx, hwx⟩ := b₂.property x hx
      exact T.rank_question_ne_gt (hmem x (by simp [hx])) hqx hqb hwx hwb hdb
    · intro b hb
      obtain ⟨hqb, hwb, hdb⟩ := b₁.property b hb
      obtain ⟨x, hx, hxs⟩ := b₃.exists_mem s T.mem.2.2 ⟨by simp [hws], by simp [hws], T.sameRung_star, hws, rfl⟩
      refine ⟨x, hx, ?_⟩
      rw [Beats, hxs, rank_gt_on_rung T.sameRung_star hqb, hws, hwb]
      simp [Wildcards.compare]
      omega
    · intro b hb x hx
      obtain ⟨-, -, hqb, hwb, hdb⟩ := b₃.property b hb
      obtain ⟨-, hnq, -⟩ := b₄.property x hx
      exact T.rank_star_ne_gt (hmem x (by simp [hx])) hqb hwb hdb hnq
  refine ⟨rules', hperm, (c.2, c.1.rule), by simp [decider?, best?, hM, hbest], fun hfirst => ?_⟩
  obtain ⟨x, hx, hxq⟩ := b₂.exists_mem q T.mem.1 ⟨by simp [hwq], T.sameRung_question, hwq⟩
  refine (unbeaten_iff (by simp [hM, hc])).1 hfirst.1 x (by simp [hM, hx]) ?_
  obtain ⟨-, -, hqc, hwc, -⟩ := b₃.property c hc
  rw [Beats, hxq, rank_gt_on_rung T.sameRung_question hqc, hwq, hwc]
  exact .inl rfl

/-- **A tangle in which patterns with neither wildcard and with only `*` are equally deep**: put the deepest with only
`*` first, then those with neither, then those with a `?`. One of the last is chosen, and one of the second beats it or
is unbeaten itself. -/
theorem exists_perm_of_eq (T : Tangled ((ofRules rules).specificities path) q n s) (h : n.depth = s.depth) :
    ∃ rules', rules'.Perm rules ∧ ∃ r, (ofRules rules').decider? path = some r ∧
      ¬FirstUnbeaten ((ofRules rules').matchingRules path) r := by
  obtain ⟨hwq, hwn, hws⟩ := T.wildcards
  obtain ⟨rules', hperm, M₁, M₂, M₃, M₄, hM, hmem, b₁, b₂, b₃, b₄⟩ := exists_blocks rules path
    (fun x => SameRung q x ∧ x.wildcards = .star ∧ x.depth = s.depth)
    (fun x => SameRung q x ∧ x.wildcards = .neither)
    (fun x => SameRung q x ∧ x.wildcards = .question)
  obtain ⟨c, hc, hbest⟩ : ∃ c ∈ M₃, (M₁ ++ (M₂ ++ (M₃ ++ M₄))).foldl better none = some c := by
    refine best_of_blocks ?_ ?_ ?_ ?_
    · obtain ⟨x, hx, -⟩ := b₁.exists_mem s T.mem.2.2 ⟨T.sameRung_star, hws, rfl⟩
      exact List.ne_nil_of_mem hx
    · intro b hb x hx
      obtain ⟨hqb, hwb, hdb⟩ := b₁.property b hb
      obtain ⟨-, -, hwx⟩ := b₂.property x hx
      exact T.rank_star_ne_gt (hmem x (by simp [hx])) hqb hwb hdb (by simp [hwx])
    · intro b hb
      obtain ⟨hqb, hwb, -⟩ := b₁.property b hb
      obtain ⟨x, hx, hxq⟩ := b₃.exists_mem q T.mem.1 ⟨by simp [hwq], by simp [hwq], T.sameRung_question, hwq⟩
      refine ⟨x, hx, ?_⟩
      rw [Beats, hxq, rank_gt_on_rung T.sameRung_question hqb, hwq, hwb]
      exact .inl rfl
    · intro b hb x hx
      obtain ⟨-, -, hqb, hwb⟩ := b₃.property b hb
      obtain ⟨-, hnn, hnq⟩ := b₄.property x hx
      by_cases hqx : SameRung q x.1.specificity
      · rw [Beats, rank_gt_on_rung hqx hqb, hwb]
        cases hwx : x.1.specificity.wildcards with
        | question => exact absurd ⟨hqx, hwx⟩ hnq
        | star => simp [Wildcards.compare]
        | neither => exact absurd ⟨hqx, hwx⟩ hnn
      · exact T.rank_ne_gt (hmem x (by simp [hx])) hqx hqb
  refine ⟨rules', hperm, (c.2, c.1.rule), by simp [decider?, best?, hM, hbest], fun hfirst => ?_⟩
  obtain ⟨-, -, hqc, hwc⟩ := b₃.property c hc
  obtain ⟨x, hx, hxn⟩ := b₂.exists_mem n T.mem.2.1 ⟨by simp [hwn], T.left, hwn⟩
  have hcx := (unbeaten_iff (by simp [hM, hc])).1 hfirst.1 x (by simp [hM, hx])
  rw [Beats, hxn, rank_gt_on_rung T.left hqc, hwn, hwc] at hcx
  have hqn := T.depths.1
  have hcq := (T.depth_le (hmem c (by simp [hc])) hqc).1 hwc
  have hnc : n.depth ≤ c.1.specificity.depth := by simpa [Wildcards.compare] using hcx
  -- all three greatest depths are the same, so nothing beats the entry with neither wildcard
  have hxx : Unbeaten ((ofRules rules').matchingRules path) (x.2, x.1.rule) := by
    refine (unbeaten_iff (by simp [hM, hx])).2 fun y hy => ?_
    rw [hM] at hy
    rw [Beats, hxn]
    exact T.rank_neither_ne_gt (by omega) (hmem y hy)
  have hle : c.2 ≤ x.2 := hfirst.2 _ hxx
  have hlt : x.2 < c.2 := place_lt_of_split (hM.trans (List.append_assoc _ _ _).symm) (by simp [hx]) (by simp [hc])
  omega

/-- Tangled rules can be put in an order in which the first unbeaten rule does not decide. -/
theorem exists_perm_of_tangled (h : IsTangled ((ofRules rules).specificities path)) :
    ∃ rules', rules'.Perm rules ∧ ∃ r, (ofRules rules').decider? path = some r ∧
      ¬FirstUnbeaten ((ofRules rules').matchingRules path) r := by
  obtain ⟨q, n, s, T⟩ := h
  rcases T.depths.2.lt_or_eq with h | h
  · exact exists_perm_of_lt T h
  · exact exists_perm_of_eq T h

end Tangle

/-! ## The deciding rule -/

section Decider

variable {rules : List Rule} {place : Nat} {rule : Rule}

theorem bestMatch_eq_none_iff : (ofRules rules).bestMatch? path = none ↔
    ∀ rule ∈ rules, pathMatches path rule.pattern = false := by
  rw [bestMatch?, Option.map_eq_none_iff, best?, best_eq_none_iff, List.eq_nil_iff_forall_not_mem]
  constructor
  · intro h rule hr
    by_contra hm
    obtain ⟨x, hx, -⟩ := exists_mem_of_rule (k := 0) hr (by simpa using hm)
    exact h x hx
  · intro h x hx
    obtain ⟨hr, hm⟩ := rule_of_mem hx
    simp [h _ hr] at hm

/-- The deciding rule is a matching rule at its place, and no matching rule after it is more specific. -/
theorem decider_spec (h : (ofRules rules).decider? path = some (place, rule)) :
    rules[place]? = some rule ∧ (place, rule) ∈ (ofRules rules).matchingRules path ∧
      ∀ other ∈ (ofRules rules).matchingRules path, place < other.1 →
        moreSpecific other.2.pattern rule.pattern = false := by
  obtain ⟨c, hc, hcr⟩ := Option.map_eq_some_iff.1 h
  obtain ⟨rfl, rfl⟩ := Prod.mk.inj hcr
  have hmem : c ∈ (ofRules rules).matching path := mem_of_best hc
  obtain ⟨pre, post, hsplit, hpost⟩ := exists_split_of_best hc
  obtain ⟨rule', hrule, -, hget, -⟩ := mem_matchingFrom.1 hmem
  refine ⟨by rw [hrule]; exact hget, List.mem_map_of_mem hmem, ?_⟩
  intro other hother hlt
  obtain ⟨x, hx, rfl⟩ := List.mem_map.1 hother
  rw [← Bool.not_eq_true, moreSpecific_iff_beats hx hmem]
  refine hpost x ?_
  rw [hsplit, List.mem_append, List.mem_cons] at hx
  rcases hx with hx | rfl | hx
  · exact absurd (place_lt_of_split hsplit hx List.mem_cons_self) (by omega)
  · exact absurd hlt (lt_irrefl _)
  · exact hx

end Decider

/-- **The deciding rule.** There is none exactly if no rule matches the path. It is a matching rule, none of the
matching rules after it is more specific, and it is the first that no matching rule is more specific than, unless the
matching patterns are tangled. Tangled patterns have an order of the rules in which it is not. -/
theorem bestMatch_unbeaten (rules : List Rule) (path : String) :
    ((ofRules rules).bestMatch? path = none ↔ ∀ rule ∈ rules, pathMatches path rule.pattern = false) ∧
    (∀ rule, (ofRules rules).bestMatch? path = some rule ↔
      ∃ place, (ofRules rules).decider? path = some (place, rule)) ∧
    (∀ place rule, (ofRules rules).decider? path = some (place, rule) →
      rules[place]? = some rule ∧ (place, rule) ∈ (ofRules rules).matchingRules path ∧
      ∀ other ∈ (ofRules rules).matchingRules path, place < other.1 →
        moreSpecific other.2.pattern rule.pattern = false) ∧
    (¬IsTangled ((ofRules rules).specificities path) → ∀ r, (ofRules rules).decider? path = some r →
      FirstUnbeaten ((ofRules rules).matchingRules path) r) ∧
    (IsTangled ((ofRules rules).specificities path) →
      ∃ rules', rules'.Perm rules ∧ ∃ r, (ofRules rules').decider? path = some r ∧
        ¬FirstUnbeaten ((ofRules rules').matchingRules path) r) := by
  refine ⟨bestMatch_eq_none_iff, fun rule => ?_, fun place rule => decider_spec,
    fun h r => firstUnbeaten_of_not_tangled h, exists_perm_of_tangled⟩
  rw [bestMatch_eq_decider, Option.map_eq_some_iff]
  exact ⟨fun ⟨⟨place, _⟩, h, hr⟩ => ⟨place, hr ▸ h⟩, fun ⟨place, h⟩ => ⟨(place, rule), h, rfl⟩⟩

/-- The deciding rule can be beaten by a matching rule that no matching rule beats. -/
theorem bestMatch_beaten :
    let rules : List Rule := [⟨"src/**", ["@a"]⟩, ⟨"**/test?", ["@b"]⟩, ⟨"src/**/*", ["@c"]⟩]
    (ofRules rules).bestMatch? "src/tests" = some ⟨"src/**/*", ["@c"]⟩ ∧
      (1, ⟨"**/test?", ["@b"]⟩) ∈ (ofRules rules).matchingRules "src/tests" ∧
      moreSpecific "**/test?" "src/**/*" = true ∧
      ∀ rule ∈ rules, moreSpecific rule.pattern "**/test?" = false := by
  decide +kernel

end PathOwners.RuleSet
