import PathOwners.Proofs.Specificity.Standing
import PathOwners.RuleSet

/-!
# Choosing the best entry

`RuleSet.best?` keeps the best entry so far and never looks back. This file says what that finds, whatever the order of
the specificities is like:

- an entry that nothing after it beats (`exists_split_of_best`), and so one of the entries, unless there is none
  (`best_eq_none_iff`);
- the entry that beats all before it, if there is one that nothing after it beats (`best_of_clear`).

The places of the matching entries grow (`matching_pairwise`), and those of two parts of a rule list come one part after
the other (`matching_append`).
-/

namespace PathOwners.RuleSet

variable {b c u : Entry × Nat} {l : List (Entry × Nat)} {path : String}

/-! ## One step -/

/-- The first entry is more specific than the second. -/
def Beats (x y : Entry × Nat) : Prop := x.1.specificity.rank y.1.specificity = .gt

instance (x y : Entry × Nat) : Decidable (Beats x y) := inferInstanceAs (Decidable (_ = _))

theorem better_of_beats (h : Beats u b) : better (some b) u = some u := by
  simp [better, Specificity.outranks, show _ = _ from h]

theorem better_of_not_beats (h : ¬Beats u b) : better (some b) u = some b := by
  simp [better, Specificity.outranks, show ¬_ = _ from h]

/-! ## The fold -/

/-- What nothing beats is kept. -/
theorem foldl_better_of_not_beats : ∀ {l : List (Entry × Nat)}, (∀ x ∈ l, ¬Beats x b) →
    l.foldl better (some b) = some b
  | [], _ => rfl
  | x :: l, h => by
    rw [List.foldl_cons, better_of_not_beats (h x List.mem_cons_self)]
    exact foldl_better_of_not_beats fun y hy => h y (List.mem_cons_of_mem _ hy)

/-- The fold ends with the entry held at first, if nothing beats it, or with a later one that nothing after it beats. -/
theorem foldl_better_cases : ∀ (l : List (Entry × Nat)) (b : Entry × Nat),
    ∃ c, l.foldl better (some b) = some c ∧
      ((c = b ∧ ∀ x ∈ l, ¬Beats x b) ∨ ∃ pre post, l = pre ++ c :: post ∧ ∀ x ∈ post, ¬Beats x c)
  | [], b => ⟨b, rfl, .inl ⟨rfl, by simp⟩⟩
  | x :: l, b => by
    rw [List.foldl_cons]
    by_cases hx : Beats x b
    · rw [better_of_beats hx]
      obtain ⟨c, hc, h⟩ := foldl_better_cases l x
      refine ⟨c, hc, .inr ?_⟩
      rcases h with ⟨rfl, h⟩ | ⟨pre, post, rfl, h⟩
      · exact ⟨[], l, rfl, h⟩
      · exact ⟨x :: pre, post, rfl, h⟩
    · rw [better_of_not_beats hx]
      obtain ⟨c, hc, h⟩ := foldl_better_cases l b
      refine ⟨c, hc, ?_⟩
      rcases h with ⟨rfl, h⟩ | ⟨pre, post, rfl, h⟩
      · exact .inl ⟨rfl, List.forall_mem_cons.2 ⟨hx, h⟩⟩
      · exact .inr ⟨x :: pre, post, rfl, h⟩

/-- **The entry chosen is one that nothing after it beats.** -/
theorem exists_split_of_best (h : l.foldl better none = some c) :
    ∃ pre post, l = pre ++ c :: post ∧ ∀ x ∈ post, ¬Beats x c := by
  cases l with
  | nil => cases h
  | cons b l =>
    obtain ⟨c', hc, h'⟩ := foldl_better_cases l b
    obtain rfl : c' = c := Option.some.inj (hc.symm.trans h)
    rcases h' with ⟨rfl, h'⟩ | ⟨pre, post, rfl, h'⟩
    · exact ⟨[], l, rfl, h'⟩
    · exact ⟨b :: pre, post, rfl, h'⟩

theorem mem_of_best (h : l.foldl better none = some c) : c ∈ l := by
  obtain ⟨pre, post, rfl, -⟩ := exists_split_of_best h
  simp

theorem exists_best (h : l ≠ []) : ∃ c, l.foldl better none = some c := by
  cases l with
  | nil => exact absurd rfl h
  | cons b l =>
    obtain ⟨c, hc, -⟩ := foldl_better_cases l b
    exact ⟨c, hc⟩

theorem best_eq_none_iff : l.foldl better none = none ↔ l = [] := by
  constructor
  · intro h
    by_contra hl
    obtain ⟨c, hc⟩ := exists_best hl
    rw [h] at hc
    cases hc
  · rintro rfl
    rfl

/-- **An entry that beats all before it, and that nothing after it beats, is chosen.** -/
theorem best_of_clear {pre post : List (Entry × Nat)} (hpre : ∀ x ∈ pre, Beats u x) (hpost : ∀ x ∈ post, ¬Beats x u) :
    (pre ++ u :: post).foldl better none = some u := by
  have hu : better (pre.foldl better none) u = some u := by
    cases hb : pre.foldl better none with
    | none => rfl
    | some b => exact better_of_beats (hpre b (mem_of_best hb))
  rw [List.foldl_append, List.foldl_cons, hu]
  exact foldl_better_of_not_beats hpost

/-! ## The matching entries -/

/-- The entries of a list of rules. -/
def entriesOf (rules : List Rule) : List Entry := rules.map fun rule => .ofCompiled rule (Glob.compile rule.pattern)

/-- The matching entries of a list of rules whose first one has place `k`. -/
def matchingFrom (path : String) (k : Nat) (rules : List Rule) : List (Entry × Nat) :=
  ((entriesOf rules).zipIdx k).filter fun entry => entry.1.isMatch path

theorem matching_ofRules (rules : List Rule) (path : String) :
    (ofRules rules).matching path = matchingFrom path 0 rules := rfl

theorem matching_append (path : String) (k : Nat) (rules rules' : List Rule) :
    matchingFrom path k (rules ++ rules') =
      matchingFrom path k rules ++ matchingFrom path (k + rules.length) rules' := by
  simp [matchingFrom, entriesOf, List.zipIdx_append, List.filter_append]

theorem matchingFrom_cons_of_match {k : Nat} {rule : Rule} {rules : List Rule}
    (hm : pathMatches path rule.pattern = true) : matchingFrom path k (rule :: rules) =
      (.ofCompiled rule (Glob.compile rule.pattern), k) :: matchingFrom path (k + 1) rules := by
  have hentry : (Entry.ofCompiled rule (Glob.compile rule.pattern)).isMatch path = true := hm
  simp [matchingFrom, entriesOf, List.zipIdx_cons, hentry]

/-- **A matching entry is a rule of the list, at its place, whose pattern matches the path.** -/
theorem mem_matchingFrom {k : Nat} {rules : List Rule} {x : Entry × Nat} :
    x ∈ matchingFrom path k rules ↔ ∃ rule, x.1 = .ofCompiled rule (Glob.compile rule.pattern) ∧ k ≤ x.2 ∧
      rules[x.2 - k]? = some rule ∧ pathMatches path rule.pattern = true := by
  simp only [matchingFrom, entriesOf, List.mem_filter, List.mem_zipIdx_iff_le_and_getElem?_sub, List.getElem?_map,
    Option.map_eq_some_iff]
  constructor
  · rintro ⟨⟨hk, rule, hr, hx⟩, hm⟩
    rw [← hx] at hm
    exact ⟨rule, hx.symm, hk, hr, hm⟩
  · rintro ⟨rule, hx, hk, hr, hm⟩
    refine ⟨⟨hk, rule, hr, hx.symm⟩, ?_⟩
    rw [hx]
    exact hm

/-- The specificity of an entry is that of its rule's pattern. -/
theorem specificity_of_mem {k : Nat} {rules : List Rule} {x : Entry × Nat} (hx : x ∈ matchingFrom path k rules) :
    x.1.specificity = .ofPattern x.1.rule.pattern := by
  obtain ⟨rule, h, -⟩ := mem_matchingFrom.1 hx
  rw [h]
  rfl

/-- The rule of a matching entry is one of the list, and matches. -/
theorem rule_of_mem {k : Nat} {rules : List Rule} {x : Entry × Nat} (hx : x ∈ matchingFrom path k rules) :
    x.1.rule ∈ rules ∧ pathMatches path x.1.rule.pattern = true := by
  obtain ⟨rule, h, -, hr, hm⟩ := mem_matchingFrom.1 hx
  rw [h]
  exact ⟨List.mem_of_getElem? hr, hm⟩

/-- A rule that matches has a matching entry. -/
theorem exists_mem_of_rule {k : Nat} {rules : List Rule} {rule : Rule} (hr : rule ∈ rules)
    (hm : pathMatches path rule.pattern = true) : ∃ x ∈ matchingFrom path k rules, x.1.rule = rule := by
  obtain ⟨i, hi⟩ := List.mem_iff_getElem?.1 hr
  exact ⟨(.ofCompiled rule (Glob.compile rule.pattern), k + i),
    mem_matchingFrom.2 ⟨rule, rfl, Nat.le_add_right k i, by simpa using hi, hm⟩, rfl⟩

/-- The places grow. -/
theorem matching_pairwise (path : String) (k : Nat) (rules : List Rule) :
    (matchingFrom path k rules).Pairwise fun x y => x.2 < y.2 := by
  refine List.Pairwise.filter _ (List.pairwise_map.1 ?_)
  rw [List.zipIdx_map_snd]
  exact List.pairwise_lt_range'

end PathOwners.RuleSet
