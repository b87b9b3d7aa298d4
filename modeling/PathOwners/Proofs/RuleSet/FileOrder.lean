import PathOwners.Proofs.RuleSet.Unbeaten
import PathOwners.Proofs.Specificity.Criteria
import PathOwners.Proofs.Specificity.Order

/-!
# The order of the rules in a file

The rule that decides has the best standing of all matching rules (`standing_le_of_best`), wherever it stands. So when
the rules of a file change places, the new deciding rule agrees with the old one in every criterion before the
wildcards, and both have the best values of all matching rules. Only the wildcards and the depth can tell them apart
(`bestMatch_perm`). Where a plain path matches even these cannot: the first plain path that matches decides
(`decider_of_exact`).
-/

namespace PathOwners.RuleSet

open Specificity

variable {path : String} {rules rules' : List Rule}

/-! ## The best standing -/

/-- The better of two entries has the better standing. -/
theorem foldl_better_standing : ∀ {l : List (Entry × Nat)} {b c : Entry × Nat}, l.foldl better (some b) = some c →
    ∀ x ∈ b :: l, x.1.specificity.standing ≤ c.1.specificity.standing
  | [], b, c, h => by
    obtain rfl : b = c := Option.some.inj h
    simp
  | y :: l, b, c, h => by
    rw [List.foldl_cons] at h
    by_cases hbeats : Beats y b
    · rw [better_of_beats hbeats] at h
      have hbest := foldl_better_standing h
      have hy : b.1.specificity.standing ≤ y.1.specificity.standing := by
        rcases (rank_gt_iff _ _).mp hbeats with hlt | ⟨heq, -⟩
        · exact hlt.le
        · exact heq.ge
      refine List.forall_mem_cons.mpr ⟨hy.trans (hbest y List.mem_cons_self), hbest⟩
    · rw [better_of_not_beats hbeats] at h
      obtain ⟨hb, hl⟩ := List.forall_mem_cons.mp (foldl_better_standing h)
      have hy : y.1.specificity.standing ≤ b.1.specificity.standing := by
        by_contra hlt
        exact hbeats ((rank_gt_iff _ _).mpr (.inl (not_le.mp hlt)))
      exact List.forall_mem_cons.mpr ⟨hb, List.forall_mem_cons.mpr ⟨hy.trans hb, hl⟩⟩

/-- **The entry chosen has the best standing.** -/
theorem standing_le_of_best {l : List (Entry × Nat)} {c : Entry × Nat} (h : l.foldl better none = some c) :
    ∀ x ∈ l, x.1.specificity.standing ≤ c.1.specificity.standing := by
  cases l with
  | nil => cases h
  | cons b l => exact foldl_better_standing h

/-- The deciding rule is one of the rules, matches the path, and has the best standing of those that do. -/
theorem bestMatch_spec {rule : Rule} (h : (ofRules rules).bestMatch? path = some rule) :
    rule ∈ rules ∧ pathMatches path rule.pattern = true ∧
      ∀ other ∈ rules, pathMatches path other.pattern = true →
        (ofPattern other.pattern).standing ≤ (ofPattern rule.pattern).standing := by
  obtain ⟨c, hc, rfl⟩ := Option.map_eq_some_iff.mp h
  have hmem : c ∈ (ofRules rules).matching path := mem_of_best hc
  obtain ⟨hrule, hmatch⟩ := rule_of_mem hmem
  refine ⟨hrule, hmatch, fun other hother hmatch' => ?_⟩
  obtain ⟨x, hx, rfl⟩ := exists_mem_of_rule (k := 0) hother hmatch'
  rw [← specificity_of_mem hx, ← specificity_of_mem hmem]
  exact standing_le_of_best hc x hx

/-! ## Plain paths -/

/-- A rule whose pattern is a plain path and matches the path. -/
def IsExactMatch (path : String) (rule : Rule) : Prop :=
  pathMatches path rule.pattern = true ∧ (ofPattern rule.pattern).exact = true

/-- A plain path has a better standing than any other pattern. -/
theorem standing_lt_of_exact {a b : Specificity} (ha : a.exact = false) (hb : b.exact = true)
    (hcatchAll : b.catchAll = false) : a.standing < b.standing := by
  unfold standing
  rw [ha, hb, hcatchAll]
  cases a.catchAll <;> simp [Prod.Lex.toLex_lt_toLex]

section Exact

variable {rule other : Rule}

/-- A plain path that matches stands above every pattern that is not a plain path. -/
theorem IsExactMatch.standing_lt (hrule : IsExactMatch path rule) (hother : (ofPattern other.pattern).exact = false) :
    (ofPattern other.pattern).standing < (ofPattern rule.pattern).standing := by
  refine standing_lt_of_exact hother hrule.2 ?_
  rw [ofPattern_of_exact hrule.2 hrule.1]
  rfl

/-- No pattern that matches is more specific than a plain path that does. -/
theorem IsExactMatch.rank_ne_gt (hrule : IsExactMatch path rule) (hother : pathMatches path other.pattern = true) :
    (ofPattern other.pattern).rank (ofPattern rule.pattern) ≠ .gt := by
  cases hexact : (ofPattern other.pattern).exact with
  | false => exact rank_ne_gt_of_standing_lt (hrule.standing_lt hexact)
  | true =>
    rw [ofPattern_of_exact hexact hother, ofPattern_of_exact hrule.2 hrule.1]
    exact rank_self_ne_gt _

/-- **The first plain path that matches decides.** -/
theorem decider_of_exact {before after : List Rule} (hrule : IsExactMatch path rule)
    (hbefore : ∀ other ∈ before, ¬IsExactMatch path other) :
    (ofRules (before ++ rule :: after)).decider? path = some (before.length, rule) := by
  have hsplit : (ofRules (before ++ rule :: after)).matching path = matchingFrom path 0 before ++
      (.ofCompiled rule (Glob.compile rule.pattern), before.length) ::
        matchingFrom path (before.length + 1) after := by
    rw [matching_ofRules, matching_append, Nat.zero_add, matchingFrom_cons_of_match hrule.1]
  have hbest : (ofRules (before ++ rule :: after)).best? path =
      some (.ofCompiled rule (Glob.compile rule.pattern), before.length) := by
    rw [best?, hsplit]
    refine best_of_clear (fun x hx => ?_) fun x hx => ?_
    · obtain ⟨hmem, hmatch⟩ := rule_of_mem hx
      have hexact : (ofPattern x.1.rule.pattern).exact = false := by
        rw [← Bool.not_eq_true]
        exact fun hexact => hbefore _ hmem ⟨hmatch, hexact⟩
      rw [Beats, specificity_of_mem hx]
      exact (rank_gt_iff _ _).mpr (.inl (hrule.standing_lt hexact))
    · rw [Beats, specificity_of_mem hx]
      exact hrule.rank_ne_gt (rule_of_mem hx).2
  rw [decider?, hbest]
  rfl

end Exact

/-! ## Rules that change places -/

theorem bestMatch_eq_none_of_perm (h : rules'.Perm rules) :
    (ofRules rules').bestMatch? path = none ↔ (ofRules rules).bestMatch? path = none := by
  rw [bestMatch_eq_none_iff, bestMatch_eq_none_iff]
  exact forall_congr' fun rule => by rw [h.mem_iff]

/-- The deciding rules before and after are level in the criteria before the wildcards. -/
theorem sameCriteria_of_perm (h : rules'.Perm rules) {rule rule' : Rule}
    (hrule : (ofRules rules).bestMatch? path = some rule) (hrule' : (ofRules rules').bestMatch? path = some rule') :
    SameCriteria (ofPattern rule.pattern) (ofPattern rule'.pattern) := by
  obtain ⟨hmem, hmatch, hbest⟩ := bestMatch_spec hrule
  obtain ⟨hmem', hmatch', hbest'⟩ := bestMatch_spec hrule'
  have hle := hbest rule' (h.mem_iff.mp hmem') hmatch'
  have hge := hbest' rule (h.mem_iff.mpr hmem) hmatch
  exact sameCriteria_of_standing_eq hmatch hmatch' (hge.antisymm hle)

/-- If `*` decides, no other pattern matches. -/
theorem eq_star_of_bestMatch {rule : Rule} (hrule : (ofRules rules).bestMatch? path = some rule)
    (hstar : rule.pattern = "*") {other : Rule} (hother : other ∈ rules)
    (hmatch : pathMatches path other.pattern = true) : other.pattern = "*" := by
  obtain ⟨-, hmatch', hbest⟩ := bestMatch_spec hrule
  have hle := criteria_le_of_standing_le hmatch hmatch' (hbest other hother hmatch)
  by_contra hne
  have hcatchAll : (ofPattern other.pattern).catchAll = false := by
    rw [← Bool.not_eq_true, catchAll_iff]
    exact hne
  have hcatchAll' : (ofPattern rule.pattern).catchAll = true := (catchAll_iff _).mpr hstar
  refine absurd hle (not_le.mpr ?_)
  unfold criteria
  rw [hcatchAll, hcatchAll']
  exact Prod.Lex.toLex_lt_toLex.mpr (.inl rfl)

/-- If a plain path matches, the first one that does decides. -/
theorem exists_first_exact (h : ∃ rule ∈ rules, IsExactMatch path rule) :
    ∃ before rule after, rules = before ++ rule :: after ∧ IsExactMatch path rule ∧
      (∀ other ∈ before, ¬IsExactMatch path other) ∧
      (ofRules rules).decider? path = some (before.length, rule) ∧ (ofRules rules).bestMatch? path = some rule := by
  obtain ⟨before, rule, after, rfl, hrule, hbefore⟩ := exists_first h
  have hdecider : (ofRules (before ++ rule :: after)).decider? path = some (before.length, rule) :=
    decider_of_exact hrule hbefore
  refine ⟨before, rule, after, rfl, hrule, hbefore, hdecider, ?_⟩
  rw [bestMatch_eq_decider, hdecider]
  rfl

/-- **The order of the rules in a file.** When rules change places there is a deciding rule after exactly if there was
one before, and the two agree in all that the ladder asks before the wildcards. A deciding rule has the best values in
these criteria of all matching rules; it is `*` only if every matching pattern is `*`; and if a plain path matches, it
is the first plain path that does. -/
theorem bestMatch_perm {rules rules' : List Rule} (h : rules'.Perm rules) (path : String) :
    ((ofRules rules').bestMatch? path = none ↔ (ofRules rules).bestMatch? path = none) ∧
    (∀ rule rule', (ofRules rules).bestMatch? path = some rule → (ofRules rules').bestMatch? path = some rule' →
      SameCriteria (ofPattern rule.pattern) (ofPattern rule'.pattern)) ∧
    (∀ rule, (ofRules rules).bestMatch? path = some rule →
      ∀ other ∈ rules, pathMatches path other.pattern = true →
        (ofPattern other.pattern).criteria ≤ (ofPattern rule.pattern).criteria ∧
        (rule.pattern = "*" → other.pattern = "*")) ∧
    ((∃ rule ∈ rules, IsExactMatch path rule) →
      ∃ before rule after, rules = before ++ rule :: after ∧ IsExactMatch path rule ∧
        (∀ other ∈ before, ¬IsExactMatch path other) ∧
        (ofRules rules).decider? path = some (before.length, rule) ∧
        (ofRules rules).bestMatch? path = some rule) := by
  refine ⟨bestMatch_eq_none_of_perm h, fun rule rule' => sameCriteria_of_perm h, ?_, exists_first_exact⟩
  intro rule hrule other hother hmatch
  obtain ⟨-, hmatch', hbest⟩ := bestMatch_spec hrule
  exact ⟨criteria_le_of_standing_le hmatch hmatch' (hbest other hother hmatch),
    fun hstar => eq_star_of_bestMatch hrule hstar hother hmatch⟩

/-- Two ways to write one path: whichever comes first decides, and they agree. -/
theorem bestMatch_perm_reverse :
    let rules : List Rule :=
      [⟨"*", ["@a"]⟩, ⟨"/src/main.js", ["@b"]⟩, ⟨"src/*.js", ["@c"]⟩, ⟨"src\\main.js", ["@d"]⟩]
    (ofRules rules).bestMatch? "src/main.js" = some ⟨"/src/main.js", ["@b"]⟩ ∧
      (ofRules rules.reverse).bestMatch? "src/main.js" = some ⟨"src\\main.js", ["@d"]⟩ ∧
      SameCriteria (ofPattern "/src/main.js") (ofPattern "src\\main.js") ∧
      (ofPattern "src/*.js").criteria ≤ (ofPattern "/src/main.js").criteria ∧
      ∃ before rule after, rules = before ++ rule :: after ∧ IsExactMatch "src/main.js" rule ∧
        (∀ other ∈ before, ¬IsExactMatch "src/main.js" other) ∧
        (ofRules rules).decider? "src/main.js" = some (before.length, rule) ∧
        (ofRules rules).bestMatch? "src/main.js" = some rule := by
  intro rules
  have hbest : (ofRules rules).bestMatch? "src/main.js" = some ⟨"/src/main.js", ["@b"]⟩ := by decide +kernel
  have hbest' : (ofRules rules.reverse).bestMatch? "src/main.js" = some ⟨"src\\main.js", ["@d"]⟩ := by decide +kernel
  have hwild : pathMatches "src/main.js" "src/*.js" = true := by decide +kernel
  have hplain : pathMatches "src/main.js" "/src/main.js" = true ∧ (ofPattern "/src/main.js").exact = true := by
    decide +kernel
  obtain ⟨-, hsame, hgreatest, hfirst⟩ := bestMatch_perm rules.reverse_perm "src/main.js"
  have hagree := hsame _ _ hbest hbest'
  have hle := (hgreatest _ hbest ⟨"src/*.js", ["@c"]⟩ (by simp [rules]) hwild).1
  have hdecides := hfirst ⟨⟨"/src/main.js", ["@b"]⟩, by simp [rules], hplain⟩
  exact ⟨hbest, hbest', hagree, hle, hdecides⟩

end PathOwners.RuleSet
