import PathOwners.Proofs.RuleSet.Best

/-!
# Resolution line by line

What decides about a path, said of the lines of a file: the rules on them whose pattern matches the path, each compared
with the best one before it, and both patterns read anew at every comparison (`Rule.best?`). A rule set compiles its
patterns once and compares entries, and it finds the same rule (`RuleSet.bestMatch_ofRules`). The rules that it says
match are those whose pattern does, each once and in the order of the file.
-/

namespace PathOwners

/-! ## The best of some rules -/

/-- The better of the best rule so far and the next one. -/
def Rule.prefer (best next : Rule) : Rule := if moreSpecific next.pattern best.pattern then next else best

/-- The best of some rules: the first one, or a later one that is more specific than the best before it. -/
def Rule.best? : List Rule → Option Rule
  | [] => none
  | first :: later => some (later.foldl Rule.prefer first)

/-- The rules on the lines of a text. -/
def Rule.onLines (text : String) : List Rule :=
  ((Text.lines text.toList).map String.ofList).filterMap Rule.ofLine?

/-- The rules on the lines of a text whose pattern matches a path. -/
def Rule.matchingLines (path text : String) : List Rule :=
  (Rule.onLines text).filter fun rule => pathMatches path rule.pattern

theorem Rule.ofText_eq_onLines (text : String) : Rule.ofText text = Rule.onLines text := by
  have hline : Rule.ofLine? ∘ String.ofList = Rule.ofChars? := by
    funext line
    simp [Rule.ofLine?]
  rw [Rule.onLines, List.filterMap_map, hline]
  rfl

namespace RuleSet

variable {path : String}

/-! ## Entries and their rules -/

/-- An entry that was made from its rule. -/
def IsCompiled (x : Entry × Nat) : Prop := x.1.specificity = .ofPattern x.1.rule.pattern

/-- Comparing two entries is comparing the patterns of their rules. -/
theorem rule_of_better {b x : Entry × Nat} (hb : IsCompiled b) (hx : IsCompiled x) :
    ∃ c, better (some b) x = some c ∧ IsCompiled c ∧ c.1.rule = Rule.prefer b.1.rule x.1.rule := by
  have hrank : moreSpecific x.1.rule.pattern b.1.rule.pattern = x.1.specificity.outranks b.1.specificity := by
    rw [hx, hb]
    rfl
  by_cases hbeats : x.1.specificity.outranks b.1.specificity = true
  · refine ⟨x, ?_, hx, ?_⟩
    · simp only [better, hbeats, if_true]
    · rw [Rule.prefer, hrank, if_pos hbeats]
  · refine ⟨b, ?_, hb, ?_⟩
    · simp only [better, hbeats, Bool.false_eq_true, if_false]
    · rw [Rule.prefer, hrank, if_neg hbeats]

/-- The best of some entries is that of the best of their rules. -/
theorem rule_of_foldl_better : ∀ {l : List (Entry × Nat)} {b : Entry × Nat}, IsCompiled b → (∀ x ∈ l, IsCompiled x) →
    (l.foldl better (some b)).map (fun x => x.1.rule) =
      some ((l.map fun x => x.1.rule).foldl Rule.prefer b.1.rule)
  | [], _, _, _ => rfl
  | x :: l, b, hb, hl => by
    obtain ⟨hx, hl⟩ := List.forall_mem_cons.mp hl
    obtain ⟨c, hc, hcompiled, hrule⟩ := rule_of_better hb hx
    rw [List.foldl_cons, hc, rule_of_foldl_better hcompiled hl, hrule, List.map_cons, List.foldl_cons]

theorem rule_of_best {l : List (Entry × Nat)} (hl : ∀ x ∈ l, IsCompiled x) :
    (l.foldl better none).map (fun x => x.1.rule) = Rule.best? (l.map fun x => x.1.rule) := by
  cases l with
  | nil => rfl
  | cons b l =>
    obtain ⟨hb, hl⟩ := List.forall_mem_cons.mp hl
    exact rule_of_foldl_better hb hl

/-- The rules of the matching entries are the rules whose pattern matches. -/
theorem rules_matchingFrom (path : String) (k : Nat) (rules : List Rule) :
    (matchingFrom path k rules).map (fun x => x.1.rule) = rules.filter fun rule => pathMatches path rule.pattern := by
  have hplaces : (matchingFrom path k rules).map Prod.fst = (entriesOf rules).filter (Entry.isMatch path) := by
    have hfilter := List.filter_map (f := Prod.fst) (p := Entry.isMatch path) (l := (entriesOf rules).zipIdx k)
    rw [List.zipIdx_map_fst] at hfilter
    exact hfilter.symm
  calc (matchingFrom path k rules).map (fun x => x.1.rule)
      = ((matchingFrom path k rules).map Prod.fst).map Entry.rule := (List.map_map ..).symm
    _ = ((entriesOf rules).filter (Entry.isMatch path)).map Entry.rule := by rw [hplaces]
    _ = (rules.filter fun rule => pathMatches path rule.pattern).map id := by
      rw [entriesOf, List.filter_map, List.map_map]
      rfl
    _ = rules.filter fun rule => pathMatches path rule.pattern := List.map_id _

/-! ## Rule sets -/

/-- **The rule that decides is the best of the matching rules** -/
theorem bestMatch_ofRules (rules : List Rule) (path : String) :
    (ofRules rules).bestMatch? path = Rule.best? (rules.filter fun rule => pathMatches path rule.pattern) := by
  rw [bestMatch?, best?, matching_ofRules, ← rules_matchingFrom path 0 rules]
  exact rule_of_best fun x hx => specificity_of_mem hx

theorem bestMatch_singleton (rule : Rule) (path : String) :
    (ofRules [rule]).bestMatch? path = if pathMatches path rule.pattern = true then some rule else none := by
  rw [bestMatch_ofRules]
  cases hmatch : pathMatches path rule.pattern <;> simp [hmatch, Rule.best?]

theorem rules_ofRules (rules : List Rule) : (ofRules rules).rules = rules := by
  simp [RuleSet.rules, ofRules, Entry.ofCompiled, Function.comp_def]

/-- The rules said to match are those whose pattern matches. -/
theorem mem_matchingRules {rules : List Rule} {place : Nat} {rule : Rule} :
    (place, rule) ∈ (ofRules rules).matchingRules path ↔
      rules[place]? = some rule ∧ pathMatches path rule.pattern = true := by
  rw [matchingRules, List.mem_map]
  constructor
  · rintro ⟨x, hx, hxr⟩
    obtain ⟨rfl, rfl⟩ := Prod.mk.inj hxr
    obtain ⟨rule, hentry, -, hget, hm⟩ := mem_matchingFrom.mp hx
    rw [hentry]
    exact ⟨hget, hm⟩
  · rintro ⟨hget, hm⟩
    exact ⟨(.ofCompiled rule (Glob.compile rule.pattern), place),
      mem_matchingFrom.mpr ⟨rule, rfl, Nat.zero_le place, hget, hm⟩, rfl⟩

/-- The places of the rules said to match grow. -/
theorem matchingRules_pairwise (rules : List Rule) (path : String) :
    ((ofRules rules).matchingRules path).Pairwise fun a b => a.1 < b.1 :=
  List.pairwise_map.mpr (matching_pairwise path 0 rules)

end RuleSet

/-- **Resolution line by line.** The rule found for a path in a text is the best of the matching rules on its lines. The
rule set of the text finds the same rule and its owners; its rules are those on the lines, and those that it says match
are the ones whose pattern matches, at their places, which grow. -/
theorem findBestMatch_lineByLine (path text : String) :
    findBestMatch path text = Rule.best? (Rule.matchingLines path text) ∧
    (RuleSet.ofText text).rules = Rule.onLines text ∧
    (RuleSet.ofText text).bestMatch? path = Rule.best? (Rule.matchingLines path text) ∧
    (RuleSet.ofText text).ownersOf? path = (Rule.best? (Rule.matchingLines path text)).map Rule.owners ∧
    ((RuleSet.ofText text).matchingRules path).Pairwise (fun a b => a.1 < b.1) ∧
    ∀ place rule, (place, rule) ∈ (RuleSet.ofText text).matchingRules path ↔
      (Rule.onLines text)[place]? = some rule ∧ pathMatches path rule.pattern = true := by
  have hset : RuleSet.ofText text = RuleSet.ofRules (Rule.onLines text) := by
    rw [RuleSet.ofText, Rule.ofText_eq_onLines]
  have hbest : (RuleSet.ofText text).bestMatch? path = Rule.best? (Rule.matchingLines path text) := by
    rw [hset, RuleSet.bestMatch_ofRules]
    rfl
  refine ⟨hbest, ?_, hbest, ?_, ?_, ?_⟩
  · rw [hset, RuleSet.rules_ofRules]
  · rw [RuleSet.ownersOf?, hbest]
  · rw [hset]
    exact RuleSet.matchingRules_pairwise _ path
  · intro place rule
    rw [hset]
    exact RuleSet.mem_matchingRules

end PathOwners
