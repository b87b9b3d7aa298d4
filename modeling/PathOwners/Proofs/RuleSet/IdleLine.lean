import PathOwners.Proofs.Rule.LineEndings
import PathOwners.Proofs.RuleSet.LineByLine

/-!
# Idle lines

A line may hold no rule, or a rule that says nothing about a path, since its pattern cannot be compiled or does not
match. Wherever such a line stands in a file, the file without it gives the path the same rule, and the same rules match
in the same order (`findBestMatch_idleLine`). Only the places of the rules behind the line move, by one if the line
holds a rule.
-/

namespace PathOwners

/-- A line that says nothing about a path: it holds no rule, or the pattern of its rule cannot be compiled or does not
match the path. -/
def Rule.IsIdle (path line : String) : Prop :=
  Rule.ofLine? line = none ∨ ∃ rule, Rule.ofLine? line = some rule ∧
    ((∃ e, Glob.compile rule.pattern = .error e) ∨ pathMatches path rule.pattern = false)

/-- The pattern of the rule on an idle line does not match. -/
theorem Rule.IsIdle.not_match {path line : String} (h : Rule.IsIdle path line) :
    ∀ rule ∈ (Rule.ofLine? line).toList, pathMatches path rule.pattern = false := by
  rcases h with hnone | ⟨rule, hrule, hidle⟩
  · simp [hnone]
  · intro other hother
    obtain rfl : other = rule := by simpa [hrule] using hother
    rcases hidle with ⟨e, he⟩ | hmatch
    · rw [pathMatches, he]
      rfl
    · exact hmatch

namespace RuleSet

variable {path : String} {before idle after : List Rule}

/-! ## Rules that do not match -/

/-- The place of a rule when some rules are put in before the place `start`. -/
def movedPlace (start count place : Nat) : Nat := if place < start then place else place + count

theorem matchingFrom_eq_nil {rules : List Rule} (k : Nat) (h : ∀ rule ∈ rules, pathMatches path rule.pattern = false) :
    matchingFrom path k rules = [] := by
  rw [List.eq_nil_iff_forall_not_mem]
  intro x hx
  obtain ⟨hmem, hmatch⟩ := rule_of_mem hx
  rw [h _ hmem] at hmatch
  cases hmatch

/-- Matching entries that have moved. -/
theorem matchingFrom_add (path : String) (k n : Nat) (rules : List Rule) :
    matchingFrom path (k + n) rules = (matchingFrom path k rules).map fun x => (x.1, x.2 + n) := by
  have hplaces : (entriesOf rules).zipIdx (k + n) = ((entriesOf rules).zipIdx k).map fun x => (x.1, x.2 + n) := by
    rw [Nat.add_comm, ← List.map_snd_add_zipIdx_eq_zipIdx]
    rfl
  rw [matchingFrom, hplaces, List.filter_map]
  rfl

/-- **Rules that do not match change nothing but places.** -/
theorem matching_insert (hidle : ∀ rule ∈ idle, pathMatches path rule.pattern = false) :
    (ofRules (before ++ idle ++ after)).matching path =
      ((ofRules (before ++ after)).matching path).map fun x => (x.1, movedPlace before.length idle.length x.2) := by
  have hbefore : matchingFrom path 0 before =
      (matchingFrom path 0 before).map fun x => (x.1, movedPlace before.length idle.length x.2) := by
    refine (List.map_id _).symm.trans (List.map_congr_left fun x hx => ?_)
    obtain ⟨rule, -, -, hget, -⟩ := mem_matchingFrom.mp hx
    obtain ⟨hlt, -⟩ := List.getElem?_eq_some_iff.mp hget
    rw [movedPlace, if_pos (by omega)]
    rfl
  have hafter : matchingFrom path (before.length + idle.length) after =
      (matchingFrom path before.length after).map fun x => (x.1, movedPlace before.length idle.length x.2) := by
    rw [matchingFrom_add]
    refine List.map_congr_left fun x hx => ?_
    obtain ⟨rule, -, hle, -⟩ := mem_matchingFrom.mp hx
    rw [movedPlace, if_neg (by omega)]
  rw [matching_ofRules, matching_ofRules, matching_append, matching_append, matching_append,
    matchingFrom_eq_nil _ hidle, List.append_nil, List.map_append, ← hbefore, Nat.zero_add, Nat.zero_add,
    List.length_append, hafter]

theorem bestMatch_insert (hidle : ∀ rule ∈ idle, pathMatches path rule.pattern = false) :
    (ofRules (before ++ idle ++ after)).bestMatch? path = (ofRules (before ++ after)).bestMatch? path := by
  have hfilter : idle.filter (fun rule => pathMatches path rule.pattern) = [] := by
    rw [List.filter_eq_nil_iff]
    intro rule hrule
    simp [hidle rule hrule]
  rw [bestMatch_ofRules, bestMatch_ofRules, List.filter_append, List.filter_append, hfilter, List.append_nil,
    List.filter_append]

theorem matchingRules_insert (hidle : ∀ rule ∈ idle, pathMatches path rule.pattern = false) :
    (ofRules (before ++ idle ++ after)).matchingRules path =
      ((ofRules (before ++ after)).matchingRules path).map fun x =>
        (movedPlace before.length idle.length x.1, x.2) := by
  rw [matchingRules, matchingRules, matching_insert hidle, List.map_map, List.map_map]
  rfl

end RuleSet

/-! ## Idle lines -/

/-- The rules of a text with a line put in. -/
theorem Rule.ofText_insert {line : String} (hnewline : '\n' ∉ line.toList) (a b : String) :
    Rule.ofText (a ++ "\n" ++ line ++ "\n" ++ b) = Rule.ofText a ++ (Rule.ofLine? line).toList ++ Rule.ofText b := by
  rw [Rule.ofText_append, Rule.ofText_append, Rule.ofText_of_not_mem hnewline]

/-- **An idle line never affects the rest of a file.** With the line and without it, the path is given the same rule,
and the same rules match in the same order; the places of those behind the line move by the number of rules on it. -/
theorem findBestMatch_idleLine {path line : String} (hnewline : '\n' ∉ line.toList) (hidle : Rule.IsIdle path line)
    (a b : String) :
    findBestMatch path (a ++ "\n" ++ line ++ "\n" ++ b) = findBestMatch path (a ++ "\n" ++ b) ∧
    ((RuleSet.ofText (a ++ "\n" ++ line ++ "\n" ++ b)).matchingRules path).map Prod.snd =
      ((RuleSet.ofText (a ++ "\n" ++ b)).matchingRules path).map Prod.snd ∧
    (RuleSet.ofText (a ++ "\n" ++ line ++ "\n" ++ b)).matchingRules path =
      ((RuleSet.ofText (a ++ "\n" ++ b)).matchingRules path).map fun x =>
        (RuleSet.movedPlace (Rule.ofText a).length (Rule.ofText line).length x.1, x.2) := by
  have hwith : RuleSet.ofText (a ++ "\n" ++ line ++ "\n" ++ b) =
      .ofRules (Rule.ofText a ++ (Rule.ofLine? line).toList ++ Rule.ofText b) := by
    rw [RuleSet.ofText, Rule.ofText_insert hnewline]
  have hwithout : RuleSet.ofText (a ++ "\n" ++ b) = .ofRules (Rule.ofText a ++ Rule.ofText b) := by
    rw [RuleSet.ofText, Rule.ofText_append]
  rw [findBestMatch, findBestMatch, hwith, hwithout, Rule.ofText_of_not_mem hnewline,
    RuleSet.matchingRules_insert hidle.not_match]
  refine ⟨RuleSet.bestMatch_insert hidle.not_match, ?_, rfl⟩
  rw [List.map_map]
  rfl

/-- Three idle lines: an open quote, a range that ends before it starts, and a pattern for another directory. -/
theorem findBestMatch_idleLine_kinds :
    let a := "* @a\nsrc/*.rs @b"
    let b := "src/ @c\r"
    let best := findBestMatch "src/a.rs" (a ++ "\n" ++ b)
    findBestMatch "src/a.rs" (a ++ "\n" ++ "\"src/ @x" ++ "\n" ++ b) = best ∧
      findBestMatch "src/a.rs" (a ++ "\n" ++ "src/[z-a].rs @x\r" ++ "\n" ++ b) = best ∧
      findBestMatch "src/a.rs" (a ++ "\n" ++ "docs/ @x" ++ "\n" ++ b) = best ∧
      best = some ⟨"src/*.rs", ["@b"]⟩ := by
  intro a b best
  have hopen : Rule.IsIdle "src/a.rs" "\"src/ @x" := .inl (by decide)
  have hrange : Rule.IsIdle "src/a.rs" "src/[z-a].rs @x\r" :=
    .inr ⟨⟨"src/[z-a].rs", ["@x"]⟩, by decide, .inl ⟨.invalidRange 'z' 'a', rfl⟩⟩
  have hother : Rule.IsIdle "src/a.rs" "docs/ @x" := .inr ⟨⟨"docs/", ["@x"]⟩, by decide, .inr (by decide +kernel)⟩
  exact ⟨(findBestMatch_idleLine (by decide) hopen a b).1, (findBestMatch_idleLine (by decide) hrange a b).1,
    (findBestMatch_idleLine (by decide) hother a b).1, by decide +kernel⟩

end PathOwners
