import PathOwners.Command.Report
import PathOwners.Proofs.Rule.Characters
import PathOwners.Proofs.RuleSet.LineByLine
import PathOwners.Proofs.RuleSet.Unbeaten

/-!
# Every rule that matches a path

What is printed about a path and the rules that match it, read line by line (`matchText_marksDecider`): the path, and
then a line for each rule whose pattern matches, in the order of the file and with its number. One of these lines is
marked, the one of the rule that decides, even if another line of the file holds the same rule. No part of a rule has a
line feed in it, so the lines are those that were put together (`pieces_matchText`).
-/

namespace PathOwners.Command

open List (Forall₂)

/-! ## Lines -/

/-- A line for a rule and its place: a mark, the number of the rule counted from one at the right of a column of three
characters, its pattern at the left of one of 40, and its owners with a space between them. -/
def IsRuleLine (mark : Char) (entry : Nat × Rule) (line : List Char) : Prop :=
  let number := (toString (entry.1 + 1)).toList
  let pattern := entry.2.pattern.toList
  line = [' ', mark] ++ " rule ".toList ++ List.replicate (3 - number.length) ' ' ++ number ++ ": ".toList ++
    pattern ++ List.replicate (40 - pattern.length) ' ' ++ "  ".toList ++ (" ".intercalate entry.2.owners).toList

theorem isRuleLine_ruleLine (decides : Bool) (entry : Nat × Rule) :
    IsRuleLine (if decides then '*' else ' ') entry (ruleLine decides entry.1 entry.2).toList := by
  obtain ⟨place, rule⟩ := entry
  unfold IsRuleLine
  cases decides <;> simp [ruleLine, ownerList, Text.Column.set, Text.Column.cut, Text.Alignment.margins]

theorem newline_not_mem_toString (n : Nat) : '\n' ∉ (toString n).toList := by
  rw [Nat.toString_eq_repr, Nat.toList_repr]
  intro h
  exact absurd (Nat.isDigit_of_mem_toDigits (by decide) (by decide) h) (by decide)

theorem newline_not_mem_owners {owners : List String} (h : ∀ owner ∈ owners, '\n' ∉ owner.toList) :
    '\n' ∉ (" ".intercalate owners).toList := by
  rw [String.toList_intercalate]
  induction owners with
  | nil => simp
  | cons owner owners ih =>
    obtain ⟨howner, howners⟩ := List.forall_mem_cons.mp h
    cases owners with
    | nil => simpa using howner
    | cons next owners =>
      rw [List.map_cons, List.map_cons, List.intercalate_cons_cons, ← List.map_cons]
      simp only [List.mem_append, not_or]
      exact ⟨⟨howner, by decide⟩, ih howners⟩

/-- The line for a rule of a text is one line. -/
theorem newline_not_mem_ruleLine {text : String} {place : Nat} {rule : Rule} (h : rule ∈ Rule.ofText text)
    (decides : Bool) : '\n' ∉ (ruleLine decides place rule).toList := by
  have hline := isRuleLine_ruleLine decides (place, rule)
  obtain ⟨hpattern, howners⟩ := Rule.newline_not_mem_of_ofText h
  have hspaces : ∀ n, '\n' ∉ List.replicate n ' ' := fun n h => absurd (List.eq_of_mem_replicate h) (by decide)
  have hmark : '\n' ∉ [' ', if decides then '*' else ' '] := by cases decides <;> decide
  have hnumber := newline_not_mem_toString (place + 1)
  have howners' := newline_not_mem_owners howners
  rw [IsRuleLine] at hline
  rw [hline]
  simp only [List.mem_append, not_or]
  exact ⟨⟨⟨⟨⟨⟨⟨⟨hmark, by decide⟩, hspaces _⟩, hnumber⟩, by decide⟩, hpattern⟩, hspaces _⟩, by decide⟩, howners'⟩

/-! ## Lines of a text -/

section Lines

variable {text path : String}

theorem mem_of_mem_matchingRules {place : Nat} {rule : Rule}
    (h : (place, rule) ∈ (RuleSet.ofText text).matchingRules path) : rule ∈ Rule.ofText text :=
  List.mem_of_getElem? (RuleSet.mem_matchingRules.mp h).1

theorem newline_not_mem_matchLines (hpath : '\n' ∉ path.toList) :
    ∀ line ∈ matchLines (RuleSet.ofText text) path, '\n' ∉ line.toList := by
  intro line hline
  unfold matchLines at hline
  dsimp only at hline
  split at hline
  · rcases List.mem_pair.mp hline with rfl | rfl
    · exact hpath
    · decide
  · rcases List.mem_cons.mp hline with rfl | hline
    · exact hpath
    · obtain ⟨⟨place, rule⟩, hmem, rfl⟩ := List.mem_map.mp hline
      exact newline_not_mem_ruleLine (mem_of_mem_matchingRules hmem) _

theorem matchLines_ne_nil (set : RuleSet) (path : String) : matchLines set path ≠ [] := by
  unfold matchLines
  dsimp only
  split <;> simp

/-- **What is printed about a path has the lines that it was put together from** -/
theorem pieces_matchText (hpath : '\n' ∉ path.toList) (text : String) :
    Text.pieces '\n' (matchText (RuleSet.ofText text) path).toList =
      (matchLines (RuleSet.ofText text) path).map String.toList := by
  rw [matchText, String.toList_intercalate]
  exact Text.pieces_intercalate (by simpa using matchLines_ne_nil _ path)
    (List.forall_mem_map.mpr (newline_not_mem_matchLines hpath))

end Lines

/-! ## The marked line -/

/-- The lines below a path, for the rules that match it: a line without owners if there are none, and otherwise a line
for each of them. The line of the rule that decides is marked, and the line for the path and its owners ends in the
owners of that rule. -/
inductive Reports (set : RuleSet) (path : String) : List (Nat × Rule) → List (List Char) → Prop
  | unowned : Reports set path [] ["  (unowned)".toList]
  | decided {before after : List (Nat × Rule)} {place : Nat} {rule : Rule} {above below : List (List Char)}
      {line : List Char} : (set.best? path).map Prod.snd = some place → set.bestMatch? path = some rule →
      Forall₂ (IsRuleLine ' ') before above → IsRuleLine '*' (place, rule) line →
      Forall₂ (IsRuleLine ' ') after below →
      bestLine set path = Text.Column.set { width := 70 } path ++ "  " ++ ownerList rule.owners →
      Reports set path (before ++ (place, rule) :: after) (above ++ line :: below)

/-- The lines below a path, and the rules that they are for: those of a text that match the path, in their order. -/
structure MatchLines (text path : String) (matching : List (Nat × Rule)) (lines : List (List Char)) : Prop where
  increasing : matching.Pairwise fun a b => a.1 < b.1
  mem_iff : ∀ place rule, (place, rule) ∈ matching ↔
    (Rule.ofText text)[place]? = some rule ∧ pathMatches path rule.pattern = true
  reports : Reports (RuleSet.ofText text) path matching lines

/-- What is printed about a path, line by line, and the rules that it is printed for. -/
structure MatchReport (text path : String) (matching : List (Nat × Rule)) (lines : List (List Char)) : Prop extends
    MatchLines text path matching lines where
  printed : Text.pieces '\n' (matchText (RuleSet.ofText text) path).toList = path.toList :: lines

section Marked

variable {set : RuleSet} {path : String} {place : Nat} {rule : Rule}

theorem decider_mem (h : set.decider? path = some (place, rule)) : (place, rule) ∈ set.matchingRules path := by
  obtain ⟨best, hbest, hrule⟩ := Option.map_eq_some_iff.mp h
  exact List.mem_map.mpr ⟨best, RuleSet.mem_of_best hbest, hrule⟩

theorem exists_decider (h : set.matchingRules path ≠ []) : ∃ place rule, set.decider? path = some (place, rule) := by
  have hmatching : set.matching path ≠ [] := by
    rintro hnil
    exact h (by rw [RuleSet.matchingRules, hnil]; rfl)
  obtain ⟨best, hbest⟩ := RuleSet.exists_best hmatching
  exact ⟨_, _, Option.map_eq_some_iff.mpr ⟨best, hbest, rfl⟩⟩

theorem place_of_decider (h : set.decider? path = some (place, rule)) :
    (set.best? path).map Prod.snd = some place := by
  obtain ⟨best, hbest, hrule⟩ := Option.map_eq_some_iff.mp h
  rw [hbest]
  exact congrArg (fun r => some r.1) hrule

theorem bestMatch_of_decider (h : set.decider? path = some (place, rule)) : set.bestMatch? path = some rule := by
  rw [RuleSet.bestMatch_eq_decider, h]
  rfl

theorem bestLine_of_bestMatch (h : set.bestMatch? path = some rule) :
    bestLine set path = Text.Column.set { width := 70 } path ++ "  " ++ ownerList rule.owners := by
  rw [bestLine, RuleSet.ownersOf?, h]
  rfl

theorem matchLines_of_decider (h : set.decider? path = some (place, rule)) : matchLines set path =
    path :: (set.matchingRules path).map fun r => ruleLine (place == r.1) r.1 r.2 := by
  unfold matchLines
  dsimp only
  split
  · next hnil =>
    have hmem := decider_mem h
    rw [hnil] at hmem
    cases hmem
  · simp only [place_of_decider h]
    rfl

/-- Lines of rules at other places than the one that decides. -/
theorem forall₂_ruleLine {place : Nat} {rules : List (Nat × Rule)} (h : ∀ r ∈ rules, place ≠ r.1) :
    Forall₂ (IsRuleLine ' ') rules (rules.map fun r => (ruleLine (place == r.1) r.1 r.2).toList) := by
  rw [List.forall₂_map_right_iff, List.forall₂_same]
  intro r hr
  rw [beq_eq_false_iff_ne.mpr (h r hr)]
  exact isRuleLine_ruleLine false r

/-- **The line of the rule that decides is marked, and no other** -/
theorem reports_of_decider (hincreasing : (set.matchingRules path).Pairwise fun a b => a.1 < b.1)
    (h : set.decider? path = some (place, rule)) : Reports set path (set.matchingRules path)
      ((set.matchingRules path).map fun r => (ruleLine (place == r.1) r.1 r.2).toList) := by
  obtain ⟨before, after, hsplit⟩ := List.append_of_mem (decider_mem h)
  rw [hsplit] at hincreasing ⊢
  obtain ⟨-, hafter, hbefore⟩ := List.pairwise_append.mp hincreasing
  have hmarked : IsRuleLine '*' (place, rule) (ruleLine (place == place) place rule).toList := by
    rw [beq_self_eq_true]
    exact isRuleLine_ruleLine true (place, rule)
  -- The places grow, so that no rule before and none after stands at the place of the one that decides.
  have habove := forall₂_ruleLine fun r hr => (hbefore r hr _ List.mem_cons_self).ne'
  have hbelow := forall₂_ruleLine fun r hr => ((List.pairwise_cons.mp hafter).1 r hr).ne
  have hbest := bestMatch_of_decider h
  rw [List.map_append, List.map_cons]
  exact .decided (place_of_decider h) hbest habove hmarked hbelow (bestLine_of_bestMatch hbest)

end Marked

/-- The lines for a path are the path and the lines for the rules that match it. -/
theorem exists_matchLines (text path : String) : ∃ matching lines, MatchLines text path matching lines ∧
    (matchLines (RuleSet.ofText text) path).map String.toList = path.toList :: lines := by
  have hincreasing := RuleSet.matchingRules_pairwise (Rule.ofText text) path
  have hmem : ∀ place rule, (place, rule) ∈ (RuleSet.ofText text).matchingRules path ↔
      (Rule.ofText text)[place]? = some rule ∧ pathMatches path rule.pattern = true :=
    fun place rule => RuleSet.mem_matchingRules
  by_cases hnil : (RuleSet.ofText text).matchingRules path = []
  · refine ⟨_, ["  (unowned)".toList], ⟨hincreasing, hmem, ?_⟩, ?_⟩
    · rw [← RuleSet.ofText, hnil]
      exact .unowned
    · simp only [matchLines, hnil]
      rfl
  · obtain ⟨place, rule, hdecider⟩ := exists_decider hnil
    refine ⟨_, _, ⟨hincreasing, hmem, reports_of_decider hincreasing hdecider⟩, ?_⟩
    rw [matchLines_of_decider hdecider, List.map_cons, List.map_map]
    rfl

/-- **What is printed about a path marks the rule that decides.** Below the path there is one line for each rule of the
text whose pattern matches, with the number of the rule, in the order of the file; if there is any, the line of the rule
that decides is marked and no other is. -/
theorem matchText_marksDecider {path : String} (hpath : '\n' ∉ path.toList) (text : String) :
    ∃ matching lines, MatchReport text path matching lines := by
  obtain ⟨matching, lines, hlines, hprinted⟩ := exists_matchLines text path
  exact ⟨matching, lines, hlines, (pieces_matchText hpath text).trans hprinted⟩

/-- A rule that stands in a file twice is marked where it decides, at the first of its places. -/
theorem matchText_marksDecider_repeated : '\n' ∉ "src/a.rs".toList ∧ ∃ matching lines,
    MatchReport "src/ @a\n* @b\nsrc/ @a\n" "src/a.rs" matching lines ∧ (0, ⟨"src/", ["@a"]⟩) ∈ matching ∧
      (2, ⟨"src/", ["@a"]⟩) ∈ matching ∧
      (RuleSet.ofText "src/ @a\n* @b\nsrc/ @a\n").decider? "src/a.rs" = some (0, ⟨"src/", ["@a"]⟩) := by
  have hpath : '\n' ∉ "src/a.rs".toList := by decide
  obtain ⟨matching, lines, h⟩ := matchText_marksDecider hpath "src/ @a\n* @b\nsrc/ @a\n"
  have hmatch : pathMatches "src/a.rs" "src/" = true := by decide
  have hfirst := (h.mem_iff 0 ⟨"src/", ["@a"]⟩).mpr ⟨by decide, hmatch⟩
  have hthird := (h.mem_iff 2 ⟨"src/", ["@a"]⟩).mpr ⟨by decide, hmatch⟩
  exact ⟨hpath, matching, lines, h, hfirst, hthird, by decide +kernel⟩

end PathOwners.Command
