import PathOwners.Proofs.Glob.Body

/-!
# Patterns that are nested too deep

A pattern whose body scans compiles exactly if no token of the body is nested too deep, the levels around the token
counted (`compile_iff_depth`, or `compile_iff_maxDepth` for the deepest one). A text that is compared needs no
expression, but its tokens are not deep, so the condition is the same whichever plan a pattern gets
(`exists_ofFile_iff`, `exists_ofDirectory_iff`).
-/

namespace PathOwners.Glob

/-! ## The depth of tokens -/

section Depth

variable {tokens : List Token} {t : Token}

theorem joinDepth_le (count : Nat) : joinDepth count ≤ 1 := by
  unfold joinDepth
  split_ifs <;> omega

theorem Atom.depth_le (a : Atom) : a.depth ≤ 2 := by
  cases a with
  | char c => exact Nat.zero_le 2
  | any => exact Nat.zero_le 2
  | bracket negated items =>
    have h := joinDepth_le items.length
    simp only [Atom.depth]
    omega

theorem maxDepth_ofTokens_le_iff {n : Nat} :
    Expr.maxDepth (Expr.ofTokens tokens) ≤ n ↔ ∀ t ∈ tokens, (Expr.ofToken t).depth ≤ n := by
  induction tokens with
  | nil => simp [Expr.ofTokens, Expr.maxDepth]
  | cons t tokens ih => simp [Expr.ofTokens, Expr.maxDepth, ih]

theorem length_ofTokens : (Expr.ofTokens tokens).length = tokens.length := by
  induction tokens with
  | nil => rfl
  | cons t tokens ih => rw [Expr.ofTokens, List.length_cons, List.length_cons, ih]

theorem depth_of_plain (h : t.plain?.isSome = true) : (Expr.ofToken t).depth = 0 := by
  cases t <;> first | rfl | cases h

/-- The tokens of a plain text are not deep. -/
theorem depth_of_plainText {text : List Char} (h : plainText? tokens = some text) (ht : t ∈ tokens) :
    (Expr.ofToken t).depth = 0 := by
  have hmem : t.plain? ∈ text.map some := map_plain?_of_plainText h ▸ List.mem_map_of_mem ht
  obtain ⟨c, -, hc⟩ := List.mem_map.mp hmem
  exact depth_of_plain (hc ▸ rfl)

theorem depth_star : (Expr.ofToken .star).depth = 2 := rfl

theorem depth_of_stem {text : List Char} (h : Plan.stem? tokens = some text) (ht : t ∈ tokens) :
    (Expr.ofToken t).depth ≤ 2 := by
  unfold Plan.stem? at h
  split at h
  · next hlast =>
    obtain ⟨front, rfl⟩ := List.getLast?_eq_some_iff.mp hlast
    rw [List.dropLast_concat] at h
    rcases List.mem_append.mp ht with ht | ht
    · rw [depth_of_plainText h ht]
      omega
    · rw [List.mem_singleton.mp ht, depth_star]
  · cases h

theorem depth_of_ending {text : List Char} (h : Plan.ending? tokens = some text) (ht : t ∈ tokens) :
    (Expr.ofToken t).depth ≤ 2 := by
  unfold Plan.ending? at h
  split at h
  · obtain ⟨hplain, -⟩ := Option.filter_eq_some_iff.mp h
    rcases List.mem_cons.mp ht with rfl | ht
    · rw [depth_star]
    · rw [depth_of_plainText hplain ht]
      omega
  · cases h

end Depth

/-! ## Tokens that have a plan -/

section Plans

variable {tokens : List Token}

/-- The tokens of a directory stand in a group; what is below the directory is nested four levels deep by itself. -/
theorem maxDepth_ofDirectory (tokens : List Token) : Expr.maxDepth (Expr.ofDirectory tokens) =
    max (joinDepth tokens.length + 1 + Expr.maxDepth (Expr.ofTokens tokens)) 4 := by
  have hbelow : Expr.depth (.optional (.group (.concat [.atom (.char '/'), .many .any]))) = 4 := rfl
  rw [Expr.ofDirectory, Expr.maxDepth, Expr.maxDepth, Expr.maxDepth, hbelow, Expr.depth, Expr.depth, length_ofTokens]
  omega

theorem exists_expression_iff {members : List Expr} :
    (∃ plan, (Expr.compile members).map Plan.expression = .ok plan) ↔ 1 + Expr.maxDepth members ≤ depthLimit := by
  unfold Expr.compile
  split_ifs with h
  · simp only [Except.map, reduceCtorEq, exists_false, false_iff]
    omega
  · simp only [Except.map, Except.ok.injEq, exists_eq', true_iff]
    omega

/-- **Tokens have a plan for files if none is too deep** -/
theorem exists_ofFile_iff :
    (∃ plan, Plan.ofFile tokens = .ok plan) ↔ ∀ t ∈ tokens, (Expr.ofToken t).depth < depthLimit := by
  have hlimit : depthLimit = 250 := rfl
  unfold Plan.ofFile
  split
  · next hplain =>
    refine iff_of_true ⟨_, rfl⟩ fun t ht => ?_
    rw [depth_of_plainText hplain ht]
    omega
  · next hstem =>
    refine iff_of_true ⟨_, rfl⟩ fun t ht => ?_
    have hdepth := depth_of_stem hstem ht
    omega
  · next hending =>
    refine iff_of_true ⟨_, rfl⟩ fun t ht => ?_
    have hdepth := depth_of_ending hending ht
    omega
  · have hle : 1 + Expr.maxDepth (Expr.ofTokens tokens) ≤ depthLimit ↔
        Expr.maxDepth (Expr.ofTokens tokens) ≤ depthLimit - 1 := by omega
    rw [exists_expression_iff, hle, maxDepth_ofTokens_le_iff]
    exact forall₂_congr fun t _ => by omega

/-- **Tokens have a plan for a directory if none is too deep with the levels around it** -/
theorem exists_ofDirectory_iff : (∃ plan, Plan.ofDirectory tokens = .ok plan) ↔
    ∀ t ∈ tokens, joinDepth tokens.length + 1 + (Expr.ofToken t).depth < depthLimit := by
  have hlimit : depthLimit = 250 := rfl
  have hjoin := joinDepth_le tokens.length
  unfold Plan.ofDirectory
  split
  · next hplain =>
    refine iff_of_true ⟨_, rfl⟩ fun t ht => ?_
    rw [depth_of_plainText hplain ht]
    omega
  · have hdepth := maxDepth_ofDirectory tokens
    have hle : 1 + Expr.maxDepth (Expr.ofDirectory tokens) ≤ depthLimit ↔
        Expr.maxDepth (Expr.ofTokens tokens) ≤ depthLimit - 2 - joinDepth tokens.length := by omega
    rw [exists_expression_iff, hle, maxDepth_ofTokens_le_iff]
    exact forall₂_congr fun t _ => by omega

end Plans

/-! ## Patterns that compile -/

/-- The levels around the tokens of a body, but for the one of the whole pattern. -/
def wrapDepth (directory : Bool) (count : Nat) : Nat := if directory then joinDepth count + 1 else 0

/-- The levels around two tokens or more are the most that there are. -/
theorem wrapDepth_le_of_two_le {m n : Nat} (directory : Bool) (h : 2 ≤ n) :
    wrapDepth directory m ≤ wrapDepth directory n := by
  have hjoin := joinDepth_le m
  unfold wrapDepth
  split_ifs
  · rw [show joinDepth n = 1 from if_pos h]
    omega
  · exact le_rfl

theorem wrapDepth_le_two (directory : Bool) (count : Nat) : wrapDepth directory count ≤ 2 := by
  have hjoin := joinDepth_le count
  unfold wrapDepth
  split_ifs <;> omega

/-- **A pattern whose body scans compiles if no token is too deep** -/
theorem compile_iff_depth {pattern : String} (hpattern : isCatchAll pattern.toList = false) {scanned : Scanned}
    (hscan : scan (Body.ofPattern pattern.toList).text = .ok scanned) :
    (∃ glob, Glob.compile pattern = .ok glob) ↔ ∀ t ∈ scanned.tokens,
      wrapDepth (Body.ofPattern pattern.toList).directory scanned.tokens.length + (Expr.ofToken t).depth <
        depthLimit := by
  have hplan : (∃ glob, Glob.compile pattern = .ok glob) ↔ ∃ plan, planOf pattern.toList = .ok plan := by
    simp only [compile_eq_ok_iff]
    exact ⟨fun ⟨_, plan, h, _⟩ => ⟨plan, h⟩, fun ⟨plan, h⟩ => ⟨_, plan, h, rfl⟩⟩
  have hplanOf : planOf pattern.toList = if (Body.ofPattern pattern.toList).directory
      then Plan.ofDirectory scanned.tokens else Plan.ofFile scanned.tokens := by
    rw [planOf, hpattern, if_neg Bool.false_ne_true]
    simp only [hscan]
    rfl
  rw [hplan, hplanOf, wrapDepth]
  split_ifs
  · exact exists_ofDirectory_iff
  · simpa using exists_ofFile_iff

/-- The deepest token decides whether a pattern compiles. -/
theorem compile_iff_maxDepth {pattern : String} (hpattern : isCatchAll pattern.toList = false) {scanned : Scanned}
    (hscan : scan (Body.ofPattern pattern.toList).text = .ok scanned) :
    (∃ glob, Glob.compile pattern = .ok glob) ↔
      wrapDepth (Body.ofPattern pattern.toList).directory scanned.tokens.length +
        Expr.maxDepth (Expr.ofTokens scanned.tokens) < depthLimit := by
  have hlimit : depthLimit = 250 := rfl
  have hwrap := wrapDepth_le_two (Body.ofPattern pattern.toList).directory scanned.tokens.length
  rw [compile_iff_depth hpattern hscan]
  generalize wrapDepth (Body.ofPattern pattern.toList).directory scanned.tokens.length = levels at hwrap ⊢
  have hle : levels + Expr.maxDepth (Expr.ofTokens scanned.tokens) < depthLimit ↔
      Expr.maxDepth (Expr.ofTokens scanned.tokens) ≤ depthLimit - 1 - levels := by omega
  rw [hle, maxDepth_ofTokens_le_iff]
  exact forall₂_congr fun t _ => by omega

end PathOwners.Glob
