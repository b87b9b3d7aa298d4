import PathOwners.Proofs.Glob.Behind
import PathOwners.Proofs.Glob.Compiling
import PathOwners.Proofs.Glob.Escape
import PathOwners.Proofs.Glob.Meaning

/-!
# Nested groups

How deep the groups of a pattern may be nested. A group adds three levels to the expression of what is in it: its own,
that of its alternatives, and that of the sequence in an alternative; no other token has more than four. With the levels
around the tokens of a body, groups that are nested 81 deep are never too deep, for a file or for a directory
(`compile_of_nesting`). There are groups nested 82 deep that are (`compile_nestedText_iff`).
-/

namespace PathOwners.Glob

/-! ## Levels of groups -/

mutual

/-- How deep groups are nested in a token: a group is one level around its alternatives. -/
def Token.nesting : Token → Nat
  | .literal _ | .separator | .star | .question | .anyDirectories | .anyPath | .charClass _ _ => 0
  | .alternation alternatives => 1 + choiceNesting alternatives

/-- How deep groups are nested in a sequence of tokens. -/
def sequenceNesting : List Token → Nat
  | [] => 0
  | t :: ts => max t.nesting (sequenceNesting ts)

/-- How deep groups are nested in several alternatives. -/
def choiceNesting : List (List Token) → Nat
  | [] => 0
  | ts :: rest => max (sequenceNesting ts) (choiceNesting rest)

end

mutual

/-- **A group adds at most three levels, and any other token has at most four.** -/
theorem depth_ofToken_le : ∀ t : Token, (Expr.ofToken t).depth ≤ 3 * t.nesting + 4
  | .literal _ | .separator => Nat.zero_le _
  | .star | .question | .anyPath | .anyDirectories => by decide
  | .charClass false items => by
    have hatom := Atom.depth_le (.bracket false items)
    simp only [Expr.ofToken, Expr.depth]
    omega
  | .charClass true items => by
    have hatom := Atom.depth_le (.bracket true (.single '/' :: items))
    simp only [Expr.ofToken, Expr.depth]
    omega
  | .alternation alternatives => by
    have hmembers := maxDepth_ofAlternatives_le alternatives
    have hjoin := joinDepth_le (Expr.ofAlternatives alternatives).length
    simp only [Expr.ofToken, Expr.depth, Token.nesting]
    omega

theorem maxDepth_ofTokens_le : ∀ ts : List Token, Expr.maxDepth (Expr.ofTokens ts) ≤ 3 * sequenceNesting ts + 4
  | [] => Nat.zero_le _
  | t :: ts => by
    have hfirst := depth_ofToken_le t
    have hrest := maxDepth_ofTokens_le ts
    simp only [Expr.ofTokens, Expr.maxDepth, sequenceNesting]
    omega

theorem maxDepth_ofAlternatives_le : ∀ alternatives : List (List Token),
    Expr.maxDepth (Expr.ofAlternatives alternatives) ≤ 3 * choiceNesting alternatives + 5
  | [] => Nat.zero_le _
  | ts :: rest => by
    have hfirst := maxDepth_ofTokens_le ts
    have hjoin := joinDepth_le (Expr.ofTokens ts).length
    have hrest := maxDepth_ofAlternatives_le rest
    simp only [Expr.ofAlternatives, Expr.maxDepth, Expr.depth, choiceNesting]
    omega

end

theorem sequenceNesting_append : ∀ ts us : List Token,
    sequenceNesting (ts ++ us) = max (sequenceNesting ts) (sequenceNesting us)
  | [], us => (Nat.zero_max _).symm
  | t :: ts, us => by
    rw [List.cons_append, sequenceNesting, sequenceNesting_append ts us, sequenceNesting, Nat.max_assoc]

/-- The levels around the tokens of a directory are two more. -/
theorem maxDepth_ofBody_le (directory : Bool) (tokens : List Token) :
    Expr.maxDepth (Expr.ofBody directory tokens) ≤ 3 * sequenceNesting tokens + 6 := by
  have htokens := maxDepth_ofTokens_le tokens
  have hjoin := joinDepth_le tokens.length
  unfold Expr.ofBody
  split_ifs
  · rw [maxDepth_ofDirectory]
    omega
  · omega

/-! ## Bodies of patterns that are nested -/

section Bodies

variable {scanned : Scanned}

/-- A separator at the end of a scan nests nothing deeper: it is no group, and neither is a run of stars before it. -/
theorem ScanState.exists_finish_separator {s : ScanState} (hs : s.Between) (hgroups : s.groups = [])
    (hfinish : s.finish = .ok scanned) : ∃ t scanned', s.step '/' = .ok t ∧ t.finish = .ok scanned' ∧
      sequenceNesting scanned'.tokens = sequenceNesting scanned.tokens := by
  obtain ⟨st, hst⟩ := hs.exists_stands
  obtain ⟨t, hrun, hread⟩ := run_separator hst
  have hfinish' := finish_of_stands hread.stands (hread.groups.trans hgroups)
  obtain rfl := Except.ok.inj ((finish_of_stands hst hgroups).symm.trans hfinish)
  refine ⟨t, _, (run_singleton s '/').symm.trans hrun, hfinish', ?_⟩
  have hseparator : sequenceNesting (if st.mayBeSegment then [.anyDirectories] else st.starTokens ++ [.separator]) =
      sequenceNesting st.finalTokens := by
    unfold Stance.finalTokens Stance.starTokens
    split_ifs <;> rfl
  have hend : (Stance.mk none true).finalTokens = [] := rfl
  simp only [hread.tokens, hend, List.reverse_append, List.reverse_reverse, List.append_nil, sequenceNesting_append,
    hseparator]

/-- **One more separator at the end of a pattern nests nothing deeper.** -/
theorem exists_scan_append_slash {pattern : List Char} (hscan : scan (Body.ofPattern pattern).text = .ok scanned) :
    ∃ scanned', scan (Body.ofPattern (pattern ++ ['/'])).text = .ok scanned' ∧
      sequenceNesting scanned'.tokens = sequenceNesting scanned.tokens := by
  rw [ofPattern_append_slash]
  rcases dropLeadingSlash_normalize pattern with hbody | hbody
  · exact ⟨scanned, by rw [hbody, hscan], rfl⟩
  · obtain ⟨s, hrun, hbetween, hgroups⟩ := exists_run_body hscan
    obtain ⟨s', hrun', hfinish⟩ := scan_eq_ok_iff.mp hscan
    obtain rfl : s = s' := Except.ok.inj (hrun.symm.trans hrun')
    obtain ⟨t, scanned', hstep, hfinish', hnesting⟩ := ScanState.exists_finish_separator hbetween hgroups hfinish
    have hrest : ScanState.run s ['/'] = .ok t := (ScanState.run_singleton s '/').trans hstep
    refine ⟨scanned', ?_, hnesting⟩
    rw [hbody]
    exact scan_eq_ok_iff.mpr ⟨t, ScanState.run_append_eq_ok_iff.mpr ⟨s, hrun, hrest⟩, hfinish'⟩

/-- A pattern compiles if its groups are nested 81 deep at most. -/
theorem exists_compile_of_nesting {pattern : String} (hscan : scan (Body.ofPattern pattern.toList).text = .ok scanned)
    (hnesting : sequenceNesting scanned.tokens ≤ 81) : ∃ glob, Glob.compile pattern = .ok glob := by
  cases hcatchAll : isCatchAll pattern.toList with
  | true => exact ⟨_, compile_eq_ok_iff.mpr ⟨_, planOf_of_catchAll hcatchAll, rfl⟩⟩
  | false =>
    have hdepth := maxDepth_ofTokens_le scanned.tokens
    have hwrap := wrapDepth_le_two (Body.ofPattern pattern.toList).directory scanned.tokens.length
    have hlimit : depthLimit = 250 := rfl
    exact (compile_iff_maxDepth hcatchAll hscan).mpr (by omega)

/-- The text for tokens that are nested 81 deep at most is not too deep. -/
theorem exists_readExpr_of_nesting (directory : Bool) {text : List Char} (hscan : scan text = .ok scanned)
    (hnesting : sequenceNesting scanned.tokens ≤ 81) :
    ∃ members, readExpr (bodyText directory scanned.tokens) = some members ∧
      1 + Expr.maxDepth members ≤ depthLimit := by
  obtain ⟨members, hread, -, hdepth⟩ := readExpr_of_scan directory hscan
  have hle := maxDepth_ofBody_le directory scanned.tokens
  have hlimit : depthLimit = 250 := rfl
  exact ⟨members, hread, by omega⟩

end Bodies

/-! ## The deepest groups -/

/-- Groups nested `n` deep around two stars and a separator, each before a character and after an alternative. -/
def nestedText : Nat → List Char
  | 0 => ['*', '*', '/', 'c']
  | n + 1 => ['\x7b', 'b', ','] ++ nestedText n ++ ['\x7d', 'c']

/-- The tokens of groups nested `n` deep. -/
def nestedTokens : Nat → List Token
  | 0 => [.anyDirectories, .literal 'c']
  | n + 1 => [.alternation [[.literal 'b'], nestedTokens n], .literal 'c']

theorem sequenceNesting_nestedTokens (n : Nat) : sequenceNesting (nestedTokens n) = n := by
  induction n with
  | zero => rfl
  | succ n ih => simp [nestedTokens, sequenceNesting, Token.nesting, choiceNesting, ih, Nat.add_comm]

theorem length_nestedTokens (n : Nat) : (nestedTokens n).length = 2 := by cases n <;> rfl

/-- Each group adds three levels to the four of a directory. -/
theorem maxDepth_nestedTokens (n : Nat) : Expr.maxDepth (Expr.ofTokens (nestedTokens n)) = 3 * n + 4 := by
  induction n with
  | zero => rfl
  | succ n ih =>
    have hjoin : joinDepth (Expr.ofTokens (nestedTokens n)).length = 1 := by
      rw [length_ofTokens, length_nestedTokens]
      rfl
    have hmembers : Expr.maxDepth (Expr.ofAlternatives [[.literal 'b'], nestedTokens n]) = 1 + (3 * n + 4) := by
      have hb : Expr.depth (.concat (Expr.ofTokens [.literal 'b'])) = 0 := rfl
      rw [Expr.ofAlternatives, Expr.ofAlternatives, Expr.maxDepth, Expr.maxDepth, hb, Expr.depth, hjoin, ih]
      exact Nat.zero_max _
    have htwo : joinDepth (Expr.ofAlternatives [[.literal 'b'], nestedTokens n]).length = 1 := rfl
    have hc : Atom.depth (.char 'c') = 0 := rfl
    simp only [nestedTokens, Expr.ofTokens, Expr.maxDepth, Expr.ofToken, Expr.depth, htwo, hmembers, hc]
    omega

theorem settled_nestedText (n : Nat) : Settled (nestedText n) := by
  induction n with
  | zero => exact settled_of_not_mem (by decide)
  | succ n ih => exact ((settled_of_not_mem (by decide)).append ih).append (settled_of_not_mem (by decide))

/-- **Nested groups are scanned as such, wherever a segment starts** -/
theorem ScanState.run_nestedText (n : Nat) : ∀ (offset : Nat) (tokens : List Token) (groups : List OpenGroup)
    (doubleStar : Bool), ∃ offset', run ⟨offset, .text, true, tokens, groups, doubleStar⟩ (nestedText n) =
      .ok ⟨offset', .text, false, (nestedTokens n).reverse ++ tokens, groups, true⟩ := by
  induction n with
  | zero => exact fun _ _ _ _ => ⟨_, rfl⟩
  | succ n ih =>
    intro offset tokens groups doubleStar
    -- After the comma, the second alternative begins where the group does: at the start of a segment.
    obtain ⟨offset', hinner⟩ :=
      ih (offset + 3) [] (⟨offset, true, tokens, [[.literal 'b']]⟩ :: groups) doubleStar
    have hclosing : ∀ inner : List Token,
        run ⟨offset', .text, false, inner, ⟨offset, true, tokens, [[.literal 'b']]⟩ :: groups, true⟩ ['\x7d', 'c'] =
          .ok ⟨offset' + 2, .text, false, .literal 'c' :: .alternation [[.literal 'b'], inner.reverse] :: tokens,
            groups, true⟩ := fun _ => rfl
    refine ⟨offset' + 2, run_append_eq_ok_iff.mpr ⟨_, run_append_eq_ok_iff.mpr ⟨_, rfl, hinner⟩, ?_⟩⟩
    rw [hclosing, List.append_nil, List.reverse_reverse]
    rfl

theorem scan_nestedText (n : Nat) : scan (nestedText n) = .ok ⟨nestedTokens n, true⟩ := by
  obtain ⟨offset, hrun⟩ := ScanState.run_nestedText n 0 [] [] false
  refine scan_eq_ok_iff.mpr ⟨_, hrun, ?_⟩
  simp [ScanState.finish, ScanState.finalTokens]

/-! ## The limit -/

/-- **Groups that are nested 81 deep at most compile.** So they do in the pattern as it is written and with a separator
behind it, and the text for the expression of either is not too deep. -/
theorem compile_of_nesting {pattern : String} {scanned : Scanned}
    (hscan : scan (Body.ofPattern pattern.toList).text = .ok scanned)
    (hnesting : sequenceNesting scanned.tokens ≤ 81) :
    ∀ written ∈ [pattern, pattern ++ "/"], (∃ glob, Glob.compile written = .ok glob) ∧
      ∃ found members, scan (Body.ofPattern written.toList).text = .ok found ∧
        readExpr (bodyText (Body.ofPattern written.toList).directory found.tokens) = some members ∧
        1 + Expr.maxDepth members ≤ depthLimit := by
  have hscans : ∀ written ∈ [pattern, pattern ++ "/"], ∃ found,
      scan (Body.ofPattern written.toList).text = .ok found ∧ sequenceNesting found.tokens ≤ 81 := by
    obtain ⟨found, hfound, hsame⟩ := exists_scan_append_slash hscan
    simp only [List.forall_mem_cons, List.not_mem_nil, false_imp_iff, implies_true, and_true, String.toList_append]
    exact ⟨⟨scanned, hscan, hnesting⟩, ⟨found, hfound, hsame.trans_le hnesting⟩⟩
  intro written hwritten
  obtain ⟨found, hfound, hle⟩ := hscans written hwritten
  obtain ⟨members, hread, hdepth⟩ := exists_readExpr_of_nesting (Body.ofPattern written.toList).directory hfound hle
  exact ⟨exists_compile_of_nesting hfound hle, found, members, hfound, hread, hdepth⟩

theorem dropLeadingSlash_nestedText (n : Nat) : dropLeadingSlash (normalize (nestedText n)) = nestedText n := by
  have hhead : (nestedText n).head? ≠ some '/' := by cases n <;> simp [nestedText]
  rw [(settled_nestedText n).normalize, dropLeadingSlash_of_head hhead]

theorem ofPattern_nestedText (n : Nat) : Body.ofPattern (nestedText n) = ⟨nestedText n, false⟩ := by
  have hlast : (nestedText n).getLast? = some 'c' := by
    cases n with
    | zero => rfl
    | succ n => exact List.getLast?_append_of_ne_nil _ (List.cons_ne_nil _ _)
  have hfile : ¬ (normalize (nestedText n)).getLast? = some '/' := by
    rw [(settled_nestedText n).normalize, hlast]
    decide
  rw [Body.ofPattern, Body.ofNormal, if_neg hfile, dropLeadingSlash_nestedText]

theorem ofPattern_nestedText_slash (n : Nat) : Body.ofPattern (nestedText n ++ ['/']) = ⟨nestedText n, true⟩ := by
  rw [ofPattern_append_slash, dropLeadingSlash_nestedText]

/-- **The limit is exact**: a directory of nested groups compiles if they are nested 81 deep at most. -/
theorem compile_nestedText_iff (n : Nat) :
    (∃ glob, Glob.compile (String.ofList (nestedText n) ++ "/") = .ok glob) ↔ n ≤ 81 := by
  have htext : (String.ofList (nestedText n) ++ "/").toList = nestedText n ++ ['/'] := by
    rw [String.toList_append, String.toList_ofList]
    rfl
  have hcatchAll : isCatchAll (nestedText n ++ ['/']) = false := by
    rw [← Bool.not_eq_true, isCatchAll_iff]
    intro h
    have hlast := congrArg List.getLast? h
    simp at hlast
  have hscan : scan (Body.ofPattern (nestedText n ++ ['/'])).text = .ok ⟨nestedTokens n, true⟩ := by
    rw [ofPattern_nestedText_slash, scan_nestedText]
  have hwrap : wrapDepth true (nestedTokens n).length = 2 := by
    rw [length_nestedTokens]
    rfl
  have hlimit : depthLimit = 250 := rfl
  rw [← htext] at hcatchAll hscan
  rw [compile_iff_maxDepth hcatchAll hscan, htext, ofPattern_nestedText_slash, hwrap, maxDepth_nestedTokens]
  omega

/-- Groups nested 81 deep around any number of directories compile, for a file and for a directory. -/
theorem compile_of_nesting_deepest :
    scan (Body.ofPattern (String.ofList (nestedText 81)).toList).text = .ok ⟨nestedTokens 81, true⟩ ∧
      sequenceNesting (nestedTokens 81) = 81 ∧ (∃ glob, Glob.compile (String.ofList (nestedText 81)) = .ok glob) ∧
      ∃ glob, Glob.compile (String.ofList (nestedText 81) ++ "/") = .ok glob := by
  have hscan : scan (Body.ofPattern (String.ofList (nestedText 81)).toList).text = .ok ⟨nestedTokens 81, true⟩ := by
    rw [String.toList_ofList, ofPattern_nestedText, scan_nestedText]
  have hnesting : sequenceNesting (nestedTokens 81) = 81 := sequenceNesting_nestedTokens 81
  have hcompile := compile_of_nesting hscan hnesting.le
  exact ⟨hscan, hnesting, (hcompile _ (by simp)).1, (hcompile _ (by simp)).1⟩

end PathOwners.Glob
