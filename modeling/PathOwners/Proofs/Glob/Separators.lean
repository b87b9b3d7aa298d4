import PathOwners.Proofs.Glob.Balance
import PathOwners.Proofs.Glob.Occurrences

/-!
# Separators of a body

What the normal form of a pattern does for the scan of its body. A text is in normal form exactly if every backslash
escapes a character that can be escaped (`normalize_eq_self_iff`); a body is, so no separator in it is escaped, and none
becomes a plain character. `OuterSeparators` counts the separators of a text outside classes and groups: the scan finds
one token that parts segments for each of them (`outerSeparators_iff`), whether the separator stands by itself or stars
take it with them. `separators_of_body` says both of the body of any pattern.
-/

namespace PathOwners.Glob

/-! ## Escapes -/

/-- What the backslashes of a text escape, from left to right: each the character behind it, if there is one. A
character that is escaped escapes nothing. -/
def escapes : List Char → List (Option Char)
  | [] => []
  | ['\\'] => [none]
  | '\\' :: c :: cs => some c :: escapes cs
  | _ :: cs => escapes cs

section Escapes

variable {c : Char} {cs text : List Char}

theorem escapes_cons_of_ne (h : c ≠ '\\') (cs : List Char) : escapes (c :: cs) = escapes cs :=
  escapes.eq_4 c cs (fun hc _ => h hc) fun _ _ hc _ => h hc

/-- **A text is in normal form exactly if every backslash escapes a character that can be escaped.** -/
theorem normalize_eq_self_iff (text : List Char) :
    normalize text = text ↔ ∀ e ∈ escapes text, ∃ c, e = some c ∧ isEscapable c = true := by
  fun_induction escapes text with
  | case1 => simp [normalize]
  | case2 => simp [normalize]
  | case3 c cs ih =>
    by_cases hc : isEscapable c = true
    · simp [normalize, hc, ih]
    · simp [normalize, hc]
  | case4 c cs hlast hcs ih =>
    have hc : c ≠ '\\' := by
      rintro rfl
      cases cs with
      | nil => exact hlast rfl rfl
      | cons d ds => exact hcs d ds rfl rfl
    rw [normalize_cons_of_ne hc, List.cons.injEq, and_iff_right rfl, ih]

/-- A scan waits for an escaped character at the end of a text exactly if a backslash there escapes nothing. -/
theorem ScanState.pending_of_run_iff : ∀ {cs : List Char} {s t : ScanState}, s.run cs = .ok t →
    (t.pending = true ↔ none ∈ escapes (s.remaining cs))
  | [], s, t, hrun => by
    obtain rfl : s = t := Except.ok.inj hrun
    cases hs : s.pending <;> simp [remaining, hs, escapes]
  | c :: cs, s, t, hrun => by
    obtain ⟨s', hstep, hrun⟩ := run_cons_eq_ok_iff.mp hrun
    rw [pending_of_run_iff hrun]
    have hpending := pending_of_step hstep
    unfold remaining
    cases hs : s.pending with
    | true =>
      have hs' : s'.pending = false := by simpa [hs] using hpending
      simp [hs', escapes]
    | false =>
      by_cases hc : c = '\\'
      · simp [hpending.mpr ⟨hs, hc⟩, hc]
      · have hs' : s'.pending = false := by simpa [hs, hc] using hpending
        simp [hs', escapes_cons_of_ne hc]

/-- The backslash before a star is escaped itself, and the last one escapes nothing. -/
example : escapes "a\\\\*b\\-\\".toList = [some '\\', some '-', none] := rfl

end Escapes

/-! ## Separators outside classes and groups -/

/-- How many separators of a text stand outside classes and groups, if so many groups are open before it. Escapes and
classes are passed over as a whole, and a brace that closes nothing is a plain character. -/
inductive OuterSeparators : Nat → List Char → Nat → Prop
  | nil {depth : Nat} : OuterSeparators depth [] 0
  | dangling {depth : Nat} : OuterSeparators depth ['\\'] 0
  | escape {depth n : Nat} {c : Char} {rest : List Char} :
      OuterSeparators depth rest n → OuterSeparators depth ('\\' :: c :: rest) n
  | charClass {depth n : Nat} {body rest : List Char} :
      Closes body rest → OuterSeparators depth rest n → OuterSeparators depth ('[' :: body) n
  | opening {depth n : Nat} {rest : List Char} :
      OuterSeparators (depth + 1) rest n → OuterSeparators depth ('\x7b' :: rest) n
  | closing {depth n : Nat} {rest : List Char} :
      OuterSeparators (depth - 1) rest n → OuterSeparators depth ('\x7d' :: rest) n
  | outer {n : Nat} {rest : List Char} : OuterSeparators 0 rest n → OuterSeparators 0 ('/' :: rest) (n + 1)
  | inner {depth n : Nat} {rest : List Char} :
      OuterSeparators (depth + 1) rest n → OuterSeparators (depth + 1) ('/' :: rest) n
  | other {depth n : Nat} {c : Char} {rest : List Char} :
      c ∉ ['\\', '[', '\x7b', '\x7d', '/'] → OuterSeparators depth rest n → OuterSeparators depth (c :: rest) n

namespace ScanState

/-- The tokens that a scan has read outside all groups. -/
def outerTokens (s : ScanState) : List Token :=
  match s.groups.getLast? with
  | none => s.tokens
  | some g => g.before

/-- The number of tokens outside all groups that part segments. -/
def separators (s : ScanState) : Nat := s.outerTokens.countP Token.isSeparator

variable {s t : ScanState} {c : Char} {token : Token}

theorem separators_same (hgroups : t.groups = s.groups) (htokens : t.tokens = s.tokens) :
    t.separators = s.separators := by
  rw [separators, separators, outerTokens, outerTokens, hgroups, htokens]

/-- One more token counts outside all groups. -/
theorem separators_cons (hgroups : t.groups = s.groups) (htokens : t.tokens = token :: s.tokens) :
    t.separators = s.separators + if token.isSeparator = true ∧ s.groups = [] then 1 else 0 := by
  rw [separators, separators, outerTokens, outerTokens, hgroups, htokens]
  cases hs : s.groups.getLast? with
  | none => simp [List.getLast?_eq_none_iff.mp hs, List.countP_cons]
  | some g =>
    have hne : s.groups ≠ [] := fun h => by simp [h] at hs
    simp [hne]

/-- One more token that parts no segments. -/
theorem separators_cons_of_not (htoken : token.isSeparator = false) (hgroups : t.groups = s.groups)
    (htokens : t.tokens = token :: s.tokens) : t.separators = s.separators := by
  rw [separators_cons hgroups htokens, htoken]
  simp

theorem separators_push (htoken : token.isSeparator = false) : (s.push token).separators = s.separators :=
  separators_cons_of_not htoken rfl rfl

theorem separators_openGroup (s : ScanState) : s.openGroup.separators = s.separators := by
  rw [separators, separators, outerTokens, outerTokens, openGroup, List.getLast?_cons]
  cases s.groups.getLast? <;> rfl

theorem separators_comma (s : ScanState) : s.comma.separators = s.separators := by
  unfold comma
  split
  · exact separators_push rfl
  · next g gs hgroups =>
    rw [separators, separators, outerTokens, outerTokens, hgroups, List.getLast?_cons, List.getLast?_cons]
    cases gs.getLast? <;> rfl

theorem separators_closeGroup (s : ScanState) : s.closeGroup.separators = s.separators := by
  unfold closeGroup
  split
  · exact separators_push rfl
  · next g gs hgroups =>
    rw [separators, separators, outerTokens, outerTokens, hgroups, List.getLast?_cons]
    cases gs.getLast? <;> simp [Token.isSeparator]

/-! ## Steps -/

theorem separators_textStep (s : ScanState) (c : Char) :
    (s.textStep c).separators = s.separators + if c = '/' ∧ s.groups = [] then 1 else 0 := by
  unfold textStep
  split
  · exact separators_same rfl rfl
  · have hcons := separators_cons (s := s) (t := { s with tokens := .separator :: s.tokens, segmentStart := true })
      rfl rfl
    simpa [Token.isSeparator] using hcons
  · exact separators_same rfl rfl
  · exact separators_push rfl
  · exact separators_same rfl rfl
  · exact separators_openGroup s
  · exact separators_comma s
  · exact separators_closeGroup s
  · next hslash _ _ _ _ _ _ =>
    rw [if_neg fun h => hslash h.1]
    exact separators_push rfl

/-- Stars that take a separator with them count as it does. -/
theorem separators_starStep (s : ScanState) (many : Bool) (c : Char) :
    (s.starStep many c).separators = s.separators + if c = '/' ∧ s.groups = [] then 1 else 0 := by
  unfold starStep
  split
  · next hstar =>
    rw [if_neg (by simp [hstar])]
    exact separators_same rfl rfl
  split
  · next hslash =>
    have hc : c = '/' := by simp_all
    have hcons := separators_cons (s := s) (t := { s with mode := .text, tokens := .anyDirectories :: s.tokens })
      rfl rfl
    simpa [Token.isSeparator, hc] using hcons
  split
  · have hparts : Token.anyPath.isSeparator = false := rfl
    have hpath : ({ s with mode := .text, tokens := .anyPath :: s.tokens } : ScanState).separators = s.separators :=
      separators_cons_of_not hparts rfl rfl
    rw [separators_textStep, hpath]
  · rw [separators_textStep, separators_push rfl]
    rfl

/-- Between two parts of a text, a character counts if it is a separator outside all groups. -/
theorem separators_of_step (hs : s.Between) (hstep : s.step c = .ok t) :
    t.separators = s.separators + if c = '/' ∧ s.groups = [] then 1 else 0 := by
  rcases hs with hs | ⟨many, hs⟩
  · rw [step_of_text hs, Except.ok.injEq] at hstep
    subst hstep
    exact (separators_same rfl rfl).trans (separators_textStep s c)
  · rw [step_of_stars hs, Except.ok.injEq] at hstep
    subst hstep
    exact (separators_same rfl rfl).trans (separators_starStep s many c)

/-- The tokens of a scan that is over are those outside all groups. -/
theorem separators_of_finish {scanned : Scanned} (hfinish : s.finish = .ok scanned) :
    scanned.tokens.countP Token.isSeparator = s.separators := by
  obtain ⟨⟨hgroups, -⟩, rfl⟩ := finish_eq_ok_iff.mp hfinish
  rw [separators, outerTokens, hgroups, List.countP_reverse]
  unfold finalTokens
  split
  · rfl
  · rfl
  · rfl
  · split_ifs <;> rfl

end ScanState

/-! ## Counting -/

/-- However a scan comes to the place between two parts where `rest` is left, with so many groups open: if it ends with
these tokens, it reads `n` that part segments from there on. -/
def CountsFrom (scanned : Scanned) (depth : Nat) (rest : List Char) (n : Nat) : Prop :=
  ∀ s : ScanState, s.Between → s.openBraces.length = depth → s.outcome rest = .ok scanned →
    scanned.tokens.countP Token.isSeparator = s.separators + n

namespace CountsFrom

variable {scanned : Scanned} {depth depth' n : Nat} {c : Char} {body rest : List Char}

theorem nil : CountsFrom scanned depth [] 0 := fun _ _ _ hscan => ScanState.separators_of_finish hscan

theorem dangling : CountsFrom scanned depth ['\\'] 0 := by
  intro s hs _ hscan
  obtain ⟨t, hstep, -, -⟩ := hs.exists_step '\\'
  rw [ScanState.outcome_of_step hstep] at hscan
  exact (ScanState.separators_of_finish hscan).trans (ScanState.separators_of_step hs hstep)

theorem escape (h : CountsFrom scanned depth rest n) : CountsFrom scanned depth ('\\' :: c :: rest) n := by
  intro s hs hdepth hscan
  obtain ⟨t, hstep, -, hbraces⟩ := hs.exists_step '\\'
  have hescaped := ScanState.step_of_escaped (c := c) (ScanState.mode_of_step_between hs hstep)
  have hcount : (t.past c (t.push (.literal c))).separators = s.separators :=
    (ScanState.separators_push rfl).trans (ScanState.separators_of_step hs hstep)
  rw [ScanState.outcome_of_step hstep, ScanState.outcome_of_step hescaped] at hscan
  exact hcount ▸ h _ (.inl rfl) ((congrArg List.length hbraces).trans hdepth) hscan

theorem charClass (hcloses : Closes body rest) (h : CountsFrom scanned depth rest n) :
    CountsFrom scanned depth ('[' :: body) n := by
  intro s hs hdepth hscan
  obtain ⟨t, hstep, -, hbraces⟩ := hs.exists_step '['
  obtain ⟨negated, items, m, -, hclosed⟩ := outcome_of_closes t s.offset t.offset hcloses
  have hcount : (t.closed (.charClass negated items) m).separators = s.separators :=
    (ScanState.separators_push rfl).trans (ScanState.separators_of_step hs hstep)
  rw [ScanState.outcome_of_step hstep, ← hs.within_of_step hstep, hclosed] at hscan
  exact hcount ▸ h _ (.inl rfl) ((congrArg List.length hbraces).trans hdepth) hscan

/-- A character that is a part by itself counts if it is a separator outside all groups. -/
theorem part (hc : c ∉ ['\\', '['])
    (hdepth' : ∀ offset braces, braces.length = depth → (bracesAfter c offset braces).length = depth')
    (h : CountsFrom scanned depth' rest n) :
    CountsFrom scanned depth (c :: rest) ((if c = '/' ∧ depth = 0 then 1 else 0) + n) := by
  intro s hs hdepth hscan
  simp only [List.mem_cons, List.not_mem_nil, or_false, not_or] at hc
  obtain ⟨t, hstep, -, hbraces⟩ := hs.exists_step c
  have hbetween := ScanState.mode_of_step_between hs hstep
  rw [if_neg hc.1, if_neg hc.2] at hbetween
  have hgroups : s.groups = [] ↔ depth = 0 := by
    rw [← hdepth, ScanState.openBraces, List.length_map, List.length_eq_zero_iff]
  rw [ScanState.outcome_of_step hstep] at hscan
  rw [h t hbetween (hbraces ▸ hdepth' s.offset _ hdepth) hscan, ScanState.separators_of_step hs hstep, Nat.add_assoc]
  simp only [hgroups]

end CountsFrom

section Count

variable {text rest : List Char} {depth n : Nat} {scanned : Scanned} {braces : List Nat}

/-- **A scan finds a token that parts segments for each separator outside classes and groups.** -/
theorem OuterSeparators.countsFrom (h : OuterSeparators depth rest n) (scanned : Scanned) :
    CountsFrom scanned depth rest n := by
  induction h with
  | nil => exact .nil
  | dangling => exact .dangling
  | escape _ ih => exact ih.escape
  | charClass hcloses _ ih => exact ih.charClass hcloses
  | opening _ ih => simpa using ih.part (c := '\x7b') (by decide) fun _ _ hdepth => congrArg (· + 1) hdepth
  | closing _ ih =>
    simpa using ih.part (c := '\x7d') (by decide) fun _ _ hdepth => List.length_tail.trans (congrArg (· - 1) hdepth)
  | outer _ ih => simpa [Nat.add_comm] using ih.part (c := '/') (by decide) fun _ _ hdepth => hdepth
  | inner _ ih => simpa using ih.part (c := '/') (by decide) fun _ _ hdepth => hdepth
  | @other depth _ c _ hc _ ih =>
    simp only [List.mem_cons, List.not_mem_nil, or_false, not_or] at hc
    obtain ⟨hbackslash, hbracket, hopening, hclosing, hslash⟩ := hc
    have hbraces : ∀ (offset : Nat) (braces : List Nat), braces.length = depth →
        (bracesAfter c offset braces).length = depth := fun offset braces hdepth => by
      rw [bracesAfter, if_neg hopening, if_neg hclosing, hdepth]
    simpa [hslash] using ih.part (by simp [hbackslash, hbracket]) hbraces

/-- The separators outside classes and groups can be counted where every class is closed. -/
theorem ScansTo.exists_outerSeparators (h : ScansTo text rest braces) (hbalanced : Balanced text) :
    ∃ n, OuterSeparators braces.length rest n := by
  induction h using ScansTo.part_induction with
  | nil => exact ⟨0, .nil⟩
  | dangling => exact ⟨0, .dangling⟩
  | openClass body braces h hclosed => exact absurd (hbalanced.closed body ⟨braces, h⟩) hclosed
  | escape _ _ _ _ ih =>
    obtain ⟨n, hn⟩ := ih
    exact ⟨n, hn.escape⟩
  | charClass _ _ _ _ hcloses ih =>
    obtain ⟨n, hn⟩ := ih
    exact ⟨n, hn.charClass hcloses⟩
  | opening _ _ _ _ _ ih =>
    obtain ⟨n, hn⟩ := ih
    exact ⟨n, hn.opening⟩
  | closing _ _ _ ih =>
    obtain ⟨n, hn⟩ := ih
    exact ⟨n, .closing (List.length_tail ▸ hn)⟩
  | other c rest braces _ hc ih =>
    obtain ⟨n, hn⟩ := ih
    by_cases hslash : c = '/'
    · subst hslash
      cases braces with
      | nil => exact ⟨n + 1, hn.outer⟩
      | cons offset braces => exact ⟨n, hn.inner⟩
    · exact ⟨n, hn.other (by simpa [hslash] using hc)⟩

/-- A text that is scanned has as many separators outside classes and groups as the scan finds tokens that part
segments. -/
theorem outerSeparators_iff (hscan : scan text = .ok scanned) (n : Nat) :
    OuterSeparators 0 text n ↔ n = scanned.tokens.countP Token.isSeparator := by
  have hcount : ∀ {n : Nat}, OuterSeparators 0 text n → n = scanned.tokens.countP Token.isSeparator := fun h =>
    ((h.countsFrom scanned {} (.inl rfl) rfl hscan).trans (Nat.zero_add _)).symm
  refine ⟨hcount, ?_⟩
  rintro rfl
  have hstart : ScansTo text text [] := .start
  obtain ⟨n, hn⟩ := hstart.exists_outerSeparators (balanced_of_scan hscan)
  exact hcount hn ▸ hn

end Count

/-! ## Bodies -/

/-- **The normal form settles every backslash and every separator.** Normalising a pattern again changes nothing, every
backslash of its body escapes a character that can be escaped, and if the body is scanned, no separator becomes a plain
character, and those outside classes and groups are the tokens outside groups that part segments. -/
theorem separators_of_body (pattern : List Char) : normalize (normalize pattern) = normalize pattern ∧
    (∀ e ∈ escapes (Body.ofPattern pattern).text, ∃ c, e = some c ∧ isEscapable c = true) ∧
    ∀ scanned, scan (Body.ofPattern pattern).text = .ok scanned → ¬Occurs (.literal '/') scanned.tokens ∧
      ∀ n, OuterSeparators 0 (Body.ofPattern pattern).text n ↔ n = scanned.tokens.countP Token.isSeparator :=
  ⟨normalize_normalize pattern, (normalize_eq_self_iff _).mp (normalize_bodyText pattern),
    fun _ hscan => ⟨not_occurs_separator hscan, outerSeparators_iff hscan⟩⟩

/-- The separators inside the group and inside the class do not count; the one that the stars take with them does, and
so does the backslash that escapes nothing. -/
theorem separators_of_body_nested : ∃ scanned,
    scan (Body.ofPattern "a\\b/\x7bc/d,\\*\x7d[/]/**/e/".toList).text = .ok scanned ∧
      ¬Occurs (.literal '/') scanned.tokens ∧
      OuterSeparators 0 (Body.ofPattern "a\\b/\x7bc/d,\\*\x7d[/]/**/e/".toList).text 4 := by
  obtain ⟨-, -, hbody⟩ := separators_of_body "a\\b/\x7bc/d,\\*\x7d[/]/**/e/".toList
  have hscan : scan (Body.ofPattern "a\\b/\x7bc/d,\\*\x7d[/]/**/e/".toList).text = .ok
      ⟨[.literal 'a', .separator, .literal 'b', .separator,
        .alternation [[.literal 'c', .separator, .literal 'd'], [.literal '*']], .charClass false [.single '/'],
        .separator, .anyDirectories, .literal 'e'], true⟩ := rfl
  obtain ⟨hliteral, hcount⟩ := hbody _ hscan
  exact ⟨_, hscan, hliteral, (hcount 4).mpr rfl⟩

end PathOwners.Glob
