import PathOwners.Proofs.Glob.NormalRun
import PathOwners.Proofs.Glob.PlanLanguage

/-!
# Plain scans

Scans of bodies that stand for one path. A scan is plain as long as all it has read are characters that stand for
themselves; a step leaves that only for syntax (`ScanState.StaysPlain.step`), and syntax stays
(`ScanState.HasSyntax.step`). So a body in normal form whose tokens stand for a path has the tokens of this path,
whichever of its characters were escaped (`scanned_of_plainText`).
-/

namespace PathOwners.Glob

/-! ## Plain tokens -/

/-- The token of a character that stands for itself. -/
def plainToken (c : Char) : Token := if c = '/' then .separator else .literal c

theorem plain?_plainToken (c : Char) : (plainToken c).plain? = some c := by
  unfold plainToken
  split
  · next h => rw [h]; rfl
  · rfl

theorem plainText?_map_plainToken (text : List Char) : plainText? (text.map plainToken) = some text := by
  induction text with
  | nil => rfl
  | cons c text ih => exact plainText?_cons_eq_some_iff.mpr ⟨c, plain?_plainToken c, text, ih, rfl⟩

/-- Tokens that stand for a text stand for one character each. -/
theorem map_plain?_of_plainText {tokens : List Token} {text : List Char} (h : plainText? tokens = some text) :
    tokens.map Token.plain? = text.map some := by
  induction tokens generalizing text with
  | nil =>
    obtain rfl : [] = text := by simpa [plainText?] using h
    rfl
  | cons t tokens ih =>
    obtain ⟨c, hc, rest, hrest, rfl⟩ := plainText?_cons_eq_some_iff.mp h
    rw [List.map_cons, hc, ih hrest, List.map_cons]

theorem plainToken_of_ne {c : Char} (h : c ≠ '/') : plainToken c = .literal c := if_neg h

/-! ## Normal forms -/

theorem normalize_cons_of_ne {c : Char} (h : c ≠ '\\') (cs : List Char) : normalize (c :: cs) = c :: normalize cs :=
  settled_singleton h cs

/-- A normal form is its own normal form. -/
theorem normalize_normalize (pattern : List Char) : normalize (normalize pattern) = normalize pattern := by
  fun_induction normalize pattern with
  | case1 => rfl
  | case2 c cs hc ih => rw [normalize, if_pos hc, ih]
  | case3 c cs hc ih => rw [normalize_cons_of_ne (by decide), ih]
  | case4 c cs hcs ih =>
    have hne : (if c = '\\' then '/' else c) ≠ '\\' := by
      split
      · decide
      · assumption
    rw [normalize_cons_of_ne hne, ih]

namespace ScanState

/-! ## Plain scans -/

/-- A scan that has read nothing but characters that stand for themselves, and these are the text. -/
structure IsPlainScan (s : ScanState) (text : List Char) : Prop where
  tokens : s.tokens = (text.map plainToken).reverse
  groups : s.groups = []
  doubleStar : s.doubleStar = false

/-- A scan that has met syntax: a group, a run of stars or a class is open, or a token stands for no single
character. -/
def HasSyntax (s : ScanState) : Prop :=
  s.groups ≠ [] ∨ (∃ t ∈ s.tokens, t.plain? = none) ∨ (∃ many, s.mode = .stars many) ∨ ∃ k, s.mode = .inClass k

/-- A scan that has read syntax: a group is open, or a token stands for no single character. -/
def HasReadSyntax (s : ScanState) : Prop := s.groups ≠ [] ∨ ∃ t ∈ s.tokens, t.plain? = none

variable {s t : ScanState} {c : Char} {cs text : List Char}

theorem IsPlainScan.past (h : s.IsPlainScan text) (s' : ScanState) (c : Char) : (s'.past c s).IsPlainScan text :=
  ⟨h.tokens, h.groups, h.doubleStar⟩

theorem HasSyntax.past (h : s.HasSyntax) (s' : ScanState) (c : Char) : (s'.past c s).HasSyntax := h

theorem isPlainScan_initial : ({} : ScanState).IsPlainScan [] := ⟨rfl, rfl, rfl⟩

/-- One more character that stands for itself. -/
theorem IsPlainScan.push (h : s.IsPlainScan text) (hc : c ≠ '/') : (s.push (.literal c)).IsPlainScan (text ++ [c]) := by
  refine ⟨?_, h.groups, h.doubleStar⟩
  rw [ScanState.push, h.tokens, ← plainToken_of_ne hc, List.map_append, List.reverse_append]
  rfl

theorem IsPlainScan.separator (h : s.IsPlainScan text) :
    ({ s with tokens := .separator :: s.tokens, segmentStart := true } : ScanState).IsPlainScan (text ++ ['/']) := by
  refine ⟨?_, h.groups, h.doubleStar⟩
  rw [h.tokens, List.map_append, List.reverse_append]
  rfl

/-- In plain text a character begins an escape, stands for itself, or is syntax that could be escaped. -/
theorem IsPlainScan.textStep (h : s.IsPlainScan text) (hmode : s.mode = .text) (c : Char) :
    (c = '\\' ∧ (s.textStep c).mode = .escaped ∧ (s.textStep c).IsPlainScan text) ∨
    (c ≠ '\\' ∧ (s.textStep c).mode = .text ∧ (s.textStep c).IsPlainScan (text ++ [c])) ∨
    (isEscapable c = true ∧ (s.textStep c).HasSyntax) := by
  unfold ScanState.textStep
  split
  · exact .inl ⟨rfl, rfl, h.tokens, h.groups, h.doubleStar⟩
  · exact .inr (.inl ⟨by decide, hmode, h.separator⟩)
  · exact .inr (.inr ⟨rfl, .inr (.inr (.inl ⟨false, rfl⟩))⟩)
  · exact .inr (.inr ⟨rfl, .inr (.inl ⟨.question, List.mem_cons_self, rfl⟩)⟩)
  · exact .inr (.inr ⟨rfl, .inr (.inr (.inr ⟨_, rfl⟩))⟩)
  · exact .inr (.inr ⟨rfl, .inl (by simp [openGroup])⟩)
  · rw [comma, h.groups]
    exact .inr (.inl ⟨by decide, rfl, h.push (by decide)⟩)
  · rw [closeGroup, h.groups]
    exact .inr (.inl ⟨by decide, rfl, h.push (by decide)⟩)
  · next hbackslash hslash _ _ _ _ _ _ => exact .inr (.inl ⟨hbackslash, rfl, h.push hslash⟩)

/-! ## Scans with syntax -/

/-- Between characters that are read on their own, syntax that has been met has been read. -/
theorem HasSyntax.read (h : s.HasSyntax) (hmode : s.mode = .text ∨ s.mode = .escaped) : s.HasReadSyntax := by
  rcases h with h | h | ⟨many, hstars⟩ | ⟨k, hclass⟩
  · exact .inl h
  · exact .inr h
  · simp [hstars] at hmode
  · simp [hclass] at hmode

theorem HasReadSyntax.hasSyntax (h : s.HasReadSyntax) : s.HasSyntax := by
  rcases h with h | h
  · exact .inl h
  · exact .inr (.inl h)

/-- A new token on top of the others leaves them. -/
theorem HasReadSyntax.cons (h : s.HasReadSyntax) {token : Token} (hgroups : t.groups = s.groups)
    (htokens : t.tokens = token :: s.tokens) : t.HasReadSyntax := by
  rcases h with h | ⟨old, hold, hplain⟩
  · exact .inl (hgroups ▸ h)
  · exact .inr ⟨old, htokens ▸ List.mem_cons_of_mem _ hold, hplain⟩

theorem HasReadSyntax.push (h : s.HasReadSyntax) (token : Token) : (s.push token).HasSyntax :=
  HasReadSyntax.hasSyntax (h.cons rfl rfl)

theorem HasReadSyntax.textStep (h : s.HasReadSyntax) (c : Char) : (s.textStep c).HasSyntax := by
  unfold ScanState.textStep
  split
  · exact HasReadSyntax.hasSyntax h
  · exact HasReadSyntax.hasSyntax (h.cons rfl rfl)
  · exact .inr (.inr (.inl ⟨false, rfl⟩))
  · exact h.push _
  · exact .inr (.inr (.inr ⟨_, rfl⟩))
  · exact .inl (by simp [openGroup])
  · unfold comma
    split
    · exact h.push _
    · exact .inl (by simp)
  · unfold closeGroup
    split
    · exact h.push _
    · exact .inr (.inl ⟨_, List.mem_cons_self, rfl⟩)
  · exact h.push _

theorem HasSyntax.starStep (s : ScanState) (many : Bool) (c : Char) : (s.starStep many c).HasSyntax := by
  unfold ScanState.starStep
  split_ifs
  · exact .inr (.inr (.inl ⟨true, rfl⟩))
  · exact .inr (.inl ⟨.anyDirectories, List.mem_cons_self, rfl⟩)
  · exact HasReadSyntax.textStep (.inr ⟨.anyPath, List.mem_cons_self, rfl⟩) c
  · exact HasReadSyntax.textStep (.inr ⟨.star, List.mem_cons_self, rfl⟩) c

theorem HasSyntax.apply (s : ScanState) (move : ClassMove) : (move.apply s).HasSyntax := by
  cases move with
  | stay k => exact .inr (.inr (.inr ⟨k, rfl⟩))
  | close negated items => exact .inr (.inl ⟨.charClass negated items, List.mem_cons_self, rfl⟩)

/-- **Syntax stays.** -/
theorem HasSyntax.step (h : s.HasSyntax) (hstep : s.step c = .ok t) : t.HasSyntax := by
  cases hmode : s.mode with
  | text =>
    rw [step_of_text hmode, Except.ok.injEq] at hstep
    exact hstep ▸ ((h.read (.inl hmode)).textStep c).past s c
  | escaped =>
    rw [step_of_escaped hmode, Except.ok.injEq] at hstep
    exact hstep ▸ ((h.read (.inr hmode)).push (.literal c)).past s c
  | stars many =>
    rw [step_of_stars hmode, Except.ok.injEq] at hstep
    exact hstep ▸ (HasSyntax.starStep s many c).past s c
  | inClass k =>
    obtain ⟨move, -, rfl⟩ := (step_of_inClass hmode).mp hstep
    exact (HasSyntax.apply s move).past s c

/-- A scan with syntax that comes to an end gives a token that stands for no single character. -/
theorem HasSyntax.finish (h : s.HasSyntax) {scanned : Scanned} (hfinish : s.finish = .ok scanned) :
    ∃ t ∈ scanned.tokens, t.plain? = none := by
  obtain ⟨⟨hgroups, hclass⟩, rfl⟩ := finish_eq_ok_iff.mp hfinish
  simp only [List.mem_reverse]
  cases hmode : s.mode with
  | text =>
    obtain ⟨t, ht, hplain⟩ := (h.read (.inl hmode)).resolve_left (not_not_intro hgroups)
    rw [finalTokens, hmode]
    exact ⟨t, ht, hplain⟩
  | escaped =>
    obtain ⟨t, ht, hplain⟩ := (h.read (.inr hmode)).resolve_left (not_not_intro hgroups)
    rw [finalTokens, hmode]
    exact ⟨t, List.mem_cons_of_mem _ ht, hplain⟩
  | stars many =>
    rw [finalTokens, hmode]
    refine ⟨_, List.mem_cons_self, ?_⟩
    split_ifs <;> rfl
  | inClass k => exact absurd hmode (hclass k)

/-! ## Plain runs -/

/-- A plain scan between characters, none of which but a backslash has been read in part, or one that has met syntax. -/
def StaysPlain (s : ScanState) : Prop :=
  ((s.mode = .text ∨ s.mode = .escaped) ∧ ∃ text, s.IsPlainScan text) ∨ s.HasSyntax

/-- **A plain scan stays plain or meets syntax, if only what can be escaped is escaped.** -/
theorem StaysPlain.step (h : s.StaysPlain) (hc : s.pending = true → isEscapable c = true)
    (hstep : s.step c = .ok t) : t.StaysPlain := by
  rcases h with ⟨hmode | hmode, text, hs⟩ | hmet
  · rw [step_of_text hmode, Except.ok.injEq] at hstep
    subst hstep
    rcases hs.textStep hmode c with ⟨-, hmode', hs'⟩ | ⟨-, hmode', hs'⟩ | ⟨-, hmet⟩
    · exact .inl ⟨.inr hmode', text, hs'.past s c⟩
    · exact .inl ⟨.inl hmode', text ++ [c], hs'.past s c⟩
    · exact .inr (hmet.past s c)
  · rw [step_of_escaped hmode, Except.ok.injEq] at hstep
    subst hstep
    have hslash : c ≠ '/' := by
      rintro rfl
      exact absurd (hc (by rw [pending, hmode])) (by decide)
    exact .inl ⟨.inl rfl, text ++ [c], (hs.push hslash).past s c⟩
  · exact .inr (hmet.step hstep)

/-- The scan of a text in normal form ends as a plain one or has met syntax. -/
theorem run_of_normal (hnormal : normalize cs = cs) (hrun : run {} cs = .ok t) :
    (t.mode = .text ∧ ∃ text, t.IsPlainScan text) ∨ t.HasSyntax := by
  have hinitial : ({} : ScanState).StaysPlain := .inl ⟨.inl rfl, [], isPlainScan_initial⟩
  obtain ⟨⟨hmode | hmode, hs⟩ | hmet, hpending⟩ := run_normal StaysPlain.step hinitial hnormal hrun
  · exact .inl ⟨hmode, hs⟩
  · rw [pending, hmode] at hpending
    cases hpending
  · exact .inr hmet

theorem IsPlainScan.finish (h : s.IsPlainScan text) (hmode : s.mode = .text) :
    s.finish = .ok ⟨text.map plainToken, false⟩ := by
  have htokens : s.finalTokens = s.tokens := by rw [finalTokens, hmode]
  refine finish_eq_ok_iff.mpr ⟨⟨h.groups, by simp [hmode]⟩, ?_⟩
  rw [htokens, h.tokens, h.doubleStar, List.reverse_reverse]

end ScanState

/-- **A body in normal form whose tokens stand for a path has the tokens of the path.** -/
theorem scanned_of_plainText {body text : List Char} {scanned : Scanned} (hnormal : normalize body = body)
    (hscan : scan body = .ok scanned) (htext : plainText? scanned.tokens = some text) :
    scanned = ⟨text.map plainToken, false⟩ := by
  obtain ⟨s, hrun, hfinish⟩ := scan_eq_ok_iff.mp hscan
  rcases ScanState.run_of_normal hnormal hrun with ⟨hmode, text', hs⟩ | hmet
  · obtain rfl := Except.ok.inj (hfinish.symm.trans (hs.finish hmode))
    rw [plainText?_map_plainToken, Option.some_inj] at htext
    rw [htext]
  · obtain ⟨t, ht, hplain⟩ := hmet.finish hfinish
    have hmem : t.plain? ∈ text.map some := map_plain?_of_plainText htext ▸ List.mem_map_of_mem ht
    simp [hplain] at hmem

end PathOwners.Glob
