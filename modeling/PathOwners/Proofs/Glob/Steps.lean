import Mathlib.Data.List.Basic
import PathOwners.Proofs.Except
import PathOwners.Proofs.Glob.OpenClass

/-!
# Steps of a scan

The scan of two texts, one after the other (`ScanState.run_append_eq_ok_iff`), and the step of a scan in each of its
modes. A scan ends with its final tokens, outside groups and classes (`ScanState.finish_eq_ok_iff`).
-/

namespace PathOwners.Glob

namespace ScanState

variable {s t : ScanState} {c : Char} {cs text : List Char}

/-! ## Runs -/

theorem run_cons_eq_ok_iff : run s (c :: cs) = .ok t ↔ ∃ s', s.step c = .ok s' ∧ run s' cs = .ok t :=
  Except.bind_eq_ok_iff

theorem run_cons_of_step_eq (h : s.step c = t.step c) : run s (c :: cs) = run t (c :: cs) := by
  rw [run, run, List.foldlM_cons, List.foldlM_cons, h]

theorem run_append_eq_ok_iff : run s (text ++ cs) = .ok t ↔ ∃ s', run s text = .ok s' ∧ run s' cs = .ok t := by
  rw [run, List.foldlM_append]
  exact Except.bind_eq_ok_iff

/-- What every step of a scan keeps holds at the end of a run. -/
theorem run_invariant {P : ScanState → Prop} (hP : ∀ {s t : ScanState} {c : Char}, P s → s.step c = .ok t → P t) :
    ∀ {cs : List Char} {s : ScanState}, P s → run s cs = .ok t → P t
  | [], s, hs, hrun => Except.ok.inj hrun ▸ hs
  | c :: cs, s, hs, hrun => by
    obtain ⟨s', hstep, hrun⟩ := run_cons_eq_ok_iff.mp hrun
    exact run_invariant hP (hP hs hstep) hrun

theorem run_singleton (s : ScanState) (c : Char) : run s [c] = s.step c := by
  rw [run, List.foldlM_cons]
  exact bind_pure (s.step c)

/-! ## Modes -/

/-- A scan after a character. -/
def past (s : ScanState) (c : Char) (t : ScanState) : ScanState := { t with offset := s.offset + c.utf8Size }

theorem step_of_text (h : s.mode = .text) : s.step c = .ok (s.past c (s.textStep c)) := by
  rw [step, advance, h]
  rfl

theorem step_of_escaped (h : s.mode = .escaped) : s.step c = .ok (s.past c (s.push (.literal c))) := by
  rw [step, advance, h]
  rfl

theorem step_of_stars {many : Bool} (h : s.mode = .stars many) : s.step c = .ok (s.past c (s.starStep many c)) := by
  rw [step, advance, h]
  rfl

theorem step_of_inClass {k : OpenClass} (h : s.mode = .inClass k) :
    s.step c = .ok t ↔ ∃ move, k.next c = some move ∧ t = s.past c (move.apply s) := by
  rw [step, advance, h, Except.map_eq_ok_iff]
  simp only [OpenClass.classStep_eq_ok_iff]
  constructor
  · rintro ⟨_, ⟨move, hmove, rfl⟩, rfl⟩
    exact ⟨move, hmove, rfl⟩
  · rintro ⟨move, hmove, rfl⟩
    exact ⟨_, ⟨move, hmove, rfl⟩, rfl⟩

/-- A character that means nothing else stands for itself, and so do a comma and a closing brace outside groups. -/
theorem textStep_literal (hc : c ∉ ['\\', '/', '*', '?', '[', '\x7b'])
    (hgroups : c = ',' ∨ c = '\x7d' → s.groups = []) : s.textStep c = s.push (.literal c) := by
  unfold textStep
  split <;> simp at hc
  · rw [comma, hgroups (.inl rfl)]
  · rw [closeGroup, hgroups (.inr rfl)]
  · rfl

/-! ## Runs of stars -/

/-- A scan whose run of stars is over, where it would end a segment or where it would not. -/
def endStars (s : ScanState) (many ends : Bool) : ScanState :=
  if many && s.segmentStart && ends then { s with mode := .text, tokens := .anyPath :: s.tokens } else s.push .star

theorem mode_endStars (s : ScanState) (many ends : Bool) : (s.endStars many ends).mode = .text := by
  unfold endStars push
  split_ifs <;> rfl

theorem offset_endStars (s : ScanState) (many ends : Bool) : (s.endStars many ends).offset = s.offset := by
  unfold endStars push
  split_ifs <;> rfl

theorem step_star_of_text (h : s.mode = .text) : s.step '*' = .ok (s.past '*' { s with mode := .stars false }) :=
  step_of_text h

theorem step_star_of_stars {many : Bool} (h : s.mode = .stars many) :
    s.step '*' = .ok (s.past '*' { s with mode := .stars true, doubleStar := true }) := step_of_stars h

/-- A separator makes stars that stand at the start of a segment a segment of their own. -/
theorem step_separator_of_stars {many : Bool} (h : s.mode = .stars many) :
    s.step '/' = if many && s.segmentStart then
      .ok (s.past '/' { s with mode := .text, tokens := .anyDirectories :: s.tokens })
    else (s.push .star).step '/' := by
  rw [step_of_stars h, step_of_text (s := s.push .star) rfl, starStep]
  cases many <;> cases hstart : s.segmentStart <;> rfl

/-- Any other character is scanned after the end of the run. -/
theorem step_of_stars_ended {many : Bool} (h : s.mode = .stars many) (hstar : c ≠ '*') (hslash : c ≠ '/') :
    s.step c = (s.endStars many (s.endsAlternative c)).step c := by
  rw [step_of_stars h, step_of_text (mode_endStars s many _), starStep, if_neg hstar, past, past, offset_endStars]
  have hslash' : (c == '/') = false := beq_eq_false_iff_ne.mpr hslash
  rw [hslash', Bool.and_false, if_neg Bool.false_ne_true]
  unfold endStars
  split_ifs <;> rfl

/-! ## Parts of a text -/

/-- Whether the next character of a scan begins a new part of the text: no escape and no class is under way. -/
def Between (s : ScanState) : Prop := s.mode = .text ∨ ∃ many, s.mode = .stars many

theorem Between.ne_inClass (h : s.Between) (k : OpenClass) : s.mode ≠ .inClass k := by
  rcases h with h | ⟨_, h⟩ <;> simp [h]

/-- The mode that a character of plain text brings about. -/
theorem mode_of_step_text (h : s.mode = .text) (hstep : s.step c = .ok t) : t.mode =
    if c = '\\' then .escaped else if c = '*' then .stars false else if c = '[' then .inClass { start := s.offset }
    else .text := by
  rw [step_of_text h, Except.ok.injEq] at hstep
  subst hstep
  unfold past textStep
  split <;> simp [push, openGroup, h]
  · unfold comma push
    split <;> simp [h]
  · unfold closeGroup push
    split <;> simp [h]
  · next hbackslash _ hstar _ hbracket _ _ _ => rw [if_neg hbackslash, if_neg hstar, if_neg hbracket]

/-- The mode after a character that begins a new part of the text. -/
theorem mode_of_step_between (hs : s.Between) (hstep : s.step c = .ok t) :
    if c = '\\' then t.mode = .escaped else if c = '[' then t.mode = .inClass { start := s.offset }
    else t.Between := by
  have htext : ∀ {s : ScanState}, s.mode = .text → s.step c = .ok t → if c = '\\' then t.mode = .escaped
      else if c = '[' then t.mode = .inClass { start := s.offset } else t.Between := by
    intro s hs hstep
    have hmode := mode_of_step_text hs hstep
    split_ifs at hmode ⊢ with _ _ hstar
    · exact hmode
    · exact absurd hstar (by simp_all)
    · exact hmode
    · exact .inr ⟨false, hmode⟩
    · exact .inl hmode
  rcases hs with hs | ⟨many, hs⟩
  · exact htext hs hstep
  by_cases hstar : c = '*'
  · subst hstar
    rw [step_star_of_stars hs, Except.ok.injEq] at hstep
    exact .inr ⟨true, hstep ▸ rfl⟩
  by_cases hslash : c = '/'
  · subst hslash
    rw [step_separator_of_stars hs] at hstep
    split_ifs at hstep
    · rw [Except.ok.injEq] at hstep
      exact .inl (hstep ▸ rfl)
    · exact @htext (s.push .star) rfl hstep
  · rw [step_of_stars_ended hs hstar hslash] at hstep
    have hended := htext (mode_endStars s many _) hstep
    rwa [offset_endStars] at hended

/-- Outside classes, a separator ends the part of the text before it. -/
theorem exists_step_separator (hs : ∀ k, s.mode ≠ .inClass k) : ∃ t, s.step '/' = .ok t ∧ t.Between := by
  have hbetween : ∀ {t : ScanState}, s.Between → s.step '/' = .ok t → t.Between := mode_of_step_between
  cases hmode : s.mode with
  | text => exact ⟨_, step_of_text hmode, hbetween (.inl hmode) (step_of_text hmode)⟩
  | escaped => exact ⟨_, step_of_escaped hmode, .inl rfl⟩
  | stars many => exact ⟨_, step_of_stars hmode, hbetween (.inr ⟨many, hmode⟩) (step_of_stars hmode)⟩
  | inClass k => exact absurd hmode (hs k)

/-! ## The end of a scan -/

/-- A scan comes to an end outside groups and classes, with its final tokens. -/
theorem finish_eq_ok_iff {scanned : Scanned} : s.finish = .ok scanned ↔
    (s.groups = [] ∧ ∀ k, s.mode ≠ .inClass k) ∧ ⟨s.finalTokens.reverse, s.doubleStar⟩ = scanned := by
  unfold finish
  split
  · next k hmode =>
    refine iff_of_false (by simp) fun h => ?_
    exact h.1.2 k hmode
  · next hgroups _ =>
    refine iff_of_false (by simp) fun h => ?_
    rw [h.1.1] at hgroups
    cases hgroups
  · next hgroups hmode =>
    rw [Except.ok.injEq]
    exact ⟨fun h => ⟨⟨hgroups, hmode⟩, h⟩, And.right⟩

/-! ## What a scan comes to -/

/-- What a scan comes to from a state on. -/
def outcome (s : ScanState) (text : List Char) : Except Error Scanned := (s.run text).bind finish

theorem outcome_nil (s : ScanState) : s.outcome [] = s.finish := rfl

theorem outcome_of_step (h : s.step c = .ok t) : s.outcome (c :: cs) = t.outcome cs := by
  rw [outcome, run, List.foldlM_cons, h]
  rfl

theorem outcome_of_step_error {e : Error} (h : s.step c = .error e) : s.outcome (c :: cs) = .error e := by
  rw [outcome, run, List.foldlM_cons, h]
  rfl

/-- Two scans that make the same step come to the same. -/
theorem outcome_congr_step (h : s.step c = t.step c) : s.outcome (c :: cs) = t.outcome (c :: cs) := by
  rw [outcome, run_cons_of_step_eq h, outcome]

end ScanState

theorem scan_eq_ok_iff {text : List Char} {scanned : Scanned} :
    scan text = .ok scanned ↔ ∃ s, ScanState.run {} text = .ok s ∧ s.finish = .ok scanned := Except.bind_eq_ok_iff

end PathOwners.Glob
