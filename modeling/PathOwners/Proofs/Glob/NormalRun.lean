import PathOwners.Proofs.Glob.Lexeme

/-!
# Scans of texts in normal form

In a text in normal form every backslash escapes a character that can be escaped, and a scan reads it so: an escape is
pending after a backslash that is not escaped itself (`ScanState.pending_of_step`). A property that the steps of a scan
keep, the escaped characters being such as can be escaped, so holds at the end of the text, where no escape is pending
(`ScanState.run_normal`).
-/

namespace PathOwners.Glob.ScanState

variable {s t : ScanState} {c : Char} {cs : List Char}

/-- Whether the next character is escaped. -/
def pending (s : ScanState) : Bool :=
  match s.mode with
  | .escaped => true
  | .inClass k => k.pending
  | .text | .stars _ => false

theorem Between.pending (h : s.Between) : s.pending = false := by
  rcases h with h | ⟨many, h⟩ <;> rw [ScanState.pending, h]

/-- Outside classes, a scan that waits for no escaped character stands between two parts. -/
theorem between_of_not_pending (hmode : ∀ k, s.mode ≠ .inClass k) (hpending : s.pending = false) : s.Between := by
  cases hs : s.mode with
  | text => exact .inl hs
  | stars many => exact .inr ⟨many, hs⟩
  | escaped => simp [ScanState.pending, hs] at hpending
  | inClass k => exact absurd hs (hmode k)

/-- A backslash makes an escape pending unless it is escaped itself. -/
theorem pending_of_step (hstep : s.step c = .ok t) : t.pending = true ↔ s.pending = false ∧ c = '\\' := by
  have hbetween : s.Between → (t.pending = true ↔ s.pending = false ∧ c = '\\') := by
    intro hs
    have hmode := mode_of_step_between hs hstep
    rw [hs.pending]
    split_ifs at hmode with hbackslash
    · simp [pending, hmode, hbackslash]
    · simp [pending, hmode, OpenClass.pending, hbackslash]
    · simp [Between.pending hmode, hbackslash]
  cases hmode : s.mode with
  | text => exact hbetween (.inl hmode)
  | stars many => exact hbetween (.inr ⟨many, hmode⟩)
  | escaped =>
    rw [step_of_escaped hmode, Except.ok.injEq] at hstep
    subst hstep
    simp [pending, past, push, hmode]
  | inClass k =>
    obtain ⟨move, hmove, rfl⟩ := (step_of_inClass hmode).mp hstep
    have hs : s.pending = k.pending := by rw [pending, hmode]
    rw [hs]
    cases move with
    | stay k' => exact OpenClass.pending_of_next hmove
    | close negated items =>
      obtain ⟨-, rfl⟩ := OpenClass.eq_bracket_of_next hmove
      simp [pending, past, ClassMove.apply, push]

/-- What a scan still has to read, with the backslash of a pending escape. -/
def remaining (s : ScanState) (cs : List Char) : List Char := if s.pending then '\\' :: cs else cs

/-- In a text in normal form an escaped character can be escaped, and what is left of the text is in normal form. -/
theorem normal_of_step (hnormal : normalize (s.remaining (c :: cs)) = s.remaining (c :: cs))
    (hstep : s.step c = .ok t) :
    (s.pending = true → isEscapable c = true) ∧ normalize (t.remaining cs) = t.remaining cs := by
  have hpending := pending_of_step hstep
  unfold remaining at hnormal ⊢
  cases hs : s.pending with
  | true =>
    have ht : t.pending = false := by simpa [hs] using hpending
    rw [hs, if_pos rfl] at hnormal
    have hc := isEscapable_of_normalize hnormal
    rw [ht, if_neg Bool.false_ne_true]
    exact ⟨fun _ => hc, (settled_escape hc).tail hnormal⟩
  | false =>
    rw [hs, if_neg Bool.false_ne_true] at hnormal
    refine ⟨fun h => absurd h Bool.false_ne_true, ?_⟩
    by_cases hc : c = '\\'
    · rwa [hpending.mpr ⟨hs, hc⟩, if_pos rfl, ← hc]
    · have ht : t.pending = false := by simpa [hs, hc] using hpending
      rw [ht, if_neg Bool.false_ne_true]
      exact (settled_singleton hc).tail hnormal

/-- **What the steps of a scan keep holds at the end of a text in normal form.** -/
theorem run_normal {P : ScanState → Prop}
    (hP : ∀ {s t : ScanState} {c : Char}, P s → (s.pending = true → isEscapable c = true) → s.step c = .ok t → P t) :
    ∀ {cs : List Char} {s : ScanState}, P s → normalize (s.remaining cs) = s.remaining cs → s.run cs = .ok t →
      P t ∧ t.pending = false
  | [], s, hs, hnormal, hrun => by
    obtain rfl : s = t := Except.ok.inj hrun
    refine ⟨hs, ?_⟩
    by_contra hpending
    rw [remaining, if_pos (Bool.not_eq_false _ ▸ hpending)] at hnormal
    simp [normalize] at hnormal
  | c :: cs, s, hs, hnormal, hrun => by
    obtain ⟨s', hstep, hrun⟩ := run_cons_eq_ok_iff.mp hrun
    obtain ⟨hc, hnormal'⟩ := normal_of_step hnormal hstep
    exact run_normal hP (hP hs hc hstep) hnormal' hrun

/-- A text in normal form ends in no escape. -/
theorem pending_of_run (hnormal : normalize cs = cs) (hrun : run {} cs = .ok t) : t.pending = false :=
  (run_normal (P := fun _ => True) (s := {}) (fun _ _ _ => trivial) trivial hnormal hrun).2

end PathOwners.Glob.ScanState
