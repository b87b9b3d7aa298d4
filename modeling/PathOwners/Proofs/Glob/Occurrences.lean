import PathOwners.Proofs.Glob.Body
import PathOwners.Proofs.Glob.NormalRun
import PathOwners.Proofs.Glob.Reading

/-!
# Where tokens come from

The tokens that occur in what a scan has read, those inside its groups included. A step of a scan adds at most the
tokens that the mode and the character of the step give (`ScanState.occurs_of_step`), so what holds of all these tokens
holds of all tokens of a body: a separator is never a plain character (`not_occurs_separator`), and tokens that cross
directories come only from two stars in a row (`doubleStar_of_occurs`).
-/

namespace PathOwners.Glob

/-! ## Tokens in a sequence -/

/-- A token stands in a sequence of tokens, or in an alternative of a group there. -/
inductive Occurs (t : Token) : List Token → Prop
  | here {ts : List Token} : t ∈ ts → Occurs t ts
  | within {ts inner : List Token} {alternatives : List (List Token)} :
      .alternation alternatives ∈ ts → inner ∈ alternatives → Occurs t inner → Occurs t ts

section Occurs

variable {t u : Token} {ts us : List Token}

theorem Occurs.mono (h : Occurs t ts) (hsubset : ts ⊆ us) : Occurs t us := by
  cases h with
  | here h => exact .here (hsubset h)
  | within h hinner hoccurs => exact .within (hsubset h) hinner hoccurs

theorem not_occurs_nil : ¬ Occurs t [] := by
  rintro (h | ⟨h, -, -⟩) <;> cases h

theorem occurs_reverse : Occurs t ts.reverse ↔ Occurs t ts :=
  ⟨fun h => h.mono fun _ => List.mem_reverse.mp, fun h => h.mono fun _ => List.mem_reverse.mpr⟩

/-- A token in front of a sequence occurs in it, with what is in its alternatives. -/
theorem occurs_cons : Occurs t (u :: us) ↔
    t = u ∨ (∃ alternatives, u = .alternation alternatives ∧ ∃ inner ∈ alternatives, Occurs t inner) ∨ Occurs t us := by
  constructor
  · rintro (h | ⟨h, hinner, hoccurs⟩)
    · rcases List.mem_cons.mp h with h | h
      · exact .inl h
      · exact .inr (.inr (.here h))
    · rcases List.mem_cons.mp h with h | h
      · exact .inr (.inl ⟨_, h.symm, _, hinner, hoccurs⟩)
      · exact .inr (.inr (.within h hinner hoccurs))
  · rintro (rfl | ⟨alternatives, rfl, inner, hinner, hoccurs⟩ | h)
    · exact .here List.mem_cons_self
    · exact .within List.mem_cons_self hinner hoccurs
    · exact h.mono (List.subset_cons_self u us)

/-- A token that is no group adds itself. -/
theorem occurs_cons_of_ne (hu : ∀ alternatives, u ≠ .alternation alternatives) :
    Occurs t (u :: us) ↔ t = u ∨ Occurs t us := by
  rw [occurs_cons]
  simp [hu]

end Occurs

namespace ScanState

/-- A token occurs in what a scan has read: in the innermost alternative, before a group that is open, or in an
alternative of such a group. -/
inductive Occurs (t : Token) (s : ScanState) : Prop
  | innermost : Glob.Occurs t s.tokens → Occurs t s
  | before {g : OpenGroup} : g ∈ s.groups → Glob.Occurs t g.before → Occurs t s
  | alternative {g : OpenGroup} {ts : List Token} :
      g ∈ s.groups → ts ∈ g.alternatives → Glob.Occurs t ts → Occurs t s

/-- The tokens that a character of plain text can give. -/
inductive TextGives (c : Char) : Token → Prop
  | literal : c ≠ '/' → TextGives c (.literal c)
  | separator : TextGives c .separator
  | question : TextGives c .question
  | alternation (alternatives : List (List Token)) : TextGives c (.alternation alternatives)

/-- **The tokens that a step of a scan can give.** -/
inductive Gives (s : ScanState) (c : Char) : Token → Prop
  | text {t : Token} : TextGives c t → Gives s c t
  | escaped : s.mode = .escaped → Gives s c (.literal c)
  | star : Gives s c .star
  | charClass (negated : Bool) (items : List ClassItem) : Gives s c (.charClass negated items)
  | anyDirectories : s.mode = .stars true → Gives s c .anyDirectories
  | anyPath : s.mode = .stars true → Gives s c .anyPath

/-! ## Steps -/

section Steps

variable {s s' : ScanState} {c : Char} {cs : List Char} {t u : Token}

theorem Occurs.same (h : s'.Occurs t) (hgroups : s'.groups = s.groups) (htokens : s'.tokens = s.tokens) :
    s.Occurs t := by
  cases h with
  | innermost h => exact .innermost (htokens ▸ h)
  | before hg h => exact .before (hgroups ▸ hg) h
  | alternative hg hts h => exact .alternative (hgroups ▸ hg) hts h

/-- One more token that is no group. -/
theorem Occurs.cons (h : s'.Occurs t) (hgroups : s'.groups = s.groups) (htokens : s'.tokens = u :: s.tokens)
    (hu : ∀ alternatives, u ≠ .alternation alternatives) : t = u ∨ s.Occurs t := by
  cases h with
  | innermost h =>
    rw [htokens, occurs_cons_of_ne hu] at h
    exact h.imp_right .innermost
  | before hg h => exact .inr (.before (hgroups ▸ hg) h)
  | alternative hg hts h => exact .inr (.alternative (hgroups ▸ hg) hts h)

theorem Occurs.of_push (h : (s.push u).Occurs t) (hu : ∀ alternatives, u ≠ .alternation alternatives) :
    t = u ∨ s.Occurs t := h.cons rfl rfl hu

theorem Occurs.of_openGroup (h : s.openGroup.Occurs t) : s.Occurs t := by
  cases h with
  | innermost h => exact absurd h not_occurs_nil
  | before hg h =>
    rcases List.mem_cons.mp hg with rfl | hg
    · exact .innermost h
    · exact .before hg h
  | alternative hg hts h =>
    rcases List.mem_cons.mp hg with rfl | hg
    · cases hts
    · exact .alternative hg hts h

theorem Occurs.of_comma (h : s.comma.Occurs t) : t = .literal ',' ∨ s.Occurs t := by
  cases hgroups : s.groups with
  | nil =>
    rw [comma, hgroups] at h
    exact h.of_push (by simp)
  | cons g gs =>
    have hg : g ∈ s.groups := hgroups ▸ List.mem_cons_self
    have hgs : gs ⊆ s.groups := hgroups ▸ List.subset_cons_self g gs
    rw [comma, hgroups] at h
    right
    cases h with
    | innermost h => exact absurd h not_occurs_nil
    | before hg' h =>
      rcases List.mem_cons.mp hg' with rfl | hg'
      · exact .before hg h
      · exact .before (hgs hg') h
    | alternative hg' hts h =>
      rcases List.mem_cons.mp hg' with rfl | hg'
      · rcases List.mem_cons.mp hts with rfl | hts
        · exact .innermost (occurs_reverse.mp h)
        · exact .alternative hg hts h
      · exact .alternative (hgs hg') hts h

theorem Occurs.of_closeGroup (h : s.closeGroup.Occurs t) :
    t = .literal '\x7d' ∨ (∃ alternatives, t = .alternation alternatives) ∨ s.Occurs t := by
  cases hgroups : s.groups with
  | nil =>
    rw [closeGroup, hgroups] at h
    exact (h.of_push (by simp)).imp_right .inr
  | cons g gs =>
    have hg : g ∈ s.groups := hgroups ▸ List.mem_cons_self
    have hgs : gs ⊆ s.groups := hgroups ▸ List.subset_cons_self g gs
    rw [closeGroup, hgroups] at h
    right
    cases h with
    | innermost h =>
      -- The new token is a group: what is in it was in the alternatives, and what is below it was before the group.
      rcases occurs_cons.mp h with h | ⟨alternatives, halternatives, inner, hinner, h⟩ | h
      · exact .inl ⟨_, h⟩
      · obtain rfl := Token.alternation.inj halternatives
        rcases List.mem_cons.mp (List.mem_reverse.mp hinner) with rfl | hinner
        · exact .inr (.innermost (occurs_reverse.mp h))
        · exact .inr (.alternative hg hinner h)
      · exact .inr (.before hg h)
    | before hg' h => exact .inr (.before (hgs hg') h)
    | alternative hg' hts h => exact .inr (.alternative (hgs hg') hts h)

theorem Occurs.of_textStep (h : (s.textStep c).Occurs t) : TextGives c t ∨ s.Occurs t := by
  unfold textStep at h
  split at h
  · exact .inr (h.same rfl rfl)
  · rcases h.cons (s := s) rfl rfl (by simp) with rfl | h
    · exact .inl .separator
    · exact .inr h
  · exact .inr (h.same rfl rfl)
  · rcases h.of_push (by simp) with rfl | h
    · exact .inl .question
    · exact .inr h
  · exact .inr (h.same rfl rfl)
  · exact .inr h.of_openGroup
  · rcases h.of_comma with rfl | h
    · exact .inl (.literal (by decide))
    · exact .inr h
  · rcases h.of_closeGroup with rfl | ⟨alternatives, rfl⟩ | h
    · exact .inl (.literal (by decide))
    · exact .inl (.alternation alternatives)
    · exact .inr h
  · next hslash _ _ _ _ _ _ =>
    rcases h.of_push (by simp) with rfl | h
    · exact .inl (.literal hslash)
    · exact .inr h

theorem Occurs.of_starStep {many : Bool} (h : (s.starStep many c).Occurs t) :
    TextGives c t ∨ t = .star ∨ (many = true ∧ (t = .anyDirectories ∨ t = .anyPath)) ∨ s.Occurs t := by
  unfold starStep at h
  split_ifs at h with hstar hseparator hends
  · exact .inr (.inr (.inr (h.same rfl rfl)))
  · have hmany : many = true := by simp_all
    rcases h.cons (s := s) rfl rfl (by simp) with rfl | h
    · exact .inr (.inr (.inl ⟨hmany, .inl rfl⟩))
    · exact .inr (.inr (.inr h))
  · have hmany : many = true := by simp_all
    rcases h.of_textStep with h | h
    · exact .inl h
    · rcases h.cons (s := s) rfl rfl (by simp) with rfl | h
      · exact .inr (.inr (.inl ⟨hmany, .inr rfl⟩))
      · exact .inr (.inr (.inr h))
  · rcases h.of_textStep with h | h
    · exact .inl h
    · rcases h.of_push (by simp) with rfl | h
      · exact .inr (.inl rfl)
      · exact .inr (.inr (.inr h))

/-- **What a step of a scan adds is given by its mode and its character.** -/
theorem occurs_of_step (hstep : s.step c = .ok s') (h : s'.Occurs t) : s.Gives c t ∨ s.Occurs t := by
  cases hmode : s.mode with
  | text =>
    rw [step_of_text hmode, Except.ok.injEq] at hstep
    subst hstep
    exact (Occurs.of_textStep (h.same rfl rfl)).imp_left .text
  | escaped =>
    rw [step_of_escaped hmode, Except.ok.injEq] at hstep
    subst hstep
    rcases h.cons (s := s) rfl rfl (by simp) with rfl | h
    · exact .inl (.escaped hmode)
    · exact .inr h
  | stars many =>
    rw [step_of_stars hmode, Except.ok.injEq] at hstep
    subst hstep
    rcases Occurs.of_starStep (h.same rfl rfl) with h | rfl | ⟨rfl, rfl | rfl⟩ | h
    · exact .inl (.text h)
    · exact .inl .star
    · exact .inl (.anyDirectories hmode)
    · exact .inl (.anyPath hmode)
    · exact .inr h
  | inClass k =>
    obtain ⟨move, -, rfl⟩ := (step_of_inClass hmode).mp hstep
    cases move with
    | stay k' => exact .inr (h.same rfl rfl)
    | close negated items =>
      rcases h.cons (s := s) rfl rfl (by simp) with rfl | h
      · exact .inl (.charClass negated items)
      · exact .inr h

theorem not_occurs_initial : ¬ ({} : ScanState).Occurs t := by
  rintro (h | ⟨hg, -⟩ | ⟨hg, -, -⟩)
  · exact not_occurs_nil h
  · cases hg
  · cases hg

end Steps

/-! ## Two stars in a row -/

section DoubleStar

variable {s s' : ScanState} {c : Char} {cs : List Char} {t : Token}

theorem doubleStar_textStep (s : ScanState) (c : Char) : (s.textStep c).doubleStar = s.doubleStar := by
  have hcomma : s.comma.doubleStar = s.doubleStar := by
    unfold comma
    split <;> rfl
  have hclose : s.closeGroup.doubleStar = s.doubleStar := by
    unfold closeGroup
    split <;> rfl
  unfold textStep
  split <;> first | rfl | assumption

theorem mode_textStep_ne (hmode : s.mode = .text) (c : Char) : (s.textStep c).mode ≠ .stars true := by
  have hstep : (s.past c (s.textStep c)).mode = _ := mode_of_step_text hmode (step_of_text hmode)
  have hpast : (s.textStep c).mode = (s.past c (s.textStep c)).mode := rfl
  rw [hpast, hstep]
  split_ifs <;> simp

/-- Two stars in a row are met where a run of stars becomes one of two. -/
theorem doubleStar_of_step (hstep : s.step c = .ok s') :
    s'.doubleStar = true ↔ s.doubleStar = true ∨ s'.mode = .stars true := by
  have htext : ∀ {u : ScanState}, u.mode = .text → u.doubleStar = s.doubleStar →
      ((u.textStep c).doubleStar = true ↔ s.doubleStar = true ∨ (u.textStep c).mode = .stars true) := by
    intro u hu hdouble
    rw [doubleStar_textStep, hdouble]
    simp [mode_textStep_ne hu]
  cases hmode : s.mode with
  | text =>
    rw [step_of_text hmode, Except.ok.injEq] at hstep
    exact hstep ▸ htext hmode rfl
  | escaped =>
    rw [step_of_escaped hmode, Except.ok.injEq] at hstep
    subst hstep
    simp [past, push]
  | stars many =>
    rw [step_of_stars hmode, Except.ok.injEq] at hstep
    subst hstep
    unfold starStep
    split_ifs
    · simp [past]
    · simp [past]
    · exact htext rfl rfl
    · exact htext rfl rfl
  | inClass k =>
    obtain ⟨move, -, rfl⟩ := (step_of_inClass hmode).mp hstep
    cases move <;> simp [past, ClassMove.apply, stayInClass, push]

/-- What crosses directories comes from two stars in a row. -/
structure MarksStars (s : ScanState) : Prop where
  mode : s.mode = .stars true → s.doubleStar = true
  tokens : ∀ t, s.Occurs t → t = .anyDirectories ∨ t = .anyPath → s.doubleStar = true

theorem MarksStars.step (h : s.MarksStars) (hstep : s.step c = .ok s') : s'.MarksStars := by
  have hdouble := doubleStar_of_step hstep
  refine ⟨fun hmode => hdouble.mpr (.inr hmode), fun t ht hcrosses => hdouble.mpr (.inl ?_)⟩
  rcases occurs_of_step hstep ht with hgives | hold
  · cases hgives with
    | text hgives => cases hgives <;> simp at hcrosses
    | escaped _ => simp at hcrosses
    | star => simp at hcrosses
    | charClass negated items => simp at hcrosses
    | anyDirectories hmode => exact h.mode hmode
    | anyPath hmode => exact h.mode hmode
  · exact h.tokens t hold hcrosses

theorem marksStars_initial : ({} : ScanState).MarksStars := by
  refine ⟨by simp, fun t h => ?_⟩
  exact absurd h not_occurs_initial

end DoubleStar

/-! ## Separators -/

section Separators

variable {s s' : ScanState} {c : Char}

/-- A separator is never a plain character where escaped characters are such as can be escaped. -/
theorem not_occurs_separator_of_step (h : ¬ s.Occurs (.literal '/')) (hc : s.pending = true → isEscapable c = true)
    (hstep : s.step c = .ok s') : ¬ s'.Occurs (.literal '/') := by
  intro hoccurs
  rcases occurs_of_step hstep hoccurs with hgives | hold
  · cases hgives with
    | text hgives =>
      cases hgives with
      | literal hslash => exact hslash rfl
    | escaped hmode => exact absurd (hc (by rw [pending, hmode])) (by decide)
  · exact h hold

end Separators

/-! ## The end of a scan -/

theorem occurs_of_finalTokens {s : ScanState} {t : Token} (h : Glob.Occurs t s.finalTokens) :
    (t = .literal '\\' ∨ t = .star ∨ t = .anyPath ∧ s.mode = .stars true) ∨ s.Occurs t := by
  unfold finalTokens at h
  split at h
  · exact .inr (.innermost h)
  · exact .inr (.innermost h)
  · rw [occurs_cons_of_ne (by simp)] at h
    exact h.imp .inl .innermost
  · next many hmode =>
    rw [occurs_cons_of_ne (by split_ifs <;> simp)] at h
    refine h.imp (fun h => .inr ?_) .innermost
    split_ifs at h with hmany
    · exact .inr ⟨h, by simp_all⟩
    · exact .inl h

end ScanState

/-- The tokens of a scan are the final ones of the state that it ends in. -/
theorem exists_run_of_scan {text : List Char} {scanned : Scanned} (hscan : scan text = .ok scanned) :
    ∃ s, ScanState.run {} text = .ok s ∧ scanned = ⟨s.finalTokens.reverse, s.doubleStar⟩ := by
  obtain ⟨s, hrun, hfinish⟩ := scan_eq_ok_iff.mp hscan
  exact ⟨s, hrun, (ScanState.finish_eq_ok_iff.mp hfinish).2.symm⟩

/-- **What crosses directories comes from two stars in a row.** -/
theorem doubleStar_of_occurs {text : List Char} {scanned : Scanned} {t : Token} (hscan : scan text = .ok scanned)
    (ht : t = .anyDirectories ∨ t = .anyPath) (h : Occurs t scanned.tokens) : scanned.doubleStar = true := by
  obtain ⟨s, hrun, rfl⟩ := exists_run_of_scan hscan
  have hmarks : s.MarksStars := ScanState.run_invariant ScanState.MarksStars.step ScanState.marksStars_initial hrun
  rcases ScanState.occurs_of_finalTokens (occurs_reverse.mp h) with (rfl | rfl | ⟨-, hmode⟩) | h
  · simp at ht
  · simp at ht
  · exact hmarks.mode hmode
  · exact hmarks.tokens t h ht

/-- **A separator is never a plain character of a body.** -/
theorem not_occurs_separator {pattern : List Char} {scanned : Scanned}
    (hscan : scan (Body.ofPattern pattern).text = .ok scanned) : ¬ Occurs (.literal '/') scanned.tokens := by
  obtain ⟨s, hrun, rfl⟩ := exists_run_of_scan hscan
  have hnormal := normalize_bodyText pattern
  obtain ⟨hs, -⟩ := ScanState.run_normal (P := fun s => ¬ s.Occurs (.literal '/')) (s := {})
    ScanState.not_occurs_separator_of_step ScanState.not_occurs_initial hnormal hrun
  intro h
  rcases ScanState.occurs_of_finalTokens (occurs_reverse.mp h) with (h | h | ⟨h, -⟩) | h
  · cases h
  · cases h
  · cases h
  · exact hs h

end PathOwners.Glob
