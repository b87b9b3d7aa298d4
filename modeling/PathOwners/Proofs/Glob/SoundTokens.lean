import PathOwners.Proofs.Glob.Steps

/-!
# Sound tokens

A scan gives only classes that have members, ranges that begin before they end, and groups that have alternatives
(`sound_of_scan`). Each step of a scan keeps what is read so far sound (`ScanState.Sound.step`).
-/

namespace PathOwners.Glob

/-! ## Sound tokens -/

/-- Whether a member of a class is a single character or a range that begins before it ends. -/
def ClassItem.Sound : ClassItem → Prop
  | .single _ => True
  | .range first last => ¬ last < first

mutual

/-- Whether the classes of a token have members, all of them sound, and its groups have alternatives. -/
def Token.Sound : Token → Prop
  | .charClass _ items => items ≠ [] ∧ ∀ item ∈ items, item.Sound
  | .alternation alternatives => alternatives ≠ [] ∧ ChoiceSound alternatives
  | _ => True

/-- Whether all tokens of a sequence are sound. -/
def SequenceSound : List Token → Prop
  | [] => True
  | t :: ts => t.Sound ∧ SequenceSound ts

/-- Whether all tokens of several alternatives are sound. -/
def ChoiceSound : List (List Token) → Prop
  | [] => True
  | ts :: rest => SequenceSound ts ∧ ChoiceSound rest

end

theorem sequenceSound_iff {ts : List Token} : SequenceSound ts ↔ ∀ t ∈ ts, t.Sound := by
  induction ts with
  | nil => simp [SequenceSound]
  | cons t ts ih => simp [SequenceSound, ih]

theorem choiceSound_iff {alternatives : List (List Token)} :
    ChoiceSound alternatives ↔ ∀ ts ∈ alternatives, ∀ t ∈ ts, t.Sound := by
  induction alternatives with
  | nil => simp [ChoiceSound]
  | cons ts rest ih => simp [ChoiceSound, ih, sequenceSound_iff]

/-! ## Sound classes -/

/-- Whether the items of a class so far are sound. -/
def OpenClass.Sound (k : OpenClass) : Prop := ∀ item ∈ k.items, item.Sound

/-- Whether a move of a class keeps it sound. -/
def ClassMove.Sound : ClassMove → Prop
  | .stay k => k.Sound
  | .close _ items => items ≠ [] ∧ ∀ item ∈ items, item.Sound

namespace OpenClass

variable {k : OpenClass} {c : Char} {move : ClassMove}

theorem Sound.memberMove (h : k.Sound) (c : Char) : (k.memberMove c).Sound := by
  unfold OpenClass.memberMove
  split_ifs with hclose
  · exact ⟨by simpa using hclose.2, fun item hitem => h item (List.mem_reverse.mp hitem)⟩
  · exact h
  · exact h

theorem Sound.rangeMove (h : k.Sound) {first last : Char} (hmove : k.rangeMove first last = some move) :
    move.Sound := by
  unfold OpenClass.rangeMove at hmove
  split_ifs at hmove with hlast
  obtain rfl := Option.some.inj hmove
  exact List.forall_mem_cons.mpr ⟨hlast, h⟩

/-- The moves of a sound class keep it sound. -/
theorem Sound.next (h : k.Sound) (hmove : k.next c = some move) : move.Sound := by
  obtain ⟨start, negated, items, phase⟩ := k
  cases phase <;> simp only [OpenClass.next] at hmove
  case opening =>
    obtain rfl := Option.some.inj hmove
    split_ifs
    · exact h
    · exact Sound.memberMove h c
  case member =>
    obtain rfl := Option.some.inj hmove
    exact Sound.memberMove h c
  case escaped =>
    obtain rfl := Option.some.inj hmove
    exact h
  case after m =>
    obtain rfl := Option.some.inj hmove
    split_ifs
    · exact h
    · exact Sound.memberMove (k := ⟨start, negated, .single m :: items, .after m⟩)
        (List.forall_mem_cons.mpr ⟨trivial, h⟩) c
  case dash m =>
    split_ifs at hmove
    · obtain rfl := Option.some.inj hmove
      exact Sound.memberMove (k := ⟨start, negated, .single '-' :: .single m :: items, .dash m⟩)
        (List.forall_mem_cons.mpr ⟨trivial, List.forall_mem_cons.mpr ⟨trivial, h⟩⟩) c
    · obtain rfl := Option.some.inj hmove
      exact h
    · exact Sound.rangeMove h hmove
  case escapedEnd m => exact Sound.rangeMove h hmove

end OpenClass

/-! ## Sound scans -/

/-- Whether all that a scan has read is sound. -/
structure ScanState.Sound (s : ScanState) : Prop where
  tokens : ∀ t ∈ s.tokens, t.Sound
  groups : ∀ g ∈ s.groups, (∀ t ∈ g.before, t.Sound) ∧ ∀ ts ∈ g.alternatives, ∀ t ∈ ts, t.Sound
  classes : ∀ k, s.mode = .inClass k → k.Sound

namespace ScanState

variable {s t : ScanState} {c : Char}

theorem Sound.push (h : s.Sound) {token : Token} (htoken : token.Sound) : (s.push token).Sound :=
  ⟨List.forall_mem_cons.mpr ⟨htoken, h.tokens⟩, h.groups, fun _ hk => by cases hk⟩

theorem Sound.mode (h : s.Sound) {mode : Mode} (hmode : ∀ k, mode = .inClass k → k.Sound) :
    ({ s with mode } : ScanState).Sound := ⟨h.tokens, h.groups, hmode⟩

theorem Sound.openGroup (h : s.Sound) : s.openGroup.Sound :=
  ⟨by simp [ScanState.openGroup], List.forall_mem_cons.mpr ⟨⟨h.tokens, by simp⟩, h.groups⟩, h.classes⟩

theorem Sound.comma (h : s.Sound) : s.comma.Sound := by
  unfold ScanState.comma
  split
  · exact h.push trivial
  · next g gs hgroups =>
    have hall := h.groups
    rw [hgroups] at hall
    obtain ⟨⟨hbefore, halternatives⟩, hrest⟩ := List.forall_mem_cons.mp hall
    refine ⟨by simp, List.forall_mem_cons.mpr ⟨⟨hbefore, List.forall_mem_cons.mpr ⟨?_, halternatives⟩⟩, hrest⟩,
      h.classes⟩
    exact fun t ht => h.tokens t (List.mem_reverse.mp ht)

theorem Sound.closeGroup (h : s.Sound) : s.closeGroup.Sound := by
  unfold ScanState.closeGroup
  split
  · exact h.push trivial
  · next g gs hgroups =>
    have hall := h.groups
    rw [hgroups] at hall
    obtain ⟨⟨hbefore, halternatives⟩, hrest⟩ := List.forall_mem_cons.mp hall
    refine ⟨List.forall_mem_cons.mpr ⟨⟨by simp, choiceSound_iff.mpr fun ts hts => ?_⟩, hbefore⟩, hrest, h.classes⟩
    rcases List.mem_cons.mp (List.mem_reverse.mp hts) with rfl | hts
    · exact fun t ht => h.tokens t (List.mem_reverse.mp ht)
    · exact halternatives ts hts

theorem Sound.textStep (h : s.Sound) (c : Char) : (s.textStep c).Sound := by
  unfold ScanState.textStep
  split
  · exact h.mode (by simp)
  · exact ⟨List.forall_mem_cons.mpr ⟨trivial, h.tokens⟩, h.groups, h.classes⟩
  · exact h.mode (by simp)
  · exact h.push trivial
  · exact h.mode fun k hk => by cases hk; exact fun item hitem => by cases hitem
  · exact h.openGroup
  · exact h.comma
  · exact h.closeGroup
  · exact h.push trivial

theorem Sound.starStep (h : s.Sound) (many : Bool) (c : Char) : (s.starStep many c).Sound := by
  have hpath : ({ s with mode := .text, tokens := .anyPath :: s.tokens } : ScanState).Sound :=
    ⟨List.forall_mem_cons.mpr ⟨trivial, h.tokens⟩, h.groups, by simp⟩
  have hstar : (s.push .star).Sound := h.push trivial
  unfold ScanState.starStep
  split_ifs
  · exact ⟨h.tokens, h.groups, by simp⟩
  · exact ⟨List.forall_mem_cons.mpr ⟨trivial, h.tokens⟩, h.groups, by simp⟩
  · exact hpath.textStep c
  · exact hstar.textStep c

theorem Sound.apply (h : s.Sound) {move : ClassMove} (hmove : move.Sound) : (move.apply s).Sound := by
  cases move with
  | stay k => exact h.mode fun k' hk' => by cases hk'; exact hmove
  | close negated items => exact h.push hmove

/-- **A step of a scan keeps it sound** -/
theorem Sound.step (h : s.Sound) (hstep : s.step c = .ok t) : t.Sound := by
  have hpast : ∀ {t : ScanState}, t.Sound → (s.past c t).Sound := fun h => ⟨h.tokens, h.groups, h.classes⟩
  cases hmode : s.mode with
  | text =>
    rw [step_of_text hmode] at hstep
    exact Except.ok.inj hstep ▸ hpast (h.textStep c)
  | escaped =>
    rw [step_of_escaped hmode] at hstep
    exact Except.ok.inj hstep ▸ hpast (h.push trivial)
  | stars many =>
    rw [step_of_stars hmode] at hstep
    exact Except.ok.inj hstep ▸ hpast (h.starStep many c)
  | inClass k =>
    obtain ⟨move, hnext, rfl⟩ := (step_of_inClass hmode).mp hstep
    exact hpast (h.apply ((h.classes k hmode).next hnext))

theorem Sound.finalTokens (h : s.Sound) : ∀ t ∈ s.finalTokens, t.Sound := by
  unfold ScanState.finalTokens
  split
  · exact h.tokens
  · exact h.tokens
  · exact List.forall_mem_cons.mpr ⟨trivial, h.tokens⟩
  · refine List.forall_mem_cons.mpr ⟨?_, h.tokens⟩
    split_ifs <;> trivial

theorem sound_initial : ({} : ScanState).Sound := ⟨by simp, by simp, by simp⟩

end ScanState

/-- **A scan gives sound tokens** -/
theorem sound_of_scan {text : List Char} {scanned : Scanned} (h : scan text = .ok scanned) :
    SequenceSound scanned.tokens := by
  obtain ⟨s, hrun, hfinish⟩ := scan_eq_ok_iff.mp h
  obtain ⟨-, rfl⟩ := ScanState.finish_eq_ok_iff.mp hfinish
  have hsound := ScanState.run_invariant ScanState.Sound.step ScanState.sound_initial hrun
  exact sequenceSound_iff.mpr fun t ht => hsound.finalTokens t (List.mem_reverse.mp ht)

end PathOwners.Glob
