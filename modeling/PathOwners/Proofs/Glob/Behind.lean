import PathOwners.Proofs.Glob.Body
import PathOwners.Proofs.Glob.NormalRun
import PathOwners.Proofs.Glob.Reading

/-!
# Scans behind a separator

What stands before the start of a segment outside all groups does not change how the text after it is scanned. A scan
`behind` another one has the tokens of that one below its own, and its offsets count from there. Every step of a scan
is the same behind another one (`ScanState.step_behind`), so the scan of a text behind a separator finds what the scan
of the text by itself finds, behind the tokens of the part before (`scan_append`). The part of a pattern before a
separator can be scanned if it can be scanned as a body by itself (`exists_run_frontText`).
-/

namespace PathOwners.Glob

/-! ## Scans behind others -/

/-- An error in a text that begins at an offset. -/
def Error.behind (offset : Nat) : Error → Error
  | .unclosedClass start => .unclosedClass (offset + start)
  | .unclosedBrace start => .unclosedBrace (offset + start)
  | e => e

/-- What a scan finds in a text that stands behind another scan. -/
def Scanned.behind (front : ScanState) (scanned : Scanned) : Scanned :=
  ⟨front.tokens.reverse ++ scanned.tokens, front.doubleStar || scanned.doubleStar⟩

namespace ScanState

/-- The tokens of an alternative: those of the scan in front are below them unless a group is open. -/
def tokensBehind (front : ScanState) (groups : List OpenGroup) (tokens : List Token) : List Token :=
  if groups = [] then tokens ++ front.tokens else tokens

/-- The open groups: the tokens of the scan in front are below those before the outermost one. -/
def groupsBehind (front : ScanState) : List OpenGroup → List OpenGroup
  | [] => []
  | g :: gs =>
    { g with start := front.offset + g.start, before := front.tokensBehind gs g.before } :: front.groupsBehind gs

/-- The mode: a class begins at an offset counted from the scan in front. -/
def modeBehind (front : ScanState) : Mode → Mode
  | .inClass k => .inClass (k.startAt (front.offset + k.start))
  | mode => mode

/-- A scan that goes on behind another one. -/
def behind (front s : ScanState) : ScanState where
  offset := front.offset + s.offset
  mode := front.modeBehind s.mode
  segmentStart := s.segmentStart
  tokens := front.tokensBehind s.groups s.tokens
  groups := front.groupsBehind s.groups
  doubleStar := front.doubleStar || s.doubleStar

variable {front s t : ScanState} {c : Char} {cs text : List Char}

theorem tokensBehind_cons (groups : List OpenGroup) (token : Token) (tokens : List Token) :
    front.tokensBehind groups (token :: tokens) = token :: front.tokensBehind groups tokens := by
  unfold tokensBehind
  split_ifs <;> rfl

theorem tokensBehind_nil (tokens : List Token) : front.tokensBehind [] tokens = tokens ++ front.tokens := if_pos rfl

theorem tokensBehind_of_cons (g : OpenGroup) (gs : List OpenGroup) (tokens : List Token) :
    front.tokensBehind (g :: gs) tokens = tokens := if_neg (List.cons_ne_nil g gs)

/-! ## Steps -/

theorem push_behind (token : Token) : (front.behind s).push token = front.behind (s.push token) := by
  simp only [push, behind, tokensBehind_cons, modeBehind]

theorem openGroup_behind : (front.behind s).openGroup = front.behind s.openGroup := by
  simp only [openGroup, behind, groupsBehind, tokensBehind_of_cons]

theorem comma_behind : (front.behind s).comma = front.behind s.comma := by
  cases hgroups : s.groups with
  | nil => simp only [comma, behind, hgroups, groupsBehind, push, tokensBehind_cons, modeBehind]
  | cons g gs => simp only [comma, behind, hgroups, groupsBehind, tokensBehind_of_cons]

theorem closeGroup_behind : (front.behind s).closeGroup = front.behind s.closeGroup := by
  cases hgroups : s.groups with
  | nil => simp only [closeGroup, behind, hgroups, groupsBehind, push, tokensBehind_cons, modeBehind]
  | cons g gs => simp only [closeGroup, behind, hgroups, groupsBehind, tokensBehind_of_cons, tokensBehind_cons]

theorem textStep_behind (c : Char) : (front.behind s).textStep c = front.behind (s.textStep c) := by
  unfold textStep
  split
  · rfl
  · simp only [behind, tokensBehind_cons]
  · rfl
  · exact push_behind _
  · rfl
  · exact openGroup_behind
  · exact comma_behind
  · exact closeGroup_behind
  · exact push_behind _

theorem endsAlternative_behind (c : Char) : (front.behind s).endsAlternative c = s.endsAlternative c := by
  cases hgroups : s.groups <;> simp [endsAlternative, behind, hgroups, groupsBehind]

theorem starStep_behind (many : Bool) (c : Char) :
    (front.behind s).starStep many c = front.behind (s.starStep many c) := by
  have htokens : ∀ token : Token, ({ front.behind s with mode := .text, tokens := token :: (front.behind s).tokens } :
      ScanState) = front.behind { s with mode := .text, tokens := token :: s.tokens } := by
    intro token
    simp only [behind, tokensBehind_cons, modeBehind]
  have hstart : (front.behind s).segmentStart = s.segmentStart := rfl
  unfold starStep
  rw [hstart, endsAlternative_behind]
  split_ifs
  · simp only [behind, modeBehind, Bool.or_true]
  · exact htokens _
  · exact (congrArg (textStep c) (htokens _)).trans (textStep_behind c)
  · rw [push_behind, textStep_behind]

/-- A class is read the same way wherever it begins. -/
theorem classStep_behind (k : OpenClass) (c : Char) :
    (front.behind s).classStep (k.startAt (front.offset + k.start)) c = (s.classStep k c).map front.behind := by
  have hmember : ∀ k : OpenClass, (front.behind s).memberStep (k.startAt (front.offset + k.start)) c =
      front.behind (s.memberStep k c) := by
    intro k
    have hitems : (k.startAt (front.offset + k.start)).items = k.items := rfl
    unfold memberStep
    rw [hitems]
    split_ifs
    · exact push_behind _
    · rfl
    · rfl
  have hrange : ∀ (k : OpenClass) (first : Char), (front.behind s).rangeStep (k.startAt (front.offset + k.start))
      first c = (s.rangeStep k first c).map front.behind := by
    intro k first
    unfold rangeStep
    split_ifs <;> rfl
  obtain ⟨start, negated, items, phase⟩ := k
  cases phase <;> simp only [classStep, OpenClass.startAt]
  case opening =>
    split_ifs
    · rfl
    · exact congrArg Except.ok (hmember ⟨start, negated, items, .opening⟩)
  case member => exact congrArg Except.ok (hmember ⟨start, negated, items, .member⟩)
  case escaped => rfl
  case after m =>
    split_ifs
    · rfl
    · exact congrArg Except.ok (hmember ⟨start, negated, .single m :: items, .after m⟩)
  case dash m =>
    split_ifs
    · exact congrArg Except.ok (hmember ⟨start, negated, .single '-' :: .single m :: items, .dash m⟩)
    · rfl
    · exact hrange ⟨start, negated, items, .dash m⟩ m
  case escapedEnd m => exact hrange ⟨start, negated, items, .escapedEnd m⟩ m

/-- **A step of a scan is the same behind another one.** -/
theorem step_behind (c : Char) : (front.behind s).step c = (s.step c).map front.behind := by
  have hpast : ∀ t : ScanState, (front.behind s).past c (front.behind t) = front.behind (s.past c t) := by
    intro t
    simp only [past, behind, Nat.add_assoc]
  have hmode : (front.behind s).mode = front.modeBehind s.mode := rfl
  cases hs : s.mode with
  | text =>
    rw [step_of_text (by rw [hmode, hs]; rfl), step_of_text hs, textStep_behind, hpast]
    rfl
  | escaped =>
    rw [step_of_escaped (by rw [hmode, hs]; rfl), step_of_escaped hs, push_behind, hpast]
    rfl
  | stars many =>
    rw [step_of_stars (by rw [hmode, hs]; rfl), step_of_stars hs, starStep_behind, hpast]
    rfl
  | inClass k =>
    have hbehind : (front.behind s).mode = .inClass (k.startAt (front.offset + k.start)) := by rw [hmode, hs]; rfl
    rw [step, advance, hbehind, step, advance, hs]
    simp only [classStep_behind]
    cases s.classStep k c with
    | error e => rfl
    | ok t => exact congrArg Except.ok (hpast t)

theorem run_behind : ∀ (cs : List Char) (s : ScanState), (front.behind s).run cs = (s.run cs).map front.behind
  | [], s => rfl
  | c :: cs, s => by
    rw [run, run, List.foldlM_cons, List.foldlM_cons, step_behind]
    cases hstep : s.step c with
    | error e => rfl
    | ok t => exact run_behind cs t

theorem finalTokens_behind (hgroups : s.groups = []) :
    (front.behind s).finalTokens = s.finalTokens ++ front.tokens := by
  have htokens : (front.behind s).tokens = s.tokens ++ front.tokens := by
    rw [behind, hgroups]
    exact tokensBehind_nil s.tokens
  have hmode : (front.behind s).mode = front.modeBehind s.mode := rfl
  have hstart : (front.behind s).segmentStart = s.segmentStart := rfl
  unfold finalTokens
  rw [hmode, htokens, hstart]
  cases s.mode <;> rfl

theorem finish_behind : (front.behind s).finish =
    (s.finish.mapError (Error.behind front.offset)).map (Scanned.behind front) := by
  have hmode : (front.behind s).mode = front.modeBehind s.mode := rfl
  have hgroups : (front.behind s).groups = front.groupsBehind s.groups := rfl
  unfold finish
  rw [hmode, hgroups]
  cases hs : s.mode with
  | inClass k => rfl
  | text | escaped | stars many =>
    cases hg : s.groups with
    | cons g gs => rfl
    | nil =>
      simp only [modeBehind, groupsBehind, Except.mapError_ok, Except.map, finalTokens_behind hg, List.reverse_append]
      rfl

/-- Before its end, a scan fails only at a range. -/
theorem exists_of_step_error {e : Error} (h : s.step c = .error e) : ∃ first last, e = .invalidRange first last := by
  have hrange : ∀ {k : OpenClass} {first last : Char}, s.rangeStep k first last = .error e →
      ∃ first last, e = .invalidRange first last := by
    intro k first last h
    unfold rangeStep at h
    split_ifs at h
    exact ⟨first, last, (Except.error.inj h).symm⟩
  cases hs : s.mode with
  | text => rw [step_of_text hs] at h; cases h
  | escaped => rw [step_of_escaped hs] at h; cases h
  | stars many => rw [step_of_stars hs] at h; cases h
  | inClass k =>
    rw [step, advance, hs] at h
    have hclass : s.classStep k c = .error e := by
      cases hclass : s.classStep k c with
      | error e' => simpa [hclass, Except.map] using h
      | ok t => simp [hclass, Except.map] at h
    unfold classStep at hclass
    cases hphase : k.phase with
    | opening | member | escaped | after m => rw [hphase] at hclass; cases hclass
    | dash m =>
      rw [hphase] at hclass
      dsimp only at hclass
      split_ifs at hclass
      exact hrange hclass
    | escapedEnd m =>
      rw [hphase] at hclass
      exact hrange hclass

theorem exists_of_run_error {e : Error} : ∀ {cs : List Char} {s : ScanState}, s.run cs = .error e →
    ∃ first last, e = .invalidRange first last
  | [], s, h => by cases h
  | c :: cs, s, h => by
    rw [run, List.foldlM_cons] at h
    cases hstep : s.step c with
    | error e' =>
      rw [hstep] at h
      obtain rfl : e' = e := Except.error.inj h
      exact exists_of_step_error hstep
    | ok t =>
      rw [hstep] at h
      exact exists_of_run_error (s := t) h

/-! ## The start of a segment -/

/-- A scan at the start of a segment, outside all groups. -/
structure AtSegment (s : ScanState) : Prop where
  stands : s.Stands Stance.initial
  groups : s.groups = []

theorem atSegment_initial : ({} : ScanState).AtSegment := ⟨⟨rfl, rfl⟩, rfl⟩

/-- A scan at the start of a segment is a new scan behind it. -/
theorem AtSegment.behind (h : front.AtSegment) : front.behind {} = front := by
  obtain ⟨offset, mode, segmentStart, tokens, groups, doubleStar⟩ := front
  obtain ⟨⟨hmode, hstart⟩, hgroups⟩ := h
  obtain rfl : mode = .text := hmode
  obtain rfl : segmentStart = true := hstart
  obtain rfl : groups = [] := hgroups
  simp [ScanState.behind, modeBehind, groupsBehind, tokensBehind]

/-- A scan between two parts of a text has a stance. -/
theorem Between.exists_stands (hs : s.Between) : ∃ st : Stance, s.Stands st := by
  rcases hs with hs | ⟨many, hs⟩
  · exact ⟨⟨none, s.segmentStart⟩, hs, rfl⟩
  · exact ⟨⟨some many, s.segmentStart⟩, hs, rfl⟩

/-- A separator outside all groups begins a segment. -/
theorem exists_step_atSegment (hs : s.Between) (hgroups : s.groups = []) :
    ∃ t, s.step '/' = .ok t ∧ t.AtSegment := by
  obtain ⟨st, hst⟩ := hs.exists_stands
  obtain ⟨t, hrun, hread⟩ := run_separator hst
  exact ⟨t, (run_singleton s '/').symm.trans hrun, hread.stands, hread.groups.trans hgroups⟩

/-- Lexemes without groups that end a segment. -/
theorem AtSegment.run_lexemes (h : s.AtSegment) {ls : List Lexeme} (hgenuine : ∀ l ∈ ls, l.Genuine)
    (hopening : .plain '\x7b' ∉ ls) (hafter : Stance.initial.after (ls.map .lexeme) = Stance.initial) :
    ∃ t, s.run (ls.flatMap Lexeme.text) = .ok t ∧ t.AtSegment ∧
      t.tokens.reverse = s.tokens.reverse ++ Stance.initial.read (ls.map .lexeme) := by
  obtain ⟨t, hrun, hread⟩ := ScanState.run_lexemes h.stands h.groups hgenuine hopening
  refine ⟨t, hrun, ⟨hafter ▸ hread.stands, hread.groups.trans h.groups⟩, ?_⟩
  rw [hread.tokens, List.reverse_append, List.reverse_reverse]

end ScanState

/-! ## Texts behind a segment -/

/-- **A text is scanned behind a segment as it is by itself.** -/
theorem scan_append {front : ScanState} {text : List Char} (hrun : ScanState.run {} text = .ok front)
    (hfront : front.AtSegment) (rest : List Char) :
    scan (text ++ rest) = ((scan rest).mapError (Error.behind front.offset)).map (Scanned.behind front) := by
  have happend : ScanState.run {} (text ++ rest) = (ScanState.run {} rest).map front.behind := by
    -- At the start of a segment the front is itself a new scan behind it, so the rest runs as from the start.
    rw [ScanState.run, List.foldlM_append, ← ScanState.run_behind, hfront.behind]
    exact congrArg (· >>= (ScanState.run · rest)) hrun
  rw [scan, scan, happend]
  cases hrest : ScanState.run {} rest with
  | error e =>
    obtain ⟨first, last, rfl⟩ := ScanState.exists_of_run_error hrest
    rfl
  | ok t => exact ScanState.finish_behind

/-- A body that scans ends between two parts of its text, outside all groups. -/
theorem exists_run_body {pattern : List Char} {scanned : Scanned}
    (hscan : scan (Body.ofPattern pattern).text = .ok scanned) :
    ∃ s, ScanState.run {} (Body.ofPattern pattern).text = .ok s ∧ s.Between ∧ s.groups = [] := by
  obtain ⟨s, hrun, hfinish⟩ := scan_eq_ok_iff.mp hscan
  obtain ⟨⟨hgroups, hmode⟩, -⟩ := ScanState.finish_eq_ok_iff.mp hfinish
  have hpending := ScanState.pending_of_run (normalize_bodyText pattern) hrun
  exact ⟨s, hrun, ScanState.between_of_not_pending hmode hpending, hgroups⟩

/-- **The part of a pattern before a separator ends at the start of a segment** -/
theorem exists_run_frontText {front : List Char} {scanned : Scanned}
    (hscan : scan (Body.ofPattern front).text = .ok scanned) :
    ∃ s, ScanState.run {} (frontText front) = .ok s ∧ s.AtSegment := by
  obtain ⟨s, hrun, hbetween, hgroups⟩ := exists_run_body hscan
  obtain ⟨t, hstep, ht⟩ := ScanState.exists_step_atSegment hbetween hgroups
  obtain ⟨u, hstep', hu⟩ := ScanState.exists_step_atSegment (.inl ht.stands.mode) ht.groups
  rcases frontText_eq front with h | h | h
  · rw [h]
    exact ⟨{}, rfl, ScanState.atSegment_initial⟩
  · rw [h]
    exact ⟨t, ScanState.run_append_eq_ok_iff.mpr ⟨s, hrun, (ScanState.run_singleton s '/').trans hstep⟩, ht⟩
  · rw [h]
    have hrest : ScanState.run s ['/', '/'] = .ok u :=
      ScanState.run_cons_eq_ok_iff.mpr ⟨t, hstep, (ScanState.run_singleton t '/').trans hstep'⟩
    exact ⟨u, ScanState.run_append_eq_ok_iff.mpr ⟨s, hrun, hrest⟩, hu⟩

end PathOwners.Glob
