import Mathlib.Data.List.Chain
import Mathlib.Data.List.ReduceOption
import PathOwners.Glob.Basic
import PathOwners.Proofs.Glob.Expansion
import PathOwners.Proofs.Glob.Occurrences
import PathOwners.Proofs.Glob.SoundTokens

/-!
# Stars that cross directories

Two stars cross directories only as a whole segment. A scan places such a token where a segment starts, and places any
path at the end of an alternative or of the text (`placed_of_scan`); every step of a scan keeps this of what is read so
far (`ScanState.Placed.step`). So it holds in every sequence without groups that the tokens of a text make if one
alternative is chosen for each group (`Chooses`): what crosses directories comes first or directly follows a separator.

Any path need not come last in such a sequence. Stars that end an alternative are read as if nothing stood behind their
group, so they cross directories within a segment that goes on there (`crossing_within_segment`). Any path comes last in
whatever is chosen exactly if nothing stands behind the groups it is in (`crossing_of_scan`).
-/

namespace PathOwners.Glob

/-! ## Tokens in their places -/

/-- Whether a token stands for stars that are a whole segment. -/
def Token.Crosses (t : Token) : Prop := t = .anyDirectories ∨ t = .anyPath

mutual

/-- Whether a token may stand where a segment starts, or where none does: only at a start may it cross directories. Each
alternative of a group stands where the group does. -/
def Token.PlacedAt : Bool → Token → Prop
  | start, .anyDirectories => start = true
  | start, .anyPath => start = true
  | start, .alternation alternatives => ChoicePlaced start alternatives
  | _, _ => True

/-- Whether every token of a sequence may stand in its place, and none but the last one is any path. -/
def SequencePlaced : Bool → List Token → Prop
  | _, [] => True
  | start, t :: ts => t.PlacedAt start ∧ (t = .anyPath → ts = []) ∧ SequencePlaced t.isSeparator ts

/-- Whether the tokens of several alternatives may stand in their places. -/
def ChoicePlaced : Bool → List (List Token) → Prop
  | _, [] => True
  | start, ts :: rest => SequencePlaced start ts ∧ ChoicePlaced start rest

end

/-- Whether a segment starts behind some tokens, the latest one first. -/
def startsBehind (start : Bool) : List Token → Bool
  | [] => start
  | t :: _ => t.isSeparator

section Placed

variable {start : Bool} {t : Token} {ts : List Token} {alternatives : List (List Token)}

theorem isSeparator_iff : t.isSeparator = true ↔ t = .separator ∨ t = .anyDirectories := by
  cases t <;> simp [Token.isSeparator]

theorem Token.Crosses.start_of_placedAt (h : t.Crosses) (hplaced : t.PlacedAt start) : start = true := by
  rcases h with rfl | rfl <;> simpa [PlacedAt] using hplaced

theorem choicePlaced_iff : ChoicePlaced start alternatives ↔ ∀ ts ∈ alternatives, SequencePlaced start ts := by
  induction alternatives with
  | nil => simp [ChoicePlaced]
  | cons ts rest ih => simp [ChoicePlaced, ih]

/-- A sequence may go on behind any token but any path. -/
theorem sequencePlaced_concat : SequencePlaced start (ts ++ [t]) ↔
    SequencePlaced start ts ∧ .anyPath ∉ ts ∧ t.PlacedAt (startsBehind start ts.reverse) := by
  induction ts generalizing start with
  | nil => simp [SequencePlaced, startsBehind]
  | cons u ts ih =>
    have hbehind : startsBehind start (u :: ts).reverse = startsBehind u.isSeparator ts.reverse := by
      rw [List.reverse_cons]
      cases ts.reverse <;> rfl
    rw [List.cons_append, SequencePlaced, SequencePlaced, ih, hbehind, List.mem_cons, not_or]
    constructor
    · rintro ⟨hu, hends, hts, hpath, ht⟩
      have hne : u ≠ .anyPath := fun heq => absurd (hends heq) (by simp)
      exact ⟨⟨hu, fun heq => absurd heq hne, hts⟩, ⟨hne.symm, hpath⟩, ht⟩
    · rintro ⟨⟨hu, -, hts⟩, ⟨hne, hpath⟩, ht⟩
      exact ⟨hu, fun heq => absurd heq.symm hne, hts, hpath, ht⟩

/-- The tokens of a sequence that goes on, the latest one first. -/
structure Unfinished (start : Bool) (tokens : List Token) : Prop where
  placed : SequencePlaced start tokens.reverse
  goesOn : .anyPath ∉ tokens

theorem unfinished_nil (start : Bool) : Unfinished start [] := ⟨trivial, List.not_mem_nil⟩

/-- One more token ends a sequence. -/
theorem Unfinished.end (h : Unfinished start ts) (ht : t.PlacedAt (startsBehind start ts)) :
    SequencePlaced start (t :: ts).reverse := by
  rw [List.reverse_cons, sequencePlaced_concat, List.reverse_reverse, List.mem_reverse]
  exact ⟨h.placed, h.goesOn, ht⟩

theorem Unfinished.cons (h : Unfinished start ts) (ht : t.PlacedAt (startsBehind start ts)) (hne : t ≠ .anyPath) :
    Unfinished start (t :: ts) :=
  ⟨h.end ht, List.not_mem_cons_of_ne_of_not_mem hne.symm h.goesOn⟩

end Placed

/-! ## Scans -/

/-- Whether the tokens of open groups may stand in their places. -/
def GroupsPlaced : List OpenGroup → Prop
  | [] => True
  | g :: gs =>
    Unfinished (alternativeStart gs) g.before ∧ g.segmentStart = startsBehind (alternativeStart gs) g.before ∧
      (∀ ts ∈ g.alternatives, SequencePlaced g.segmentStart ts) ∧ GroupsPlaced gs

/-- A scan has placed all that it has read, and knows whether a segment starts behind it. -/
structure ScanState.Placed (s : ScanState) : Prop where
  tokens : Unfinished (alternativeStart s.groups) s.tokens
  start : s.segmentStart = startsBehind (alternativeStart s.groups) s.tokens
  groups : GroupsPlaced s.groups

namespace ScanState

variable {s t : ScanState} {c : Char} {token : Token}

theorem placed_initial : ({} : ScanState).Placed := ⟨unfinished_nil true, rfl, trivial⟩

theorem Placed.same (h : s.Placed) (htokens : t.tokens = s.tokens) (hgroups : t.groups = s.groups)
    (hstart : t.segmentStart = s.segmentStart) : t.Placed := by
  refine ⟨?_, ?_, hgroups ▸ h.groups⟩
  · rw [htokens, hgroups]
    exact h.tokens
  · rw [htokens, hgroups, hstart]
    exact h.start

theorem Placed.cons (h : s.Placed) (htoken : token.PlacedAt s.segmentStart) (hne : token ≠ .anyPath)
    (htokens : t.tokens = token :: s.tokens) (hgroups : t.groups = s.groups)
    (hstart : t.segmentStart = token.isSeparator) : t.Placed := by
  refine ⟨?_, ?_, hgroups ▸ h.groups⟩
  · rw [htokens, hgroups]
    exact h.tokens.cons (h.start ▸ htoken) hne
  · rw [htokens, hgroups, hstart]
    rfl

theorem Placed.push (h : s.Placed) (htoken : token.PlacedAt s.segmentStart) (hne : token ≠ .anyPath)
    (hseparator : token.isSeparator = false) : (s.push token).Placed := h.cons htoken hne rfl rfl hseparator.symm

theorem Placed.openGroup (h : s.Placed) : s.openGroup.Placed :=
  ⟨unfinished_nil _, rfl, h.tokens, h.start, by simp, h.groups⟩

section Groups

variable {g : OpenGroup} {gs : List OpenGroup}

/-- The alternatives of a group with the one that ends here. -/
theorem alternatives_placed (hgroups : GroupsPlaced (g :: gs))
    (htokens : SequencePlaced g.segmentStart s.tokens.reverse) :
    ∀ ts ∈ s.tokens.reverse :: g.alternatives, SequencePlaced g.segmentStart ts :=
  List.forall_mem_cons.mpr ⟨htokens, hgroups.2.2.1⟩

/-- An alternative may end in any path. -/
theorem placed_comma (hs : s.groups = g :: gs) (hgroups : GroupsPlaced s.groups)
    (htokens : SequencePlaced g.segmentStart s.tokens.reverse) : s.comma.Placed := by
  rw [hs] at hgroups
  unfold comma
  rw [hs]
  exact ⟨unfinished_nil _, rfl, hgroups.1, hgroups.2.1, alternatives_placed hgroups htokens, hgroups.2.2.2⟩

theorem placed_closeGroup (hs : s.groups = g :: gs) (hgroups : GroupsPlaced s.groups)
    (htokens : SequencePlaced g.segmentStart s.tokens.reverse) : s.closeGroup.Placed := by
  rw [hs] at hgroups
  have hchoice : ChoicePlaced g.segmentStart (s.tokens.reverse :: g.alternatives).reverse := by
    refine choicePlaced_iff.mpr fun ts hts => ?_
    exact alternatives_placed hgroups htokens ts (List.mem_reverse.mp hts)
  unfold closeGroup
  rw [hs]
  rw [hgroups.2.1] at hchoice
  exact ⟨hgroups.1.cons (by simpa only [Token.PlacedAt] using hchoice) (by simp), rfl, hgroups.2.2.2⟩

end Groups

theorem Placed.comma (h : s.Placed) : s.comma.Placed := by
  cases hgroups : s.groups with
  | nil =>
    rw [ScanState.comma, hgroups]
    exact h.push trivial (by simp) rfl
  | cons g gs =>
    have htokens := h.tokens.placed
    rw [hgroups] at htokens
    exact placed_comma hgroups h.groups htokens

theorem Placed.closeGroup (h : s.Placed) : s.closeGroup.Placed := by
  cases hgroups : s.groups with
  | nil =>
    rw [ScanState.closeGroup, hgroups]
    exact h.push trivial (by simp) rfl
  | cons g gs =>
    have htokens := h.tokens.placed
    rw [hgroups] at htokens
    exact placed_closeGroup hgroups h.groups htokens

theorem Placed.textStep (h : s.Placed) (c : Char) : (s.textStep c).Placed := by
  have hseparator : Token.separator.PlacedAt s.segmentStart := trivial
  unfold ScanState.textStep
  split
  · exact h.same rfl rfl rfl
  · exact h.cons hseparator (by simp) rfl rfl rfl
  · exact h.same rfl rfl rfl
  · exact h.push trivial (by simp) rfl
  · exact h.same rfl rfl rfl
  · exact h.openGroup
  · exact h.comma
  · exact h.closeGroup
  · exact h.push trivial (by simp) rfl

/-- Stars at the start of a segment that end an alternative are any path, and the alternative ends with them. -/
theorem Placed.endAlternative (h : s.Placed) (hstart : s.segmentStart = true) (hends : s.endsAlternative c = true) :
    (({ s with mode := .text, tokens := .anyPath :: s.tokens } : ScanState).textStep c).Placed := by
  simp only [endsAlternative, Bool.and_eq_true, Bool.or_eq_true, beq_iff_eq] at hends
  obtain ⟨hc, hgroups⟩ := hends
  obtain ⟨g, gs, hgroups⟩ := List.exists_cons_of_ne_nil (l := s.groups) (by simpa using hgroups)
  have hplaced : Token.anyPath.PlacedAt (startsBehind (alternativeStart s.groups) s.tokens) := by
    rw [← h.start, hstart]
    rfl
  have htokens := h.tokens.end hplaced
  rw [hgroups] at htokens
  rcases hc with rfl | rfl
  · exact placed_comma (s := { s with mode := .text, tokens := .anyPath :: s.tokens }) hgroups h.groups htokens
  · exact placed_closeGroup (s := { s with mode := .text, tokens := .anyPath :: s.tokens }) hgroups h.groups htokens

theorem Placed.starStep (h : s.Placed) (many : Bool) (c : Char) : (s.starStep many c).Placed := by
  have hstar : (s.push .star).Placed := h.push trivial (by simp) rfl
  unfold ScanState.starStep
  split_ifs with _ hseparator hends
  · exact h.same rfl rfl rfl
  · have hstart : s.segmentStart = true := by simp_all
    have hplaced : Token.anyDirectories.PlacedAt s.segmentStart := hstart
    exact h.cons hplaced (by simp) rfl rfl hstart
  · have hends' : s.segmentStart = true ∧ s.endsAlternative c = true := by simp_all
    exact h.endAlternative hends'.1 hends'.2
  · exact hstar.textStep c

theorem Placed.apply (h : s.Placed) (move : ClassMove) : (move.apply s).Placed := by
  cases move with
  | stay k => exact h.same rfl rfl rfl
  | close negated items => exact h.push trivial (by simp) rfl

/-- **A step of a scan keeps all tokens in their places.** -/
theorem Placed.step (h : s.Placed) (hstep : s.step c = .ok t) : t.Placed := by
  have hpast : ∀ {t : ScanState}, t.Placed → (s.past c t).Placed := fun h => h.same rfl rfl rfl
  cases hmode : s.mode with
  | text =>
    rw [step_of_text hmode] at hstep
    exact Except.ok.inj hstep ▸ hpast (h.textStep c)
  | escaped =>
    rw [step_of_escaped hmode] at hstep
    exact Except.ok.inj hstep ▸ hpast (h.push trivial (by simp) rfl)
  | stars many =>
    rw [step_of_stars hmode] at hstep
    exact Except.ok.inj hstep ▸ hpast (h.starStep many c)
  | inClass k =>
    obtain ⟨move, -, rfl⟩ := (step_of_inClass hmode).mp hstep
    exact hpast (h.apply move)

theorem placed_of_run {text : List Char} (hrun : run {} text = .ok s) : s.Placed :=
  run_invariant Placed.step placed_initial hrun

/-- A text may end in any path. -/
theorem Placed.finalTokens (h : s.Placed) (hgroups : s.groups = []) : SequencePlaced true s.finalTokens.reverse := by
  have htokens := h.tokens
  have hstart := h.start
  rw [hgroups] at htokens hstart
  unfold ScanState.finalTokens
  split
  · exact htokens.placed
  · exact htokens.placed
  · exact htokens.end trivial
  · refine htokens.end ?_
    split_ifs with hmany
    · have hsegment : s.segmentStart = true := (Bool.and_eq_true_iff.mp hmany).2
      exact hstart ▸ hsegment
    · trivial

end ScanState

/-- **The tokens of a scan are in their places.** -/
theorem placed_of_scan {text : List Char} {scanned : Scanned} (hscan : scan text = .ok scanned) :
    SequencePlaced true scanned.tokens := by
  obtain ⟨s, hrun, hfinish⟩ := scan_eq_ok_iff.mp hscan
  obtain ⟨⟨hgroups, -⟩, rfl⟩ := ScanState.finish_eq_ok_iff.mp hfinish
  exact (ScanState.placed_of_run hrun).finalTokens hgroups

/-! ## Chosen alternatives -/

/-- A sequence with one alternative chosen for each of its groups, and for each group in these alternatives: what is
chosen has no groups. -/
inductive Chooses : List Token → List Token → Prop
  | nil : Chooses [] []
  | token {t : Token} {ts chosen : List Token} :
      (∀ alternatives, t ≠ .alternation alternatives) → Chooses ts chosen → Chooses (t :: ts) (t :: chosen)
  | group {alternatives : List (List Token)} {inner ts chosen rest : List Token} :
      inner ∈ alternatives → Chooses inner chosen → Chooses ts rest →
      Chooses (.alternation alternatives :: ts) (chosen ++ rest)

section Chooses

variable {start : Bool} {t : Token} {ts us chosen rest : List Token}

theorem Chooses.append (h : Chooses ts chosen) (h' : Chooses us rest) : Chooses (ts ++ us) (chosen ++ rest) := by
  induction h with
  | nil => exact h'
  | token ht _ ih => exact .token ht ih
  | group hinner hchosen _ _ ih =>
    rw [List.cons_append, List.append_assoc]
    exact .group hinner hchosen ih

/-- A sound token can be chosen by itself. -/
theorem chooses_singleton (ht : ∀ alternatives, t ≠ .alternation alternatives) : Chooses [t] [t] := .token ht .nil

/-- Where every group has alternatives, one can be chosen for each of them. -/
theorem exists_chooses : ∀ ts : List Token, SequenceSound ts → ∃ chosen, Chooses ts chosen
  | [], _ => ⟨[], .nil⟩
  | t :: ts, h => by
    obtain ⟨ht, hts⟩ := h
    obtain ⟨rest, hrest⟩ := exists_chooses ts hts
    cases t with
    | alternation alternatives =>
      obtain ⟨hne, hchoice⟩ := ht
      cases alternatives with
      | nil => exact absurd rfl hne
      | cons inner alternatives =>
        obtain ⟨chosen, hchosen⟩ := exists_chooses inner hchoice.1
        exact ⟨chosen ++ rest, .group List.mem_cons_self hchosen hrest⟩
    | literal | separator | star | question | anyDirectories | anyPath | charClass =>
      exact ⟨_, .token (by simp) hrest⟩

theorem Occurs.sound (h : Occurs t ts) (hts : SequenceSound ts) : t.Sound := by
  induction h with
  | here ht => exact sequenceSound_iff.mp hts _ ht
  | within ht hinner _ ih =>
    have hgroup : (Token.alternation _).Sound := sequenceSound_iff.mp hts _ ht
    exact ih (sequenceSound_iff.mpr (choiceSound_iff.mp hgroup.2 _ hinner))

/-- What can be chosen for a token that occurs in a sequence can be chosen as a part of the whole. -/
theorem exists_chooses_of_occurs (h : Occurs t ts) (hts : SequenceSound ts) (hchosen : Chooses [t] chosen) :
    ∃ before behind, Chooses ts (before ++ (chosen ++ behind)) := by
  have hmem : ∀ {ts chosen : List Token} {t : Token}, t ∈ ts → SequenceSound ts → Chooses [t] chosen →
      ∃ before behind, Chooses ts (before ++ (chosen ++ behind)) := by
    intro ts chosen t ht hts hchosen
    obtain ⟨front, back, rfl⟩ := List.append_of_mem ht
    rw [sequenceSound_iff, List.forall_mem_append, List.forall_mem_cons] at hts
    obtain ⟨before, hbefore⟩ := exists_chooses front (sequenceSound_iff.mpr hts.1)
    obtain ⟨behind, hbehind⟩ := exists_chooses back (sequenceSound_iff.mpr hts.2.2)
    exact ⟨before, behind, hbefore.append (hchosen.append hbehind)⟩
  induction h with
  | here ht => exact hmem ht hts hchosen
  | @within ts inner alternatives ht hinner _ ih =>
    have hgroup : (Token.alternation alternatives).Sound := sequenceSound_iff.mp hts _ ht
    obtain ⟨before, behind, hwithin⟩ := ih (sequenceSound_iff.mpr (choiceSound_iff.mp hgroup.2 inner hinner))
    obtain ⟨before', behind', hwhole⟩ := hmem ht hts (.group hinner hwithin .nil)
    exact ⟨before' ++ before, behind ++ behind', by simpa using hwhole⟩

/-- What is chosen occurs in the sequence, and is no group. -/
theorem Chooses.occurs (h : Chooses ts chosen) (ht : t ∈ chosen) :
    Occurs t ts ∧ ∀ alternatives, t ≠ .alternation alternatives := by
  induction h with
  | nil => cases ht
  | token hne _ ih =>
    rcases List.mem_cons.mp ht with rfl | ht
    · exact ⟨.here List.mem_cons_self, hne⟩
    · exact (ih ht).imp_left fun hoccurs => hoccurs.mono (List.subset_cons_self _ _)
  | group hinner _ _ ih ih' =>
    rcases List.mem_append.mp ht with ht | ht
    · exact (ih ht).imp_left (.within List.mem_cons_self hinner)
    · exact (ih' ht).imp_left fun hoccurs => hoccurs.mono (List.subset_cons_self _ _)

/-- What crosses directories follows a separator or comes first, and comes first only where a segment starts. -/
theorem Chooses.crosses (h : Chooses ts chosen) (hplaced : SequencePlaced start ts) :
    (chosen.IsChain fun t u => u.Crosses → t = .separator ∨ t = .anyDirectories) ∧
      ∀ t ∈ chosen.head?, t.Crosses → start = true := by
  induction h generalizing start with
  | nil => exact ⟨.nil, by simp⟩
  | @token t ts chosen _ _ ih =>
    obtain ⟨ht, -, hrest⟩ := hplaced
    obtain ⟨hchain, hfirst⟩ := ih hrest
    refine ⟨List.isChain_cons.mpr ⟨fun u hu hcrosses => ?_, hchain⟩, fun u hu hcrosses => ?_⟩
    · exact isSeparator_iff.mp (hfirst u hu hcrosses)
    · obtain rfl : t = u := Option.some.inj hu
      exact hcrosses.start_of_placedAt ht
  | @group alternatives inner ts chosen rest hinner _ _ ih ih' =>
    obtain ⟨hgroup, -, hrest⟩ := hplaced
    obtain ⟨hchain, hfirst⟩ := ih (choicePlaced_iff.mp hgroup _ hinner)
    -- No segment starts behind a group, so what follows it does not begin by crossing directories.
    obtain ⟨hchain', hfirst'⟩ := ih' hrest
    have hbehind : ∀ u ∈ rest.head?, ¬ u.Crosses := fun u hu hcrosses =>
      absurd (hfirst' u hu hcrosses) Bool.false_ne_true
    refine ⟨List.isChain_append.mpr ⟨hchain, hchain', fun t _ u hu hcrosses => ?_⟩, fun u hu hcrosses => ?_⟩
    · exact absurd hcrosses (hbehind u hu)
    · cases chosen with
      | nil => exact absurd hcrosses (hbehind u hu)
      | cons t _ => exact hfirst u hu hcrosses

end Chooses

/-! ## Stars that end an alternative -/

/-- Whether a sequence is all of some tokens, or an alternative of a group that occurs in them. -/
def IsPart (part ts : List Token) : Prop :=
  part = ts ∨ ∃ alternatives, Occurs (.alternation alternatives) ts ∧ part ∈ alternatives

/-- Whether a sequence has nothing but groups, in which there is nothing but groups. -/
def IsHollow (ts : List Token) : Prop := ∀ t, Occurs t ts → ∃ alternatives, t = .alternation alternatives

/-- Whether nothing stands behind a group with any path in it, hollow groups apart: not in the tokens, and not in an
alternative of theirs. -/
def PathsComeLast (ts : List Token) : Prop :=
  ∀ part, IsPart part ts → ∀ front alternatives back, part = front ++ .alternation alternatives :: back →
    (∃ inner ∈ alternatives, Occurs .anyPath inner) → IsHollow back

section PathsComeLast

variable {start : Bool} {t : Token} {ts part inner chosen : List Token} {alternatives : List (List Token)}

theorem PathsComeLast.tail (h : PathsComeLast (t :: ts)) : PathsComeLast ts := by
  intro part hpart front alternatives back heq
  rcases hpart with rfl | ⟨group, hgroup, hmem⟩
  · exact h (t :: part) (.inl rfl) (t :: front) alternatives back (by rw [heq]; rfl)
  · exact h part (.inr ⟨group, hgroup.mono (List.subset_cons_self _ _), hmem⟩) front alternatives back heq

theorem PathsComeLast.alternative (h : PathsComeLast (.alternation alternatives :: ts))
    (hinner : inner ∈ alternatives) : PathsComeLast inner := by
  intro part hpart front group back heq
  refine h part (.inr ?_) front group back heq
  rcases hpart with rfl | ⟨group', hgroup', hmem⟩
  · exact ⟨alternatives, .here List.mem_cons_self, hinner⟩
  · exact ⟨group', .within List.mem_cons_self hinner hgroup', hmem⟩

/-- Any path comes last in what is chosen, if nothing stands behind the groups that it is in. -/
theorem Chooses.pathLast (h : Chooses ts chosen) (hplaced : SequencePlaced start ts) (hlast : PathsComeLast ts) :
    .anyPath ∉ chosen.dropLast := by
  induction h generalizing start with
  | nil => exact List.not_mem_nil
  | @token t ts chosen _ hchooses ih =>
    obtain ⟨-, hend, hrest⟩ := hplaced
    cases chosen with
    | nil => exact List.not_mem_nil
    | cons u chosen =>
      rw [List.dropLast_cons_of_ne_nil (List.cons_ne_nil u chosen), List.mem_cons, not_or]
      refine ⟨fun ht => ?_, ih hrest hlast.tail⟩
      rw [hend ht.symm] at hchooses
      cases hchooses
  | @group alternatives inner ts chosen rest hinner hchosen hrest ih ih' =>
    obtain ⟨hgroup, -, hplaced'⟩ := hplaced
    have hchosen' := ih (choicePlaced_iff.mp hgroup _ hinner) (hlast.alternative hinner)
    cases rest with
    | nil => rwa [List.append_nil]
    | cons u rest =>
      rw [List.dropLast_append_of_ne_nil (List.cons_ne_nil u rest), List.mem_append, not_or]
      refine ⟨fun hpath => ?_, ih' hplaced' hlast.tail⟩
      have hhollow := hlast _ (.inl rfl) [] alternatives ts rfl ⟨inner, hinner, (hchosen.occurs hpath).1⟩
      obtain ⟨hoccurs, hne⟩ := hrest.occurs List.mem_cons_self
      obtain ⟨group, hgroup⟩ := hhollow u hoccurs
      exact hne group hgroup

/-- What can be chosen for a part of some tokens can be chosen as a part of the whole. -/
theorem IsPart.exists_chooses (h : IsPart part ts) (hts : SequenceSound ts) (hchosen : Chooses part chosen) :
    ∃ before behind, Chooses ts (before ++ (chosen ++ behind)) := by
  rcases h with rfl | ⟨group, hgroup, hmem⟩
  · exact ⟨[], [], by simpa using hchosen⟩
  · obtain ⟨before, behind, hwhole⟩ := exists_chooses_of_occurs hgroup hts (.group hmem hchosen .nil)
    exact ⟨before, behind, by simpa using hwhole⟩

theorem IsPart.sound (h : IsPart part ts) (hts : SequenceSound ts) : SequenceSound part := by
  rcases h with rfl | ⟨group, hgroup, hmem⟩
  · exact hts
  · exact sequenceSound_iff.mpr (choiceSound_iff.mp (hgroup.sound hts).2 part hmem)

/-- If any path comes last in whatever is chosen, then nothing stands behind the groups that it is in. -/
theorem pathsComeLast_of_chosen (hts : SequenceSound ts)
    (h : ∀ chosen, Chooses ts chosen → .anyPath ∉ chosen.dropLast) : PathsComeLast ts := by
  rintro part hpart front alternatives back rfl ⟨inner, hinner, hpath⟩ t ht
  by_contra hne
  have hsound := hpart.sound hts
  rw [sequenceSound_iff, List.forall_mem_append, List.forall_mem_cons] at hsound
  obtain ⟨hfront, hgroup, hback⟩ := hsound
  -- any path is chosen from the group, and the token that is no group behind it
  obtain ⟨before, hbefore⟩ := exists_chooses front (sequenceSound_iff.mpr hfront)
  have hstars : Occurs .anyPath [.alternation alternatives] := .within List.mem_cons_self hinner hpath
  obtain ⟨left, right, hstars⟩ :=
    exists_chooses_of_occurs hstars ⟨hgroup, trivial⟩ (chooses_singleton (t := .anyPath) (by simp))
  obtain ⟨left', right', htoken⟩ := exists_chooses_of_occurs ht (sequenceSound_iff.mpr hback)
    (chooses_singleton (not_exists.mp hne))
  obtain ⟨first, last, hwhole⟩ := hpart.exists_chooses hts (hbefore.append (hstars.append htoken))
  refine h _ hwhole ?_
  have heq : first ++ (before ++ (left ++ ([.anyPath] ++ right) ++ (left' ++ ([t] ++ right'))) ++ last) =
      (first ++ before ++ left) ++ .anyPath :: (right ++ left' ++ t :: (right' ++ last)) := by simp
  rw [heq, List.dropLast_append_of_ne_nil (by simp), List.dropLast_cons_of_ne_nil (by simp)]
  exact List.mem_append_right _ List.mem_cons_self

end PathsComeLast

/-- **Two stars cross directories only where a segment starts, and end it unless they end an alternative.** Whatever
alternatives are chosen, what crosses directories comes first or directly follows a separator. Any path comes last in
all that can be chosen exactly if nothing stands behind the groups that it is in. -/
theorem crossing_of_scan {text : List Char} {scanned : Scanned} (hscan : scan text = .ok scanned) :
    (∀ chosen, Chooses scanned.tokens chosen → chosen.IsChain fun t u =>
      u = .anyDirectories ∨ u = .anyPath → t = .separator ∨ t = .anyDirectories) ∧
    ((∀ chosen, Chooses scanned.tokens chosen → .anyPath ∉ chosen.dropLast) ↔ PathsComeLast scanned.tokens) := by
  have hplaced := placed_of_scan hscan
  refine ⟨fun chosen hchosen => (hchosen.crosses hplaced).1, pathsComeLast_of_chosen (sound_of_scan hscan), ?_⟩
  exact fun hlast chosen hchosen => hchosen.pathLast hplaced hlast

/-- Stars at the start of an alternative, and stars that end one of a group in a group. -/
theorem crossing_of_scan_nested : ∃ scanned, scan "\x7b**/b,a/\x7b?,**\x7d\x7dc".toList = .ok scanned ∧
    Chooses scanned.tokens [.anyDirectories, .literal 'b', .literal 'c'] ∧
    Chooses scanned.tokens [.literal 'a', .separator, .anyPath, .literal 'c'] ∧
    (∀ chosen, Chooses scanned.tokens chosen → chosen.IsChain fun t u =>
      u = .anyDirectories ∨ u = .anyPath → t = .separator ∨ t = .anyDirectories) ∧
    ((∀ chosen, Chooses scanned.tokens chosen → .anyPath ∉ chosen.dropLast) ↔ PathsComeLast scanned.tokens) := by
  have hscan : scan "\x7b**/b,a/\x7b?,**\x7d\x7dc".toList = .ok ⟨[.alternation [[.anyDirectories, .literal 'b'],
      [.literal 'a', .separator, .alternation [[.question], [.anyPath]]]], .literal 'c'], true⟩ := rfl
  have hlast : Chooses [.literal 'c'] [.literal 'c'] := chooses_singleton (by simp)
  have hstart : Chooses [.anyDirectories, .literal 'b'] [.anyDirectories, .literal 'b'] :=
    .token (by simp) (chooses_singleton (by simp))
  have hgroup : Chooses [.alternation [[.question], [.anyPath]]] [.anyPath] :=
    .group (by simp) (chooses_singleton (t := .anyPath) (by simp)) .nil
  have hend : Chooses [.literal 'a', .separator, .alternation [[.question], [.anyPath]]]
      [.literal 'a', .separator, .anyPath] := .token (by simp) (.token (by simp) hgroup)
  exact ⟨_, hscan, .group (by simp) hstart hlast, .group (by simp) hend hlast, crossing_of_scan hscan⟩

/-- Stars that end an alternative are not the last token, and cross directories within a segment. -/
theorem crossing_within_segment : ∃ scanned chosen, scan "src/\x7ba,**\x7d.js".toList = .ok scanned ∧
    Chooses scanned.tokens chosen ∧ .anyPath ∈ chosen.dropLast ∧
    pathMatches "src/x/y.js" "src/\x7ba,**\x7d.js" = true := by
  have hscan : scan "src/\x7ba,**\x7d.js".toList = .ok ⟨[.literal 's', .literal 'r', .literal 'c', .separator,
      .alternation [[.literal 'a'], [.anyPath]], .literal '.', .literal 'j', .literal 's'], true⟩ := rfl
  have hextension : Chooses [.literal '.', .literal 'j', .literal 's'] [.literal '.', .literal 'j', .literal 's'] :=
    .token (by simp) (.token (by simp) (chooses_singleton (by simp)))
  have hgroup : Chooses [.alternation [[.literal 'a'], [.anyPath]], .literal '.', .literal 'j', .literal 's']
      [.anyPath, .literal '.', .literal 'j', .literal 's'] :=
    .group (by simp) (chooses_singleton (t := .anyPath) (by simp)) hextension
  refine ⟨_, _, hscan, .token (by simp) (.token (by simp) (.token (by simp) (.token (by simp) hgroup))), ?_, ?_⟩
  · simp
  · decide +kernel

end PathOwners.Glob
