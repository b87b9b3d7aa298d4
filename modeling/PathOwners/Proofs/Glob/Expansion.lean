import PathOwners.Proofs.Glob.Language
import PathOwners.Proofs.Glob.Reading

/-!
# Expansions of a body

An expansion of a body has one alternative in place of each group; the marks of the braces remain in it, so it is a
sequence of pieces (`expansions`). A body stands for what its expansions stand for, each read with its marks
(`mem_scan_iff`). The proof follows the scan of the body from lexeme to lexeme, with the expansions of all that is
already read: the tokens of an open alternative stand for what its expansions stand for so far, and all of these lead to
the stance of the scan (`Expanding.Follows`).
-/

namespace PathOwners.Glob

/-! ## Expansions -/

/-- A group whose alternatives are being expanded: the expansions of the text before it, and those of its finished
alternatives. -/
structure OpenChoice where
  before : List (List Piece)
  finished : List (List Piece)

/-- The expansions of what is read of the innermost open alternative, and the open groups around it. -/
structure Expanding where
  current : List (List Piece) := [[]]
  choices : List OpenChoice := []

namespace Expanding

/-- The expansions of an alternative that ends here. -/
def closed (x : Expanding) : List (List Piece) := x.current.map (· ++ [.closing])

/-- The expansions with one more lexeme: a brace or a comma of a group, or a lexeme of every expansion. -/
def step (x : Expanding) (l : Lexeme) : Expanding :=
  match l, x.choices with
  | .plain '\x7b', choices => { current := [[]], choices := ⟨x.current.map (· ++ [.opening]), []⟩ :: choices }
  | .plain ',', g :: choices => { current := [[]], choices := ⟨g.before, g.finished ++ x.closed⟩ :: choices }
  | .plain '\x7d', g :: choices =>
    { current := g.before.flatMap fun ps => (g.finished ++ x.closed).map (ps ++ ·), choices }
  | l, choices => { current := x.current.map (· ++ [.lexeme l]), choices }

end Expanding

/-- The expansions of a body. -/
def expansions (body : List Char) : List (List Piece) :=
  match lexemes body with
  | some ls => (ls.foldl Expanding.step {}).current
  | none => []

/-- The text of an expansion. -/
def expansionText (ps : List Piece) : List Char := ps.flatMap Piece.text

/-! ## The lexemes of an expansion -/

/-- All lexemes of several expansions have a property. -/
def AllLexemes (P : Lexeme → Prop) (pss : List (List Piece)) : Prop := ∀ ps ∈ pss, ∀ l, .lexeme l ∈ ps → P l

section AllLexemes

variable {P : Lexeme → Prop} {pss qss : List (List Piece)} {l : Lexeme}

theorem allLexemes_nil : AllLexemes P [[]] := by simp [AllLexemes]

theorem AllLexemes.append (h : AllLexemes P pss) (h' : AllLexemes P qss) : AllLexemes P (pss ++ qss) := by
  intro ps hps
  rcases List.mem_append.mp hps with hps | hps
  · exact h ps hps
  · exact h' ps hps

theorem AllLexemes.concat (h : AllLexemes P pss) {p : Piece} (hp : ∀ l, p = .lexeme l → P l) :
    AllLexemes P (pss.map (· ++ [p])) := by
  intro ps hps l hl
  obtain ⟨qs, hqs, rfl⟩ := List.mem_map.mp hps
  rcases List.mem_append.mp hl with hl | hl
  · exact h qs hqs l hl
  · exact hp l (List.mem_singleton.mp hl).symm

theorem AllLexemes.product (h : AllLexemes P pss) (h' : AllLexemes P qss) :
    AllLexemes P (pss.flatMap fun ps => qss.map (ps ++ ·)) := by
  intro rs hrs l hl
  obtain ⟨ps, hps, qs, hqs, rfl⟩ : ∃ ps ∈ pss, ∃ qs ∈ qss, ps ++ qs = rs := by simpa using hrs
  rcases List.mem_append.mp hl with hl | hl
  · exact h ps hps l hl
  · exact h' qs hqs l hl

end AllLexemes

namespace Expanding

/-- All lexemes read so far have a property, and there is an expansion of all that is read. -/
structure Sound (P : Lexeme → Prop) (x : Expanding) : Prop where
  lexemes : AllLexemes P x.current
  nonempty : x.current ≠ []
  choices : ∀ g ∈ x.choices, AllLexemes P g.before ∧ g.before ≠ [] ∧ AllLexemes P g.finished

variable {P : Lexeme → Prop} {x : Expanding} {l : Lexeme}

theorem Sound.closed (h : x.Sound P) : AllLexemes P x.closed := h.lexemes.concat (by simp)

theorem Sound.step (h : x.Sound P) (hl : l ≠ .plain '\x7b' → P l) : (x.step l).Sound P := by
  unfold Expanding.step
  split
  · refine ⟨allLexemes_nil, List.cons_ne_nil _ _, List.forall_mem_cons.mpr ⟨⟨?_, ?_, ?_⟩, h.choices⟩⟩
    · exact h.lexemes.concat (by simp)
    · simpa using h.nonempty
    · simp [AllLexemes]
  · next hchoices =>
    have hall := h.choices
    rw [hchoices] at hall
    obtain ⟨⟨hbefore, hnonempty, hfinished⟩, hrest⟩ := List.forall_mem_cons.mp hall
    have hchoice := hfinished.append h.closed
    exact ⟨allLexemes_nil, List.cons_ne_nil _ _, List.forall_mem_cons.mpr ⟨⟨hbefore, hnonempty, hchoice⟩, hrest⟩⟩
  · next hchoices =>
    have hall := h.choices
    rw [hchoices] at hall
    obtain ⟨⟨hbefore, hnonempty, hfinished⟩, hrest⟩ := List.forall_mem_cons.mp hall
    obtain ⟨ps, hps⟩ := List.exists_mem_of_ne_nil _ hnonempty
    obtain ⟨qs, hqs⟩ := List.exists_mem_of_ne_nil _ h.nonempty
    have hclosed : qs ++ [.closing] ∈ x.closed := List.mem_map.mpr ⟨qs, hqs, rfl⟩
    refine ⟨hbefore.product (hfinished.append h.closed), ?_, hrest⟩
    apply List.ne_nil_of_mem (a := ps ++ (qs ++ [.closing]))
    exact List.mem_flatMap.mpr ⟨ps, hps, List.mem_map.mpr ⟨_, List.mem_append_right _ hclosed, rfl⟩⟩
  · next hopening _ _ =>
    refine ⟨h.lexemes.concat fun l' hl' => ?_, by simpa using h.nonempty, h.choices⟩
    obtain rfl := Piece.lexeme.inj hl'
    exact hl hopening

theorem Sound.foldl {ls : List Lexeme} (h : x.Sound P) (hls : ∀ l ∈ ls, l ≠ .plain '\x7b' → P l) :
    (ls.foldl Expanding.step x).Sound P := by
  induction ls generalizing x with
  | nil => exact h
  | cons l ls ih =>
    obtain ⟨hl, hls⟩ := List.forall_mem_cons.mp hls
    exact ih (h.step hl) hls

theorem sound_initial : Sound P {} := ⟨allLexemes_nil, List.cons_ne_nil _ _, by simp⟩

theorem step_of_not_brace (hopening : l ≠ .plain '\x7b')
    (hbrace : x.choices = [] ∨ l ≠ .plain ',' ∧ l ≠ .plain '\x7d') :
    x.step l = { x with current := x.current.map (· ++ [.lexeme l]) } := by
  unfold Expanding.step
  split <;> simp_all

end Expanding

theorem expansions_eq {body : List Char} {ls : List Lexeme} (h : lexemes body = some ls) :
    expansions body = (ls.foldl Expanding.step {}).current := by rw [expansions, h]

/-- An expansion consists of lexemes of the body, none of which opens a group. -/
theorem mem_lexemes_of_mem_expansions {body : List Char} {ls : List Lexeme} (h : lexemes body = some ls)
    {ps : List Piece} (hps : ps ∈ expansions body) {l : Lexeme} (hl : .lexeme l ∈ ps) : l ∈ ls ∧ l ≠ .plain '\x7b' := by
  rw [expansions_eq h] at hps
  have hsound := (Expanding.sound_initial (P := fun l => l ∈ ls ∧ l ≠ .plain '\x7b')).foldl fun l hl hne => ⟨hl, hne⟩
  exact hsound.lexemes ps hps l hl

/-- Some expansion ends with the last lexeme of the body, unless that is a part of a group. -/
theorem exists_expansion_concat {body : List Char} {ls : List Lexeme} {l : Lexeme} (h : lexemes body = some (ls ++ [l]))
    (hopening : l ≠ .plain '\x7b') (hbrace : l ≠ .plain ',' ∧ l ≠ .plain '\x7d') :
    ∃ ps, ps ++ [.lexeme l] ∈ expansions body := by
  have hsound : (ls.foldl Expanding.step {}).Sound fun _ => True :=
    Expanding.sound_initial.foldl fun _ _ _ => trivial
  obtain ⟨ps, hps⟩ := List.exists_mem_of_ne_nil _ hsound.nonempty
  refine ⟨ps, ?_⟩
  rw [expansions_eq h, List.foldl_concat, Expanding.step_of_not_brace hopening (.inr hbrace)]
  exact List.mem_map.mpr ⟨ps, hps, rfl⟩

/-! ## Sequences of pieces that lead from stance to stance -/

/-- Several sequences of pieces lead from one stance to another, and a language consists of what they stand for. -/
structure Leads (st st' : Stance) (pss : List (List Piece)) (L : Language Char) : Prop where
  after : ∀ ps ∈ pss, st.after ps = st'
  mem_iff : ∀ w, w ∈ L ↔ ∃ ps ∈ pss, w ∈ sequenceLanguage (st.read ps)

namespace Leads

variable {a b c : Stance} {pss qss : List (List Piece)} {L M : Language Char}

theorem nil (a : Stance) : Leads a a [[]] 1 := by
  refine ⟨by simp [Stance.after], fun w => ?_⟩
  simp [Stance.read, sequenceLanguage]

theorem none (a b : Stance) : Leads a b [] 0 := ⟨by simp, fun w => by simp [Language.notMem_zero]⟩

theorem union (h : Leads a b pss L) (h' : Leads a b qss M) : Leads a b (pss ++ qss) (L + M) := by
  refine ⟨fun ps hps => ?_, fun w => ?_⟩
  · rcases List.mem_append.mp hps with hps | hps
    · exact h.after ps hps
    · exact h'.after ps hps
  · rw [Language.mem_add, h.mem_iff, h'.mem_iff]
    simp only [List.mem_append, or_and_right, exists_or]

theorem product (h : Leads a b pss L) (h' : Leads b c qss M) :
    Leads a c (pss.flatMap fun ps => qss.map (ps ++ ·)) (L * M) := by
  refine ⟨fun rs hrs => ?_, fun w => ⟨fun hw => ?_, ?_⟩⟩
  · obtain ⟨ps, hps, qs, hqs, rfl⟩ : ∃ ps ∈ pss, ∃ qs ∈ qss, ps ++ qs = rs := by simpa using hrs
    rw [Stance.after_append, h.after ps hps, h'.after qs hqs]
  · obtain ⟨u, hu, v, hv, rfl⟩ := Language.mem_mul.mp hw
    obtain ⟨ps, hps, hu⟩ := (h.mem_iff u).mp hu
    obtain ⟨qs, hqs, hv⟩ := (h'.mem_iff v).mp hv
    refine ⟨ps ++ qs, List.mem_flatMap.mpr ⟨ps, hps, List.mem_map.mpr ⟨qs, hqs, rfl⟩⟩, ?_⟩
    rw [Stance.read_append, h.after ps hps, sequenceLanguage_append]
    exact Language.append_mem_mul hu hv
  · rintro ⟨rs, hrs, hw⟩
    obtain ⟨ps, hps, qs, hqs, rfl⟩ : ∃ ps ∈ pss, ∃ qs ∈ qss, ps ++ qs = rs := by simpa using hrs
    rw [Stance.read_append, h.after ps hps, sequenceLanguage_append] at hw
    obtain ⟨u, hu, v, hv, rfl⟩ := Language.mem_mul.mp hw
    have hu' : u ∈ L := (h.mem_iff u).mpr ⟨ps, hps, hu⟩
    have hv' : v ∈ M := (h'.mem_iff v).mpr ⟨qs, hqs, hv⟩
    exact Language.append_mem_mul hu' hv'

theorem piece (h : Leads a b pss L) (p : Piece) :
    Leads a (b.next p) (pss.map (· ++ [p])) (L * sequenceLanguage (b.tokens p)) := by
  have hp : Leads b (b.next p) [[p]] (sequenceLanguage (b.tokens p)) := by
    refine ⟨?_, fun w => ?_⟩
    · simp [Stance.after_singleton]
    · simp [Stance.read_singleton]
  have hmap : pss.map (· ++ [p]) = pss.flatMap fun ps => [[p]].map (ps ++ ·) := by
    simp [List.map_eq_flatMap]
  rw [hmap]
  exact h.product hp

end Leads

/-! ## The scan and the expansions -/

/-- Whether the innermost open alternative begins a segment. -/
def alternativeStart : List OpenGroup → Bool
  | [] => true
  | g :: _ => g.segmentStart

/-- The open groups of a scan stand for their expansions so far. -/
def GroupsFollow : List OpenGroup → List OpenChoice → Prop
  | [], [] => True
  | g :: groups, choice :: choices =>
    Leads ⟨none, alternativeStart groups⟩ ⟨none, g.segmentStart⟩ choice.before (sequenceLanguage g.before.reverse) ∧
      Leads ⟨none, g.segmentStart⟩ ⟨none, false⟩ choice.finished (choiceLanguage g.alternatives) ∧
        GroupsFollow groups choices
  | _, _ => False

/-- A scan in a stance stands for its expansions so far. -/
structure Expanding.Follows (s : ScanState) (st : Stance) (x : Expanding) : Prop where
  stands : s.Stands st
  current : Leads ⟨none, alternativeStart s.groups⟩ st x.current (sequenceLanguage s.tokens.reverse)
  choices : GroupsFollow s.groups x.choices

/-- The groups of a scan and of its expansions are open together. -/
theorem GroupsFollow.choices_eq_nil {groups : List OpenGroup} {choices : List OpenChoice}
    (h : GroupsFollow groups choices) (hgroups : groups = []) : choices = [] := by
  cases choices with
  | nil => rfl
  | cons => rw [hgroups] at h; exact h.elim

theorem GroupsFollow.exists_cons {g : OpenGroup} {groups : List OpenGroup} {choices : List OpenChoice}
    (h : GroupsFollow (g :: groups) choices) : ∃ choice rest, choices = choice :: rest := by
  cases choices with
  | nil => exact h.elim
  | cons choice rest => exact ⟨choice, rest, rfl⟩

namespace Expanding

variable {s : ScanState} {st : Stance} {x : Expanding} {l : Lexeme}

/-- The expansions of the alternative that ends here, and what they stand for. -/
theorem Follows.leads_closed (h : x.Follows s st) : Leads ⟨none, alternativeStart s.groups⟩ ⟨none, false⟩ x.closed
    (sequenceLanguage (s.tokens.reverse ++ st.finalTokens)) := by
  rw [sequenceLanguage_append]
  exact h.current.piece .closing

/-- The innermost open group: what stands before it, and its alternatives with the one that ends here. -/
theorem Follows.innermost (h : x.Follows s st) {g : OpenGroup} {gs : List OpenGroup} (hgroups : s.groups = g :: gs) :
    ∃ choice choices, x.choices = choice :: choices ∧
      Leads ⟨none, alternativeStart gs⟩ ⟨none, g.segmentStart⟩ choice.before (sequenceLanguage g.before.reverse) ∧
      Leads ⟨none, g.segmentStart⟩ ⟨none, false⟩ (choice.finished ++ x.closed)
        (choiceLanguage ((s.tokens.reverse ++ st.finalTokens) :: g.alternatives)) ∧
      GroupsFollow gs choices := by
  have hclosed := h.leads_closed
  have hchoices := h.choices
  rw [hgroups] at hclosed hchoices
  obtain ⟨choice, choices, hx⟩ := hchoices.exists_cons
  rw [hx] at hchoices
  obtain ⟨hbefore, hfinished, hrest⟩ := hchoices
  refine ⟨choice, choices, hx, hbefore, ?_, hrest⟩
  rw [choiceLanguage, add_comm]
  exact hfinished.union hclosed

theorem Follows.lexeme (h : x.Follows s st) (hl : l.Genuine) (hbrace : ¬ s.IsBrace l) :
    ∃ t, ScanState.run s l.text = .ok t ∧ (x.step l).Follows t (st.next (.lexeme l)) := by
  obtain ⟨t, ht, hread⟩ := ScanState.run_lexeme h.stands hl hbrace
  obtain ⟨hopening, hinner⟩ := not_or.mp hbrace
  have hchoices : x.choices = [] ∨ l ≠ .plain ',' ∧ l ≠ .plain '\x7d' := by
    by_cases hgroups : s.groups = []
    · exact .inl (GroupsFollow.choices_eq_nil h.choices hgroups)
    · exact .inr (not_or.mp fun hl => hinner ⟨hgroups, hl⟩)
  refine ⟨t, ht, hread.stands, ?_, ?_⟩
  · rw [step_of_not_brace hopening hchoices, hread.groups, hread.tokens, List.reverse_append, List.reverse_reverse,
      sequenceLanguage_append]
    exact h.current.piece (.lexeme l)
  · rw [step_of_not_brace hopening hchoices, hread.groups]
    exact h.choices

theorem Follows.opening (h : x.Follows s st) :
    ∃ t, s.step '\x7b' = .ok t ∧ (x.step (.plain '\x7b')).Follows t (st.next .opening) := by
  obtain ⟨t, start, ht, hstands, htokens, hgroups⟩ := ScanState.run_opening h.stands
  refine ⟨t, ht, hstands, ?_, ?_⟩
  · rw [hgroups, htokens]
    exact Leads.nil _
  · rw [hgroups]
    refine ⟨?_, Leads.none _ _, h.choices⟩
    rw [List.reverse_append, List.reverse_reverse, sequenceLanguage_append]
    exact h.current.piece .opening

theorem Follows.comma (h : x.Follows s st) {g : OpenGroup} {gs : List OpenGroup} (hgroups : s.groups = g :: gs) :
    ∃ t, s.step ',' = .ok t ∧ (x.step (.plain ',')).Follows t ⟨none, g.segmentStart⟩ := by
  obtain ⟨t, ht, hstands, htokens, hgroups'⟩ := ScanState.run_comma h.stands hgroups
  obtain ⟨choice, choices, hx, hbefore, hfinished, hrest⟩ := h.innermost hgroups
  have hstep : x.step (.plain ',') = ⟨[[]], ⟨choice.before, choice.finished ++ x.closed⟩ :: choices⟩ := by
    simp [step, hx]
  rw [hstep]
  refine ⟨t, ht, hstands, ?_, ?_⟩
  · rw [hgroups', htokens]
    exact Leads.nil _
  · rw [hgroups']
    exact ⟨hbefore, hfinished, hrest⟩

theorem Follows.closing (h : x.Follows s st) {g : OpenGroup} {gs : List OpenGroup} (hgroups : s.groups = g :: gs) :
    ∃ t, s.step '\x7d' = .ok t ∧ (x.step (.plain '\x7d')).Follows t ⟨none, false⟩ := by
  obtain ⟨t, ht, hstands, hgroups', htokens⟩ := ScanState.run_closing h.stands hgroups
  obtain ⟨choice, choices, hx, hbefore, hfinished, hrest⟩ := h.innermost hgroups
  have hstep : x.step (.plain '\x7d') =
      ⟨choice.before.flatMap fun ps => (choice.finished ++ x.closed).map (ps ++ ·), choices⟩ := by
    simp [step, hx]
  rw [hstep]
  refine ⟨t, ht, hstands, ?_, ?_⟩
  · rw [hgroups', htokens, List.reverse_cons, sequenceLanguage_append, sequenceLanguage_singleton, Token.language,
      choiceLanguage_reverse]
    exact hbefore.product hfinished
  · rw [hgroups']
    exact hrest

/-- **A lexeme of the body keeps the scan and the expansions together** -/
theorem Follows.step (h : x.Follows s st) (hl : l.Genuine) :
    ∃ t st', ScanState.run s l.text = .ok t ∧ (x.step l).Follows t st' := by
  by_cases hbrace : s.IsBrace l
  · rcases hbrace with rfl | ⟨hgroups, hl⟩
    · obtain ⟨t, ht, hfollows⟩ := h.opening
      exact ⟨t, _, (ScanState.run_singleton s _).trans ht, hfollows⟩
    · obtain ⟨g, gs, hgroups⟩ := List.exists_cons_of_ne_nil hgroups
      rcases hl with rfl | rfl
      · obtain ⟨t, ht, hfollows⟩ := h.comma hgroups
        exact ⟨t, _, (ScanState.run_singleton s _).trans ht, hfollows⟩
      · obtain ⟨t, ht, hfollows⟩ := h.closing hgroups
        exact ⟨t, _, (ScanState.run_singleton s _).trans ht, hfollows⟩
  · obtain ⟨t, ht, hfollows⟩ := h.lexeme hl hbrace
    exact ⟨t, _, ht, hfollows⟩

theorem Follows.run : ∀ {ls : List Lexeme} {s : ScanState} {st : Stance} {x : Expanding}, x.Follows s st →
    (∀ l ∈ ls, l.Genuine) → ∃ t st', ScanState.run s (ls.flatMap Lexeme.text) = .ok t ∧
      (ls.foldl Expanding.step x).Follows t st'
  | [], s, st, x, h, _ => ⟨s, st, rfl, h⟩
  | l :: ls, s, st, x, h, hgenuine => by
    obtain ⟨hl, hls⟩ := List.forall_mem_cons.mp hgenuine
    obtain ⟨t, st', ht, hfollows⟩ := h.step hl
    obtain ⟨u, st'', hu, hfollows'⟩ := Follows.run hfollows hls
    exact ⟨u, st'', ScanState.run_append_eq_ok_iff.mpr ⟨t, ht, hu⟩, hfollows'⟩

end Expanding

theorem follows_initial : Expanding.Follows {} Stance.initial {} := ⟨⟨rfl, rfl⟩, Leads.nil _, trivial⟩

/-- **A body stands for what its expansions stand for, read with their marks** -/
theorem mem_scan_iff {body : List Char} {ls : List Lexeme} {scanned : Scanned} (hls : lexemes body = some ls)
    (hscan : scan body = .ok scanned) (w : List Char) :
    w ∈ sequenceLanguage scanned.tokens ↔ ∃ ps ∈ expansions body, w ∈ sequenceLanguage (readPieces ps) := by
  obtain ⟨s, hs, hfinish⟩ := scan_eq_ok_iff.mp hscan
  obtain ⟨t, st, ht, hfollows⟩ := follows_initial.run (genuine_of_lexemes hls)
  rw [text_of_lexemes hls, hs, Except.ok.injEq] at ht
  subst ht
  have hgroups := (ScanState.finish_eq_ok_iff.mp hfinish).1.1
  have hcurrent := hfollows.current
  rw [ScanState.finish_of_stands hfollows.stands hgroups, Except.ok.injEq] at hfinish
  rw [hgroups, alternativeStart] at hcurrent
  have hexpansions := expansions_eq hls
  have hread : ∀ ps ∈ expansions body, readPieces ps = Stance.initial.read ps ++ st.finalTokens := by
    intro ps hps
    rw [hexpansions] at hps
    rw [readPieces, Stance.readAll, Stance.initial, hcurrent.after ps hps]
  rw [← hfinish, sequenceLanguage_append, Language.mem_mul]
  constructor
  · rintro ⟨u, hu, v, hv, rfl⟩
    obtain ⟨ps, hps, hu⟩ := (hcurrent.mem_iff u).mp hu
    rw [← hexpansions] at hps
    refine ⟨ps, hps, ?_⟩
    rw [hread ps hps, sequenceLanguage_append]
    exact Language.append_mem_mul hu hv
  · rintro ⟨ps, hps, hw⟩
    rw [hread ps hps, sequenceLanguage_append] at hw
    obtain ⟨u, hu, v, hv, rfl⟩ := Language.mem_mul.mp hw
    rw [hexpansions] at hps
    exact ⟨u, (hcurrent.mem_iff u).mpr ⟨ps, hps, hu⟩, v, hv, rfl⟩

/-- A group in a group: each innermost alternative gives an expansion. -/
example : (expansions "a\x7bb,\x7bc,d\x7d\x7d/*".toList).map expansionText =
    ["ab/*".toList, "ac/*".toList, "ad/*".toList] := by decide +kernel

end PathOwners.Glob
