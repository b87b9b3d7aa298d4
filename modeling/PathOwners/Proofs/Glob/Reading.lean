import PathOwners.Proofs.Glob.Lexeme

/-!
# Reading lexemes

The tokens of a sequence of lexemes that has no groups. Between two lexemes a scan has a stance: the run of stars that
it is in and whether it stands at the start of a segment. The stance decides which tokens the next lexeme gives, and the
stance after it (`ScanState.run_lexeme`). A piece is a lexeme, or the mark of a brace that opens or closes around a
chosen alternative; marks read as the scan takes braces, so a sequence of pieces can be read without the other
alternatives (`Stance.read`).
-/

namespace PathOwners.Glob

/-! ## Pieces and stances -/

/-- A part of a text in which an alternative is chosen for every group. -/
inductive Piece where
  | lexeme (l : Lexeme)
  /-- The opening brace, and all that precedes the alternative. -/
  | opening
  /-- All that follows the alternative, and the closing brace. -/
  | closing
  deriving DecidableEq, Repr

/-- The characters of a piece; a brace has none. -/
def Piece.text : Piece → List Char
  | .lexeme l => l.text
  | .opening | .closing => []

/-- Where a scan stands between two lexemes: in a run of stars, of one or of more, or in none; and at the start of a
segment, or where the run began. -/
structure Stance where
  stars : Option Bool
  start : Bool
  deriving DecidableEq, Repr

namespace Stance

/-- The tokens of a run of stars that is no segment of its own. -/
def starTokens (st : Stance) : List Token := if st.stars.isSome then [.star] else []

/-- Whether there is a run of two or more stars at the start of a segment. -/
def mayBeSegment (st : Stance) : Bool := st.stars == some true && st.start

/-- The tokens of a run of stars that ends a text or an alternative. -/
def finalTokens (st : Stance) : List Token := if st.mayBeSegment then [.anyPath] else st.starTokens

/-- The stance after a piece. -/
def next (st : Stance) : Piece → Stance
  | .lexeme (.plain '*') => ⟨some st.stars.isSome, st.start⟩
  | .lexeme (.plain '/') => ⟨none, true⟩
  | .lexeme _ => ⟨none, false⟩
  | .opening => ⟨none, st.stars.isNone && st.start⟩
  | .closing => ⟨none, false⟩

/-- The tokens that a piece gives; those of a run of stars come with the piece after it. -/
def tokens (st : Stance) : Piece → List Token
  | .lexeme (.plain '*') => []
  | .lexeme (.plain '/') => if st.mayBeSegment then [.anyDirectories] else st.starTokens ++ [.separator]
  | .lexeme l => st.starTokens ++ [l.token]
  | .opening => st.starTokens
  | .closing => st.finalTokens

/-- The stance after some pieces. -/
def after (st : Stance) (ps : List Piece) : Stance := ps.foldl next st

/-- The tokens that some pieces give. -/
def read : Stance → List Piece → List Token
  | _, [] => []
  | st, p :: ps => st.tokens p ++ (st.next p).read ps

/-- The tokens of pieces that a text or an alternative ends with. -/
def readAll (st : Stance) (ps : List Piece) : List Token := st.read ps ++ (st.after ps).finalTokens

theorem readAll_cons (st : Stance) (p : Piece) (ps : List Piece) :
    st.readAll (p :: ps) = st.tokens p ++ (st.next p).readAll ps := List.append_assoc _ _ _

theorem after_append (st : Stance) (ps qs : List Piece) : st.after (ps ++ qs) = (st.after ps).after qs :=
  List.foldl_append

theorem read_append : ∀ (st : Stance) (ps qs : List Piece), st.read (ps ++ qs) = st.read ps ++ (st.after ps).read qs
  | _, [], _ => rfl
  | st, p :: ps, qs => by
    rw [List.cons_append, read, read, read_append, List.append_assoc]
    rfl

theorem after_singleton (st : Stance) (p : Piece) : st.after [p] = st.next p := rfl

theorem read_singleton (st : Stance) (p : Piece) : st.read [p] = st.tokens p := List.append_nil _

/-- The mode of a scan in a stance. -/
def mode (st : Stance) : Mode :=
  match st.stars with
  | none => .text
  | some many => .stars many

theorem next_of_ne {l : Lexeme} (st : Stance) (hstar : l ≠ .plain '*') (hslash : l ≠ .plain '/') :
    st.next (.lexeme l) = ⟨none, false⟩ := by
  unfold next
  split <;> simp_all

theorem tokens_of_ne {l : Lexeme} (st : Stance) (hstar : l ≠ .plain '*') (hslash : l ≠ .plain '/') :
    st.tokens (.lexeme l) = st.starTokens ++ [l.token] := by
  unfold tokens
  split <;> simp_all

end Stance

/-! ## The scan between lexemes -/

/-- The first character of a lexeme tells which kind it is. -/
theorem Lexeme.exists_text (l : Lexeme) (hl : l.Genuine) :
    ∃ c cs, l.text = c :: cs ∧ (l = .plain c ∨ c = '\\' ∨ c = '[') := by
  cases l with
  | plain c => exact ⟨c, [], rfl, .inl rfl⟩
  | escape c => exact ⟨'\\', [c], rfl, .inr (.inl rfl)⟩
  | bracket text negated items =>
    obtain ⟨cs, hcs⟩ := List.head?_eq_some_iff.mp hl.1
    exact ⟨'[', cs, hcs, .inr (.inr rfl)⟩

theorem Lexeme.token_plain {c : Char} (h : c ≠ '?') : (Lexeme.plain c).token = .literal c := by
  unfold Lexeme.token
  split <;> simp_all

namespace ScanState

/-- A scan between two lexemes has a stance. -/
structure Stands (s : ScanState) (st : Stance) : Prop where
  mode : s.mode = st.mode
  start : s.segmentStart = st.start

/-- A scan goes on to another with some more tokens, the open groups being the same. -/
structure Reads (s : ScanState) (tokens : List Token) (st : Stance) (t : ScanState) : Prop where
  stands : t.Stands st
  tokens : t.tokens = tokens.reverse ++ s.tokens
  groups : t.groups = s.groups

/-- Whether a scan takes a lexeme for a part of a group. -/
def IsBrace (s : ScanState) (l : Lexeme) : Prop :=
  l = .plain '\x7b' ∨ s.groups ≠ [] ∧ (l = .plain ',' ∨ l = .plain '\x7d')

variable {s t : ScanState} {st : Stance} {l : Lexeme} {c : Char} {cs : List Char}

/-- A scan after its run of stars, if it was in one. -/
structure Settles (s : ScanState) (st : Stance) (c : Char) (t : ScanState) : Prop where
  mode : t.mode = .text
  step : s.step c = t.step c
  tokens : t.tokens = (if s.endsAlternative c then st.finalTokens else st.starTokens).reverse ++ s.tokens
  groups : t.groups = s.groups
  start : s.endsAlternative c = false → t.segmentStart = (st.next .opening).start

/-- Before anything but a star or a separator, a run of stars is over. -/
theorem exists_settles (hs : s.Stands st) (hstar : c ≠ '*') (hslash : c ≠ '/') : ∃ t, s.Settles st c t := by
  obtain ⟨stars, start⟩ := st
  cases stars with
  | none =>
    have hfinal : (Stance.mk none start).finalTokens = [] := rfl
    have hstar : (Stance.mk none start).starTokens = [] := rfl
    refine ⟨s, hs.mode, rfl, ?_, rfl, fun _ => hs.start⟩
    rw [hfinal, hstar, ite_self, List.reverse_nil, List.nil_append]
  | some many =>
    obtain rfl : s.segmentStart = start := hs.start
    have hmode := mode_endStars s many (s.endsAlternative c)
    have hstep := step_of_stars_ended hs.mode hstar hslash
    cases hends : s.endsAlternative c with
    | false =>
      rw [hends] at hmode hstep
      refine ⟨s.endStars many false, hmode, hstep, ?_, ?_, fun _ => ?_⟩
      · simp [endStars, push, hends, Stance.starTokens]
      · simp [endStars, push]
      · simp [endStars, push, Stance.next]
    | true =>
      rw [hends] at hmode hstep
      refine ⟨s.endStars many true, hmode, hstep, ?_, ?_, fun h => absurd h (by simp [hends])⟩
      · cases many <;> cases h : s.segmentStart <;>
          simp [endStars, push, hends, h, Stance.finalTokens, Stance.mayBeSegment, Stance.starTokens]
      · unfold endStars push
        split_ifs <;> rfl

theorem textStep_plain (hstar : c ≠ '*') (hslash : c ≠ '/') (hc : (Lexeme.plain c).Genuine)
    (hbrace : ¬ s.IsBrace (.plain c)) : s.textStep c = s.push (Lexeme.plain c).token := by
  obtain ⟨hbackslash, hbracket⟩ := hc
  by_cases hquestion : c = '?'
  · subst hquestion
    rfl
  have hopening : c ≠ '\x7b' := fun hc => hbrace (.inl (congrArg _ hc))
  have hgroups : c = ',' ∨ c = '\x7d' → s.groups = [] := fun hc => by
    by_contra hopen
    exact hbrace (.inr ⟨hopen, hc.imp (congrArg _) (congrArg _)⟩)
  rw [Lexeme.token_plain hquestion]
  exact textStep_literal (by simp [*]) hgroups

/-- A lexeme by itself gives its token. -/
theorem exists_run_of_text (hs : s.mode = .text) (hl : l.Genuine) (hbrace : ¬ s.IsBrace l) (hstar : l ≠ .plain '*')
    (hslash : l ≠ .plain '/') : ∃ offset, run s l.text = .ok { s.push l.token with offset } := by
  cases l with
  | plain c =>
    refine ⟨s.offset + c.utf8Size, ?_⟩
    have hc : c ≠ '*' ∧ c ≠ '/' := ⟨by simpa using hstar, by simpa using hslash⟩
    rw [Lexeme.text, run_singleton, step_of_text hs, textStep_plain hc.1 hc.2 hl hbrace]
    rfl
  | escape c =>
    refine ⟨s.offset + '\\'.utf8Size + c.utf8Size, run_cons_eq_ok_iff.mpr ⟨_, step_of_text hs, ?_⟩⟩
    rw [run_singleton, step_of_escaped rfl]
    rfl
  | bracket text negated items => exact hl.2.2 s hs

theorem run_star (hs : s.Stands st) :
    ∃ t, run s ['*'] = .ok t ∧ s.Reads [] (st.next (.lexeme (.plain '*'))) t := by
  obtain ⟨stars, start⟩ := st
  rw [run_singleton]
  cases stars with
  | none => exact ⟨_, step_star_of_text hs.mode, ⟨rfl, hs.start⟩, rfl, rfl⟩
  | some many => exact ⟨_, step_star_of_stars hs.mode, ⟨rfl, hs.start⟩, rfl, rfl⟩

theorem run_separator (hs : s.Stands st) : ∃ t, run s ['/'] = .ok t ∧
    s.Reads (if st.mayBeSegment then [.anyDirectories] else st.starTokens ++ [.separator]) ⟨none, true⟩ t := by
  obtain ⟨stars, start⟩ := st
  rw [run_singleton]
  cases stars with
  | none => exact ⟨_, step_of_text hs.mode, ⟨hs.mode, rfl⟩, rfl, rfl⟩
  | some many =>
    have hmay : (Stance.mk (some many) start).mayBeSegment = (many && s.segmentStart) := by
      rw [hs.start]
      cases many <;> rfl
    rw [step_separator_of_stars hs.mode, hmay]
    split_ifs with h
    · exact ⟨_, rfl, ⟨rfl, (Bool.and_eq_true_iff.mp h).2⟩, rfl, rfl⟩
    · exact ⟨_, step_of_text rfl, ⟨rfl, rfl⟩, rfl, rfl⟩

theorem endsAlternative_of_lexeme (hc : l = .plain c ∨ c = '\\' ∨ c = '[') (hbrace : ¬ s.IsBrace l) :
    s.endsAlternative c = false := by
  unfold endsAlternative
  rcases hc with rfl | rfl | rfl
  · by_cases hgroups : s.groups = []
    · simp [hgroups]
    · have hc : ¬ (Lexeme.plain c = .plain ',' ∨ Lexeme.plain c = .plain '\x7d') := fun h =>
        hbrace (.inr ⟨hgroups, h⟩)
      obtain ⟨hcomma, hclosing⟩ : c ≠ ',' ∧ c ≠ '\x7d' := by simpa using hc
      simp [hcomma, hclosing]
  · rfl
  · rfl

/-- **A lexeme outside groups gives the tokens of the stance** -/
theorem run_lexeme (hs : s.Stands st) (hl : l.Genuine) (hbrace : ¬ s.IsBrace l) :
    ∃ t, run s l.text = .ok t ∧ s.Reads (st.tokens (.lexeme l)) (st.next (.lexeme l)) t := by
  by_cases hstar : l = .plain '*'
  · subst hstar
    exact run_star hs
  by_cases hslash : l = .plain '/'
  · subst hslash
    exact run_separator hs
  obtain ⟨c, cs, htext, hc⟩ := l.exists_text hl
  obtain ⟨s', hs'⟩ := exists_settles (c := c) hs (by rintro rfl; simp_all) (by rintro rfl; simp_all)
  obtain ⟨offset, ht⟩ := exists_run_of_text hs'.mode hl (by rwa [IsBrace, hs'.groups]) hstar hslash
  have hends := endsAlternative_of_lexeme hc hbrace
  rw [Stance.tokens_of_ne st hstar hslash, Stance.next_of_ne st hstar hslash]
  refine ⟨{ s'.push l.token with offset }, ?_, ⟨rfl, rfl⟩, ?_, hs'.groups⟩
  · rw [htext, run_cons_of_step_eq hs'.step, ← htext, ht]
  · simp [push, hs'.tokens, hends]

/-! ## Groups -/

theorem run_opening (hs : s.Stands st) : ∃ t start, s.step '\x7b' = .ok t ∧ t.Stands (st.next .opening) ∧
    t.tokens = [] ∧
      t.groups = ⟨start, (st.next .opening).start, (st.tokens .opening).reverse ++ s.tokens, []⟩ :: s.groups := by
  obtain ⟨s', hs'⟩ := exists_settles (c := '\x7b') hs (by decide) (by decide)
  have hstands : (s'.past '\x7b' s'.openGroup).Stands (st.next .opening) := ⟨hs'.mode, hs'.start rfl⟩
  refine ⟨s'.past '\x7b' s'.openGroup, s'.offset, hs'.step.trans (step_of_text hs'.mode), hstands, rfl, ?_⟩
  have htokens : s'.tokens = (st.tokens .opening).reverse ++ s.tokens := hs'.tokens
  simp only [past, openGroup, hs'.start rfl, htokens, hs'.groups]

theorem endsAlternative_eq_true (hc : c = ',' ∨ c = '\x7d') {g : OpenGroup} {gs : List OpenGroup}
    (hgroups : s.groups = g :: gs) : s.endsAlternative c = true := by
  rcases hc with rfl | rfl <;> simp [endsAlternative, hgroups]

theorem run_comma (hs : s.Stands st) {g : OpenGroup} {gs : List OpenGroup} (hgroups : s.groups = g :: gs) :
    ∃ t, s.step ',' = .ok t ∧ t.Stands ⟨none, g.segmentStart⟩ ∧ t.tokens = [] ∧
      t.groups = { g with alternatives := (s.tokens.reverse ++ st.finalTokens) :: g.alternatives } :: gs := by
  obtain ⟨s', hs'⟩ := exists_settles (c := ',') hs (by decide) (by decide)
  have htokens := hs'.tokens
  rw [endsAlternative_eq_true (.inl rfl) hgroups, if_pos rfl] at htokens
  refine ⟨s'.past ',' s'.comma, hs'.step.trans (step_of_text hs'.mode), ?_⟩
  simp only [past, comma, hs'.groups, hgroups, htokens, List.reverse_append, List.reverse_reverse]
  exact ⟨⟨hs'.mode, rfl⟩, trivial, trivial⟩

theorem run_closing (hs : s.Stands st) {g : OpenGroup} {gs : List OpenGroup} (hgroups : s.groups = g :: gs) :
    ∃ t, s.step '\x7d' = .ok t ∧ t.Stands ⟨none, false⟩ ∧ t.groups = gs ∧ t.tokens =
      .alternation ((s.tokens.reverse ++ st.finalTokens) :: g.alternatives).reverse :: g.before := by
  obtain ⟨s', hs'⟩ := exists_settles (c := '\x7d') hs (by decide) (by decide)
  have htokens := hs'.tokens
  rw [endsAlternative_eq_true (.inr rfl) hgroups, if_pos rfl] at htokens
  refine ⟨s'.past '\x7d' s'.closeGroup, hs'.step.trans (step_of_text hs'.mode), ?_⟩
  simp only [past, closeGroup, hs'.groups, hgroups, htokens, List.reverse_append, List.reverse_reverse]
  exact ⟨⟨hs'.mode, rfl⟩, trivial, trivial⟩

/-! ## Lexemes without groups -/

theorem run_lexemes : ∀ {ls : List Lexeme} {s : ScanState} {st : Stance}, s.Stands st → s.groups = [] →
    (∀ l ∈ ls, l.Genuine) → .plain '\x7b' ∉ ls → ∃ t, run s (ls.flatMap Lexeme.text) = .ok t ∧
      s.Reads (st.read (ls.map .lexeme)) (st.after (ls.map .lexeme)) t
  | [], s, st, hs, _, _, _ => ⟨s, rfl, hs, rfl, rfl⟩
  | l :: ls, s, st, hs, hgroups, hgenuine, hopening => by
    obtain ⟨hl, hls⟩ := List.forall_mem_cons.mp hgenuine
    obtain ⟨hl', hls'⟩ := not_or.mp (mt List.mem_cons.mpr hopening)
    have hbrace : ¬ s.IsBrace l := by simp [IsBrace, hgroups, Ne.symm hl']
    obtain ⟨t, ht, hread⟩ := run_lexeme hs hl hbrace
    obtain ⟨u, hu, hread'⟩ := run_lexemes hread.stands (hread.groups.trans hgroups) hls hls'
    refine ⟨u, run_append_eq_ok_iff.mpr ⟨t, ht, hu⟩, hread'.stands, ?_, hread'.groups.trans hread.groups⟩
    rw [hread'.tokens, hread.tokens, List.map_cons, Stance.read, List.reverse_append, List.append_assoc]

theorem finalTokens_of_stands (hs : s.Stands st) : s.finalTokens = st.finalTokens.reverse ++ s.tokens := by
  obtain ⟨stars, start⟩ := st
  obtain rfl : s.segmentStart = start := hs.start
  unfold finalTokens
  rw [hs.mode]
  cases stars with
  | none => rfl
  | some many =>
    cases many <;> cases s.segmentStart <;>
      simp [Stance.mode, Stance.finalTokens, Stance.mayBeSegment, Stance.starTokens]

theorem finish_of_stands (hs : s.Stands st) (hgroups : s.groups = []) :
    s.finish = .ok ⟨s.tokens.reverse ++ st.finalTokens, s.doubleStar⟩ := by
  have htokens : s.finalTokens.reverse = s.tokens.reverse ++ st.finalTokens := by
    rw [finalTokens_of_stands hs, List.reverse_append, List.reverse_reverse]
  have hmode : ∀ k, s.mode ≠ .inClass k := by
    rw [hs.mode, Stance.mode]
    cases st.stars <;> simp
  exact finish_eq_ok_iff.mpr ⟨⟨hgroups, hmode⟩, by rw [htokens]⟩

end ScanState

/-- The stance at the start of a text. -/
def Stance.initial : Stance := ⟨none, true⟩

/-- The tokens of a whole sequence of pieces. -/
def readPieces (ps : List Piece) : List Token := Stance.initial.readAll ps

/-- **Lexemes without groups are scanned as they are read** -/
theorem scan_lexemes {ls : List Lexeme} (hgenuine : ∀ l ∈ ls, l.Genuine) (hopening : .plain '\x7b' ∉ ls) :
    ∃ doubleStar, scan (ls.flatMap Lexeme.text) = .ok ⟨readPieces (ls.map .lexeme), doubleStar⟩ := by
  have hinitial : ({} : ScanState).Stands Stance.initial := ⟨rfl, rfl⟩
  obtain ⟨s, hs, hread⟩ := ScanState.run_lexemes hinitial rfl hgenuine hopening
  refine ⟨s.doubleStar, scan_eq_ok_iff.mpr ⟨s, hs, ?_⟩⟩
  rw [ScanState.finish_of_stands hread.stands hread.groups, hread.tokens]
  simp [readPieces, Stance.readAll]

end PathOwners.Glob
