import PathOwners.Proofs.Glob.ClassMembers

/-!
# Balanced bodies

A body is scanned part by part: an escape is one part, and so is a class that is closed. `ScansTo` goes through the
parts with a stack of the places of the open braces, and reads no tokens. By it, a body is `Balanced` if all classes it
comes to are closed, no range in them ends before it starts, and no brace is open at the end; and a body `Blames` an
error if it comes to what the error tells of.

* **Balance** (`scan_balanced`): a scan succeeds exactly for the balanced bodies, and it fails with an error exactly if
  the body blames this error.

Both come from the state in which a scan stands between two parts (`ScansTo.exists_isAt`), and from the two ways in
which going through the parts ends (`ScansTo.end_cases`): at the end of the body, or in a class that is not closed.
-/

namespace PathOwners.Glob

open Text

/-! ## Bodies part by part -/

/-- How far a text is scanned: what is left of it, and the places of the open braces, the innermost first. A brace that
closes nothing is a plain character. -/
inductive ScansTo (text : List Char) : List Char → List Nat → Prop
  | start : ScansTo text text []
  | escape {c : Char} {rest : List Char} {braces : List Nat} :
      ScansTo text ('\\' :: c :: rest) braces → ScansTo text rest braces
  | charClass {body rest : List Char} {braces : List Nat} :
      ScansTo text ('[' :: body) braces → Closes body rest → ScansTo text rest braces
  | opening {read rest : List Char} {braces : List Nat} :
      ScansTo text ('\x7b' :: rest) braces → text = read ++ '\x7b' :: rest →
        ScansTo text rest (byteLength read :: braces)
  | closing {rest : List Char} {braces : List Nat} :
      ScansTo text ('\x7d' :: rest) braces → ScansTo text rest braces.tail
  | other {c : Char} {rest : List Char} {braces : List Nat} :
      ScansTo text (c :: rest) braces → c ∉ ['\\', '[', '\x7b', '\x7d'] → ScansTo text rest braces

/-- Scanning a text comes to a class, with `body` behind its bracket. -/
def MeetsClass (text body : List Char) : Prop := ∃ braces, ScansTo text ('[' :: body) braces

/-- Scanning a text comes to its end, with these braces open. A backslash at the end escapes nothing. -/
def MeetsEnd (text : List Char) (braces : List Nat) : Prop := ScansTo text [] braces ∨ ScansTo text ['\\'] braces

/-- Every class is closed, every range is in order, and every brace is closed. -/
structure Balanced (text : List Char) : Prop where
  closed : ∀ body, MeetsClass text body → ∃ rest, Closes body rest
  ordered : ∀ body first last, MeetsClass text body → MeetsRange body first last → first ≤ last
  matched : ∀ braces, MeetsEnd text braces → braces = []

/-- A text is wrong as an error tells: a class is open at the end, after ranges that are all in order; a range ends
before it starts; or a brace is open at the end, with no open brace behind it. -/
def Blames (text : List Char) : Error → Prop
  | .unclosedClass offset => ∃ read body, text = read ++ '[' :: body ∧ offset = byteLength read ∧ MeetsClass text body ∧
      (¬∃ rest, Closes body rest) ∧ ∀ first last, MeetsRange body first last → first ≤ last
  | .invalidRange first last => ∃ body, MeetsClass text body ∧ MeetsRange body first last ∧ last < first
  | .unclosedBrace offset => ∃ braces, MeetsEnd text (offset :: braces)
  | .tooDeep _ => False

variable {text body rest : List Char} {braces : List Nat} {e : Error}

/-! ## The end of a body -/

/-- What is left to scan is the end of the text. -/
theorem ScansTo.suffix (h : ScansTo text rest braces) : rest <:+ text := by
  induction h with
  | start => exact List.suffix_rfl
  | escape _ ih => exact ((List.suffix_cons ..).trans (List.suffix_cons ..)).trans ih
  | charClass _ hcloses ih => exact ((List.suffix_cons ..).trans hcloses.suffix).trans ((List.suffix_cons ..).trans ih)
  | opening _ _ ih | closing _ ih | other _ _ ih => exact (List.suffix_cons ..).trans ih

theorem MeetsClass.exists_read (h : MeetsClass text body) : ∃ read, text = read ++ '[' :: body := by
  obtain ⟨braces, h⟩ := h
  obtain ⟨read, hread⟩ := h.suffix
  exact ⟨read, hread.symm⟩

/-- What holds where scanning a text ends or comes to a class that is not closed, and holds before a part if it does
behind it, holds wherever scanning the text comes to. -/
@[elab_as_elim]
theorem ScansTo.part_induction {motive : ∀ rest braces, ScansTo text rest braces → Prop}
    (nil : ∀ braces h, motive [] braces h)
    (dangling : ∀ braces h, motive ['\\'] braces h)
    (openClass : ∀ body braces h, (¬∃ rest, Closes body rest) → motive ('[' :: body) braces h)
    (escape : ∀ c rest braces h, motive rest braces h.escape → motive ('\\' :: c :: rest) braces h)
    (charClass : ∀ body rest braces h hcloses, motive rest braces (h.charClass hcloses) → motive ('[' :: body) braces h)
    (opening : ∀ read rest braces h htext, motive rest (byteLength read :: braces) (h.opening htext) →
      motive ('\x7b' :: rest) braces h)
    (closing : ∀ rest braces h, motive rest braces.tail h.closing → motive ('\x7d' :: rest) braces h)
    (other : ∀ c rest braces h hc, motive rest braces (.other h hc) → motive (c :: rest) braces h) :
    ∀ {rest : List Char} {braces : List Nat} (h : ScansTo text rest braces), motive rest braces h
  | [], braces, h => nil braces h
  | c :: rest, braces, h => by
    have ih : ∀ {rest' : List Char} {braces : List Nat} (h : ScansTo text rest' braces), rest'.length ≤ rest.length →
        motive rest' braces h := fun h _ =>
      h.part_induction nil dangling openClass escape charClass opening closing other
    by_cases hbackslash : c = '\\'
    · subst hbackslash
      cases rest with
      | nil => exact dangling braces h
      | cons d rest => exact escape d rest braces h (ih _ (Nat.le_succ _))
    by_cases hbracket : c = '['
    · subst hbracket
      by_cases hclosed : ∃ after, Closes rest after
      · obtain ⟨after, hcloses⟩ := hclosed
        have hlength : after.length < rest.length := hcloses.suffix.length_le
        exact charClass rest after braces h hcloses (ih _ (Nat.le_of_lt hlength))
      · exact openClass rest braces h hclosed
    by_cases hopening : c = '\x7b'
    · subst hopening
      obtain ⟨read, hread⟩ := h.suffix
      exact opening read rest braces h hread.symm (ih _ (Nat.le_refl _))
    by_cases hclosing : c = '\x7d'
    · subst hclosing
      exact closing rest braces h (ih _ (Nat.le_refl _))
    · exact other c rest braces h (by simp [*]) (ih _ (Nat.le_refl _))
  termination_by rest => rest.length

/-- **Scanning a text comes to an end**, or to a class that is not closed. -/
theorem ScansTo.end_cases (h : ScansTo text rest braces) :
    (∃ braces, MeetsEnd text braces) ∨ ∃ body, MeetsClass text body ∧ ¬∃ rest, Closes body rest := by
  induction h using ScansTo.part_induction with
  | nil braces h => exact .inl ⟨braces, .inl h⟩
  | dangling braces h => exact .inl ⟨braces, .inr h⟩
  | openClass body braces h hclosed => exact .inr ⟨body, ⟨braces, h⟩, hclosed⟩
  | escape _ _ _ _ ih | charClass _ _ _ _ _ ih | opening _ _ _ _ _ ih => exact ih
  | closing _ _ _ ih | other _ _ _ _ _ ih => exact ih

/-- A text is balanced if nothing is wrong with it. -/
theorem balanced_of_not_blames (h : ∀ e, ¬Blames text e) : Balanced text := by
  have hordered : ∀ body first last, MeetsClass text body → MeetsRange body first last → first ≤ last := by
    intro body first last hclass hmeets
    by_contra hle
    exact h (.invalidRange first last) ⟨body, hclass, hmeets, Char.not_le.mp hle⟩
  refine ⟨fun body hclass => ?_, hordered, fun braces hend => ?_⟩
  · by_contra hclosed
    obtain ⟨read, htext⟩ := hclass.exists_read
    exact h (.unclosedClass (byteLength read))
      ⟨read, body, htext, rfl, hclass, hclosed, fun first last => hordered body first last hclass⟩
  · cases braces with
    | nil => rfl
    | cons offset braces => exact (h (.unclosedBrace offset) ⟨braces, hend⟩).elim

theorem Balanced.meetsEnd (h : Balanced text) : MeetsEnd text [] := by
  have hstart : ScansTo text text [] := .start
  rcases hstart.end_cases with ⟨braces, hend⟩ | ⟨body, hclass, hclosed⟩
  · exact h.matched braces hend ▸ hend
  · exact absurd (h.closed body hclass) hclosed

/-! ## Open braces of a scan -/

/-- The places of the open braces after a character outside classes that is not escaped. -/
def bracesAfter (c : Char) (offset : Nat) (braces : List Nat) : List Nat :=
  if c = '\x7b' then offset :: braces else if c = '\x7d' then braces.tail else braces

namespace ScanState

/-- The places of the open braces, the innermost first. -/
def openBraces (s : ScanState) : List Nat := s.groups.map OpenGroup.start

variable {s t : ScanState}

theorem openBraces_textStep (s : ScanState) (c : Char) :
    (s.textStep c).openBraces = bracesAfter c s.offset s.openBraces := by
  unfold textStep
  split <;> try rfl
  -- what is left is a comma, a closing brace, and a character that means nothing else
  · unfold comma push
    split <;> simp [openBraces, bracesAfter, *]
  · unfold closeGroup push
    split <;> simp [openBraces, bracesAfter, *]
  · next hopening _ hclosing =>
    rw [bracesAfter, if_neg hopening, if_neg hclosing]
    rfl

theorem openBraces_starStep (s : ScanState) (many : Bool) (c : Char) :
    (s.starStep many c).openBraces = bracesAfter c s.offset s.openBraces := by
  unfold starStep
  split_ifs with hstar hslash
  · subst hstar
    rfl
  · obtain rfl : c = '/' := by simp_all
    rfl
  · exact openBraces_textStep ..
  · exact openBraces_textStep ..

/-- Between two parts of a text a scan takes every character. -/
theorem Between.exists_step (hs : s.Between) (c : Char) : ∃ t, s.step c = .ok t ∧
    t.offset = s.offset + c.utf8Size ∧ t.openBraces = bracesAfter c s.offset s.openBraces := by
  rcases hs with hs | ⟨many, hs⟩
  · exact ⟨_, step_of_text hs, rfl, openBraces_textStep s c⟩
  · exact ⟨_, step_of_stars hs, rfl, openBraces_starStep s many c⟩

/-- A bracket between two parts of a text begins a class. -/
theorem Between.within_of_step (hs : s.Between) (hstep : s.step '[' = .ok t) :
    t.within { start := s.offset } t.offset = t := by
  have hmode : t.mode = .inClass { start := s.offset } := mode_of_step_between hs hstep
  rw [within, ← hmode]

theorem finish_of_openBraces_nil (hmode : ∀ k, s.mode ≠ .inClass k) (h : s.openBraces = []) :
    ∃ scanned, s.finish = .ok scanned :=
  ⟨_, finish_eq_ok_iff.mpr ⟨⟨List.map_eq_nil_iff.mp h, hmode⟩, rfl⟩⟩

theorem finish_of_openBraces_cons {offset : Nat} (hmode : ∀ k, s.mode ≠ .inClass k)
    (h : s.openBraces = offset :: braces) : s.finish = .error (.unclosedBrace offset) := by
  unfold finish
  split
  · next k hk => exact absurd hk (hmode k)
  · next hgroups _ => simp_all [ScanState.openBraces]
  · next hgroups _ => simp_all [ScanState.openBraces]

end ScanState

/-! ## Between two parts -/

/-- A scan of a text stands between two parts, with `rest` left to scan. -/
structure ScanState.IsAt (s : ScanState) (text rest : List Char) (braces : List Nat) : Prop where
  between : s.Between
  offset : s.offset + byteLength rest = byteLength text
  openBraces : s.openBraces = braces
  outcome : scan text = s.outcome rest

namespace ScanState.IsAt

variable {s : ScanState} {c : Char} {read : List Char}

theorem offset_eq (h : s.IsAt text rest braces) (htext : text = read ++ rest) : s.offset = byteLength read := by
  have hoffset := h.offset
  rw [htext, byteLength_append] at hoffset
  omega

/-- The state after a character, which the mode of the scan tells more of. -/
theorem exists_step (h : s.IsAt text (c :: rest) braces) : ∃ t, s.step c = .ok t ∧
    t.offset + byteLength rest = byteLength text ∧ t.openBraces = bracesAfter c s.offset braces ∧
    scan text = t.outcome rest := by
  obtain ⟨t, hstep, hoffset, hbraces⟩ := h.between.exists_step c
  refine ⟨t, hstep, ?_, h.openBraces ▸ hbraces, h.outcome.trans (outcome_of_step hstep)⟩
  rw [hoffset, ← h.offset, byteLength_cons, Nat.add_assoc]

/-- A character that is a part by itself. -/
theorem step (h : s.IsAt text (c :: rest) braces) (hbackslash : c ≠ '\\') (hbracket : c ≠ '[') :
    ∃ t : ScanState, t.IsAt text rest (bracesAfter c s.offset braces) := by
  obtain ⟨t, hstep, hoffset, hbraces, houtcome⟩ := h.exists_step
  have hmode := mode_of_step_between h.between hstep
  rw [if_neg hbackslash, if_neg hbracket] at hmode
  exact ⟨t, hmode, hoffset, hbraces, houtcome⟩

/-- A backslash makes the next character a part with it. -/
theorem backslash (h : s.IsAt text ('\\' :: rest) braces) : ∃ t : ScanState, t.mode = .escaped ∧
    t.offset + byteLength rest = byteLength text ∧ t.openBraces = braces ∧ scan text = t.outcome rest := by
  obtain ⟨t, hstep, hoffset, hbraces, houtcome⟩ := h.exists_step
  exact ⟨t, mode_of_step_between h.between hstep, hoffset, hbraces, houtcome⟩

/-- A bracket begins a class. -/
theorem bracket (h : s.IsAt text ('[' :: body) braces) : ∃ (t : ScanState) (n : Nat),
    n + byteLength body = byteLength text ∧ t.openBraces = braces ∧
    scan text = (t.within { start := s.offset } n).outcome body := by
  obtain ⟨t, hstep, hoffset, hbraces, houtcome⟩ := h.exists_step
  exact ⟨t, t.offset, hoffset, hbraces, (h.between.within_of_step hstep).symm ▸ houtcome⟩

theorem escape (h : s.IsAt text ('\\' :: c :: rest) braces) : ∃ t : ScanState, t.IsAt text rest braces := by
  obtain ⟨t, hmode, hoffset, hbraces, houtcome⟩ := h.backslash
  have hstep := @step_of_escaped t c hmode
  refine ⟨t.past c (t.push (.literal c)), .inl rfl, ?_, hbraces, houtcome.trans (outcome_of_step hstep)⟩
  rw [← hoffset, byteLength_cons, ← Nat.add_assoc]
  rfl

theorem charClass (h : s.IsAt text ('[' :: body) braces) (hcloses : Closes body rest) :
    ∃ t : ScanState, t.IsAt text rest braces := by
  obtain ⟨t, n, hn, hbraces, houtcome⟩ := h.bracket
  obtain ⟨negated, items, m, hm, houtcome'⟩ := outcome_of_closes t s.offset n hcloses
  exact ⟨t.closed (.charClass negated items) m, .inl rfl, hm.trans hn, hbraces, houtcome.trans houtcome'⟩

end ScanState.IsAt

/-- **A scan goes from part to part.** -/
theorem ScansTo.exists_isAt (h : ScansTo text rest braces) : ∃ s : ScanState, s.IsAt text rest braces := by
  induction h with
  | start => exact ⟨{}, .inl rfl, Nat.zero_add _, rfl, rfl⟩
  | escape _ ih =>
    obtain ⟨s, hs⟩ := ih
    exact hs.escape
  | charClass _ hcloses ih =>
    obtain ⟨s, hs⟩ := ih
    exact hs.charClass hcloses
  | opening _ htext ih =>
    obtain ⟨s, hs⟩ := ih
    rw [← hs.offset_eq htext]
    exact hs.step (by decide) (by decide)
  | closing _ ih =>
    obtain ⟨s, hs⟩ := ih
    exact hs.step (by decide) (by decide)
  | @other c _ braces _ hc ih =>
    obtain ⟨s, hs⟩ := ih
    simp only [List.mem_cons, List.not_mem_nil, or_false, not_or] at hc
    obtain ⟨hbackslash, hbracket, hopening, hclosing⟩ := hc
    have hbraces : bracesAfter c s.offset braces = braces := by rw [bracesAfter, if_neg hopening, if_neg hclosing]
    exact hbraces ▸ hs.step hbackslash hbracket

/-! ## What a body comes to -/

/-- At the end of a text a scan is over. -/
theorem MeetsEnd.exists_finish (h : MeetsEnd text braces) : ∃ s : ScanState, (∀ k, s.mode ≠ .inClass k) ∧
    s.openBraces = braces ∧ scan text = s.finish := by
  rcases h with h | h
  · obtain ⟨s, hs⟩ := h.exists_isAt
    exact ⟨s, hs.between.ne_inClass, hs.openBraces, hs.outcome.trans s.outcome_nil⟩
  · obtain ⟨s, hs⟩ := h.exists_isAt
    obtain ⟨t, hmode, -, hbraces, houtcome⟩ := hs.backslash
    exact ⟨t, by simp [hmode], hbraces, houtcome.trans t.outcome_nil⟩

/-- A scan comes to a class where the text does. -/
theorem MeetsClass.exists_outcome {read : List Char} (h : MeetsClass text body) (htext : text = read ++ '[' :: body) :
    ∃ (s : ScanState) (n : Nat), scan text = (s.within { start := byteLength read } n).outcome body := by
  obtain ⟨braces, h⟩ := h
  obtain ⟨s, hs⟩ := h.exists_isAt
  obtain ⟨t, n, -, -, houtcome⟩ := hs.bracket
  exact ⟨t, n, hs.offset_eq htext ▸ houtcome⟩

/-- A scan fails as the text blames it. -/
theorem Blames.scan_eq (h : Blames text e) : scan text = .error e := by
  cases e with
  | unclosedClass offset =>
    obtain ⟨read, body, htext, rfl, hclass, hclosed, hordered⟩ := h
    obtain ⟨s, n, houtcome⟩ := hclass.exists_outcome htext
    rw [houtcome, outcome_of_unclosed _ _ _ hclosed hordered]
  | invalidRange first last =>
    obtain ⟨body, hclass, hmeets, hlt⟩ := h
    obtain ⟨read, htext⟩ := hclass.exists_read
    obtain ⟨s, n, houtcome⟩ := hclass.exists_outcome htext
    rw [houtcome, outcome_of_meetsRange _ _ _ hmeets hlt]
  | unclosedBrace offset =>
    obtain ⟨braces, hend⟩ := h
    obtain ⟨s, hmode, hbraces, hfinish⟩ := hend.exists_finish
    rw [hfinish, ScanState.finish_of_openBraces_cons hmode hbraces]
  | tooDeep limit => exact h.elim

/-- A scan that meets the end of its text with no open brace succeeds. -/
theorem MeetsEnd.exists_scan (h : MeetsEnd text []) : ∃ scanned, scan text = .ok scanned := by
  obtain ⟨s, hmode, hbraces, hfinish⟩ := h.exists_finish
  rw [hfinish]
  exact ScanState.finish_of_openBraces_nil hmode hbraces

/-- Nothing is wrong with a text that is scanned. -/
theorem balanced_of_scan {scanned : Scanned} (h : scan text = .ok scanned) : Balanced text := by
  refine balanced_of_not_blames fun e hblames => ?_
  rw [hblames.scan_eq] at h
  cases h

/-- **A scan succeeds exactly for the balanced texts, and fails exactly with the error that the text blames.** -/
theorem scan_balanced (text : List Char) : ((∃ scanned, scan text = .ok scanned) ↔ Balanced text) ∧
    ∀ e, scan text = .error e ↔ Blames text e := by
  have hok : Balanced text → ∃ scanned, scan text = .ok scanned := fun h => h.meetsEnd.exists_scan
  refine ⟨⟨fun ⟨_, h⟩ => balanced_of_scan h, hok⟩, fun e => ⟨fun h => ?_, Blames.scan_eq⟩⟩
  by_cases hblames : ∃ e', Blames text e'
  · obtain ⟨e', hblames⟩ := hblames
    obtain rfl : e = e' := Except.error.inj (h.symm.trans hblames.scan_eq)
    exact hblames
  · obtain ⟨scanned, hscan⟩ := hok (balanced_of_not_blames (not_exists.mp hblames))
    rw [h] at hscan
    cases hscan

example : scan ['é', '[', ']', '-'] = .error (.unclosedClass 2) := rfl

end PathOwners.Glob
