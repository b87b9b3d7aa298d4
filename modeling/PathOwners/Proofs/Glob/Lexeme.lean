import PathOwners.Glob.Body
import PathOwners.Proofs.Glob.Steps

/-!
# Lexemes of a body

A body is cut into lexemes: a class with its brackets, a backslash with the character that it escapes, or a character by
itself (`lexemes`). A body that scans can be cut (`exists_lexemes`), its lexemes make up the body (`text_of_lexemes`),
and each class among them means the same wherever it stands (`genuine_of_lexemes`). In the normal form of a pattern no
lexeme changes what is escaped in the text after it (`settled_of_lexemes`).
-/

namespace PathOwners.Glob

/-! ## Cutting a body -/

/-- A part of a body that is scanned as one. -/
inductive Lexeme where
  /-- A character by itself. -/
  | plain (c : Char)
  /-- A backslash and the character that it escapes. -/
  | escape (c : Char)
  /-- A class, with its brackets. -/
  | bracket (text : List Char) (negated : Bool) (items : List ClassItem)
  deriving DecidableEq, Repr

/-- The characters of a lexeme. -/
def Lexeme.text : Lexeme → List Char
  | .plain c => [c]
  | .escape c => ['\\', c]
  | .bracket text _ _ => text

/-- The token of a lexeme, unless that depends on what stands around it. -/
def Lexeme.token : Lexeme → Token
  | .plain '?' => .question
  | .plain c => .literal c
  | .escape c => .literal c
  | .bracket _ negated items => .charClass negated items

/-- Where a body is cut: between lexemes, or in one whose first characters are read. -/
inductive Cutting where
  | between
  | escaped
  | inClass (k : OpenClass) (read : List Char)

/-- The lexemes of what is left of a body. -/
def Cutting.lexemes : Cutting → List Char → Option (List Lexeme)
  | .between, [] => some []
  | .between, c :: cs =>
    if c = '\\' then Cutting.escaped.lexemes cs
    else if c = '[' then (Cutting.inClass { start := 0 } ['[']).lexemes cs
    else (Cutting.between.lexemes cs).map (.plain c :: ·)
  | .escaped, [] => none
  | .escaped, c :: cs => (Cutting.between.lexemes cs).map (.escape c :: ·)
  | .inClass _ _, [] => none
  | .inClass k read, c :: cs =>
    match k.next c with
    | none => none
    | some (.stay k') => (Cutting.inClass k' (read ++ [c])).lexemes cs
    | some (.close negated items) => (Cutting.between.lexemes cs).map (.bracket (read ++ [c]) negated items :: ·)

/-- The lexemes of a body, unless it ends in a class or in an escape. -/
def lexemes (body : List Char) : Option (List Lexeme) := Cutting.between.lexemes body

/-- The cuts that `Cutting.lexemes` makes. -/
inductive Cuts : Cutting → List Char → List Lexeme → Prop
  | nil : Cuts .between [] []
  | backslash {cs : List Char} {ls : List Lexeme} : Cuts .escaped cs ls → Cuts .between ('\\' :: cs) ls
  | opening {cs : List Char} {ls : List Lexeme} :
      Cuts (.inClass { start := 0 } ['[']) cs ls → Cuts .between ('[' :: cs) ls
  | plain {c : Char} {cs : List Char} {ls : List Lexeme} : c ≠ '\\' → c ≠ '[' → Cuts .between cs ls →
      Cuts .between (c :: cs) (.plain c :: ls)
  | escape {c : Char} {cs : List Char} {ls : List Lexeme} : Cuts .between cs ls →
      Cuts .escaped (c :: cs) (.escape c :: ls)
  | stay {k k' : OpenClass} {read : List Char} {c : Char} {cs : List Char} {ls : List Lexeme} :
      k.next c = some (.stay k') → Cuts (.inClass k' (read ++ [c])) cs ls → Cuts (.inClass k read) (c :: cs) ls
  | close {k : OpenClass} {read : List Char} {c : Char} {negated : Bool} {items : List ClassItem} {cs : List Char}
      {ls : List Lexeme} : k.next c = some (.close negated items) → Cuts .between cs ls →
      Cuts (.inClass k read) (c :: cs) (.bracket (read ++ [c]) negated items :: ls)

theorem cuts_of_lexemes : ∀ {cut : Cutting} {cs : List Char} {ls : List Lexeme},
    cut.lexemes cs = some ls → Cuts cut cs ls
  | .between, [], ls, h => by
    obtain rfl : [] = ls := Option.some.inj h
    exact .nil
  | .between, c :: cs, ls, h => by
    rw [Cutting.lexemes] at h
    split_ifs at h with hbackslash hbracket
    · exact hbackslash ▸ .backslash (cuts_of_lexemes h)
    · exact hbracket ▸ .opening (cuts_of_lexemes h)
    · obtain ⟨ls', hls, rfl⟩ := Option.map_eq_some_iff.mp h
      exact .plain hbackslash hbracket (cuts_of_lexemes hls)
  | .escaped, c :: cs, ls, h => by
    obtain ⟨ls', hls, rfl⟩ := Option.map_eq_some_iff.mp h
    exact .escape (cuts_of_lexemes hls)
  | .inClass k read, c :: cs, ls, h => by
    rw [Cutting.lexemes] at h
    split at h
    · cases h
    · next hnext => exact .stay hnext (cuts_of_lexemes h)
    · next hnext =>
      obtain ⟨ls', hls, rfl⟩ := Option.map_eq_some_iff.mp h
      exact .close hnext (cuts_of_lexemes hls)

/-! ## The text of the lexemes -/

/-- The characters that a cut has read of its lexeme. -/
def Cutting.read : Cutting → List Char
  | .between => []
  | .escaped => ['\\']
  | .inClass _ read => read

theorem Cuts.text {cut : Cutting} {cs : List Char} {ls : List Lexeme} (h : Cuts cut cs ls) :
    ls.flatMap Lexeme.text = cut.read ++ cs := by
  induction h with
  | nil => rfl
  | backslash _ ih => exact ih
  | opening _ ih => exact ih
  | plain _ _ _ ih => rw [List.flatMap_cons, ih]; rfl
  | escape _ ih => rw [List.flatMap_cons, ih]; rfl
  | stay _ _ ih => rw [ih]; exact List.append_assoc _ _ _
  | close _ _ ih => rw [List.flatMap_cons, ih]; exact List.append_assoc _ _ _

/-- The lexemes of a body make it up. -/
theorem text_of_lexemes {body : List Char} {ls : List Lexeme} (h : lexemes body = some ls) :
    ls.flatMap Lexeme.text = body := (cuts_of_lexemes h).text

/-! ## Escapes -/

/-- A text that does not escape the character after it: the normal form of what follows stands by itself. -/
def Settled (text : List Char) : Prop := ∀ rest, normalize (text ++ rest) = text ++ normalize rest

section Settled

variable {c : Char} {cs text : List Char}

theorem settled_nil : Settled [] := fun _ => rfl

theorem Settled.append {text' : List Char} (h : Settled text) (h' : Settled text') : Settled (text ++ text') := by
  intro rest
  rw [List.append_assoc, h, h', List.append_assoc]

theorem settled_singleton (h : c ≠ '\\') : Settled [c] := by
  intro rest
  rw [List.singleton_append, normalize.eq_3 _ _ (fun d ds hc _ => h hc), if_neg h, List.singleton_append]

theorem settled_of_not_mem (h : '\\' ∉ text) : Settled text := by
  induction text with
  | nil => exact settled_nil
  | cons c text ih =>
    obtain ⟨hc, htext⟩ := not_or.mp (List.mem_cons.not.mp h)
    exact (settled_singleton (Ne.symm hc)).append (ih htext)

theorem settled_escape (h : isEscapable c = true) : Settled ['\\', c] := by
  intro rest
  simp [normalize, h]

theorem Settled.normalize (h : Settled text) : Glob.normalize text = text := by
  simpa [Glob.normalize] using h []

/-- What follows a settled part of a text in normal form is in normal form. -/
theorem Settled.tail (h : Settled text) (hcs : Glob.normalize (text ++ cs) = text ++ cs) : Glob.normalize cs = cs :=
  List.append_cancel_left ((h cs).symm.trans hcs)

/-- In a normal form, a backslash escapes a character that can be escaped. -/
theorem isEscapable_of_normalize (h : Glob.normalize ('\\' :: c :: cs) = '\\' :: c :: cs) : isEscapable c = true := by
  by_contra hc
  simp [Glob.normalize, hc] at h

end Settled

/-- What a cut has read is settled, but for a backslash that escapes the next character. -/
def Cutting.Settled : Cutting → Prop
  | .between | .escaped => True
  | .inClass k read => if k.pending then ∃ front, read = front ++ ['\\'] ∧ Glob.Settled front else Glob.Settled read

/-- The text from the last settled place on. -/
def Cutting.unsettled : Cutting → List Char → List Char
  | .between, cs => cs
  | .escaped, cs => '\\' :: cs
  | .inClass k _, cs => if k.pending then '\\' :: cs else cs

section Unsettled

variable {k k' : OpenClass} {c : Char} {cs read : List Char}

theorem unsettled_of_stay (read' : List Char) (hnext : k.next c = some (.stay k'))
    (h : normalize ((Cutting.inClass k read).unsettled (c :: cs)) = (Cutting.inClass k read).unsettled (c :: cs)) :
    normalize ((Cutting.inClass k' read').unsettled cs) = (Cutting.inClass k' read').unsettled cs := by
  have hpending := OpenClass.pending_of_next hnext
  simp only [Cutting.unsettled] at h ⊢
  cases hk : k.pending with
  | true =>
    have hk' : k'.pending = false := by simpa [hk] using hpending
    rw [hk, if_pos rfl] at h
    rw [hk', if_neg Bool.false_ne_true]
    exact (settled_escape (isEscapable_of_normalize h)).tail h
  | false =>
    rw [hk, if_neg Bool.false_ne_true] at h
    by_cases hc : c = '\\'
    · rwa [hpending.mpr ⟨hk, hc⟩, if_pos rfl, ← hc]
    · have hk' : k'.pending = false := by simpa [hk, hc] using hpending
      rw [hk', if_neg Bool.false_ne_true]
      exact (settled_singleton hc).tail h

theorem unsettled_of_close {negated : Bool} {items : List ClassItem} (hnext : k.next c = some (.close negated items))
    (h : normalize ((Cutting.inClass k read).unsettled (c :: cs)) = (Cutting.inClass k read).unsettled (c :: cs)) :
    normalize cs = cs := by
  obtain ⟨hk, rfl⟩ := OpenClass.eq_bracket_of_next hnext
  rw [Cutting.unsettled, hk, if_neg Bool.false_ne_true] at h
  exact (settled_singleton (c := ']') (by decide)).tail h

theorem settled_of_stay (hnext : k.next c = some (.stay k')) (hread : (Cutting.inClass k read).Settled)
    (h : normalize ((Cutting.inClass k read).unsettled (c :: cs)) = (Cutting.inClass k read).unsettled (c :: cs)) :
    (Cutting.inClass k' (read ++ [c])).Settled := by
  have hpending := OpenClass.pending_of_next hnext
  simp only [Cutting.Settled] at hread ⊢
  cases hk : k.pending with
  | true =>
    obtain ⟨front, rfl, hfront⟩ : ∃ front, read = front ++ ['\\'] ∧ Settled front := by simpa [hk] using hread
    have hk' : k'.pending = false := by simpa [hk] using hpending
    rw [Cutting.unsettled, hk, if_pos rfl] at h
    rw [hk', if_neg Bool.false_ne_true, List.append_assoc]
    exact hfront.append (settled_escape (isEscapable_of_normalize h))
  | false =>
    rw [hk, if_neg Bool.false_ne_true] at hread
    by_cases hc : c = '\\'
    · rw [hpending.mpr ⟨hk, hc⟩, if_pos rfl]
      exact ⟨read, by rw [hc], hread⟩
    · have hk' : k'.pending = false := by simpa [hk, hc] using hpending
      rw [hk', if_neg Bool.false_ne_true]
      exact hread.append (settled_singleton hc)

theorem settled_of_close {negated : Bool} {items : List ClassItem} (hnext : k.next c = some (.close negated items))
    (hread : (Cutting.inClass k read).Settled) : Settled (read ++ [c]) := by
  obtain ⟨hk, rfl⟩ := OpenClass.eq_bracket_of_next hnext
  rw [Cutting.Settled, hk, if_neg Bool.false_ne_true] at hread
  exact hread.append (settled_singleton (by decide))

end Unsettled

/-- The lexemes of a text in normal form are settled. -/
theorem Cuts.settled {cut : Cutting} {cs : List Char} {ls : List Lexeme} (h : Cuts cut cs ls) (hcut : cut.Settled)
    (hnormal : normalize (cut.unsettled cs) = cut.unsettled cs) : ∀ l ∈ ls, Settled l.text := by
  induction h with
  | nil => simp
  | backslash _ ih => exact ih trivial hnormal
  | opening _ ih => exact ih (settled_singleton (by decide)) ((settled_singleton (c := '[') (by decide)).tail hnormal)
  | plain hbackslash _ _ ih =>
    have hc := settled_singleton hbackslash
    exact List.forall_mem_cons.mpr ⟨hc, ih trivial (hc.tail hnormal)⟩
  | escape _ ih =>
    have hc := settled_escape (isEscapable_of_normalize hnormal)
    exact List.forall_mem_cons.mpr ⟨hc, ih trivial (hc.tail hnormal)⟩
  | stay hnext _ ih => exact ih (settled_of_stay hnext hcut hnormal) (unsettled_of_stay _ hnext hnormal)
  | close hnext _ ih =>
    exact List.forall_mem_cons.mpr ⟨settled_of_close hnext hcut, ih trivial (unsettled_of_close hnext hnormal)⟩

/-- The lexemes of a body in normal form are settled. -/
theorem settled_of_lexemes {body : List Char} {ls : List Lexeme} (h : lexemes body = some ls)
    (hnormal : normalize body = body) : ∀ l ∈ ls, Settled l.text :=
  (cuts_of_lexemes h).settled trivial hnormal

/-! ## Scanning lexemes -/

/-- What a scan is in the middle of where a body is cut. -/
def Cutting.Fits (s : ScanState) : Cutting → Prop
  | .between => s.Between
  | .escaped => s.mode = .escaped
  | .inClass k _ => ∃ start, s.mode = .inClass (k.startAt start)

theorem exists_lexemes_of_run {t : ScanState} (ht : ∀ k, t.mode ≠ .inClass k) :
    ∀ {cs : List Char} (cut : Cutting) {s : ScanState}, cut.Fits s → ScanState.run s cs = .ok t →
      normalize (cut.unsettled cs) = cut.unsettled cs → ∃ ls, cut.lexemes cs = some ls
  | [], .between, s, _, _, _ => ⟨[], rfl⟩
  | [], .escaped, s, _, _, hnormal => by simp [Cutting.unsettled, normalize] at hnormal
  | [], .inClass k read, s, hs, hrun, _ => by
    obtain rfl : s = t := Except.ok.inj hrun
    obtain ⟨start, hs⟩ := hs
    exact absurd hs (ht _)
  | c :: cs, .between, s, hs, hrun, hnormal => by
    obtain ⟨s', hstep, hrun⟩ := ScanState.run_cons_eq_ok_iff.mp hrun
    have hmode := ScanState.mode_of_step_between hs hstep
    rw [Cutting.lexemes]
    split_ifs at hmode ⊢ with hbackslash hbracket
    · exact exists_lexemes_of_run ht .escaped hmode hrun (by rwa [hbackslash] at hnormal)
    · exact exists_lexemes_of_run ht (.inClass _ ['[']) ⟨_, hmode⟩ hrun ((settled_singleton hbackslash).tail hnormal)
    · obtain ⟨ls, hls⟩ := exists_lexemes_of_run ht .between hmode hrun ((settled_singleton hbackslash).tail hnormal)
      exact ⟨.plain c :: ls, congrArg _ hls⟩
  | c :: cs, .escaped, s, hs, hrun, hnormal => by
    obtain ⟨s', hstep, hrun⟩ := ScanState.run_cons_eq_ok_iff.mp hrun
    rw [ScanState.step_of_escaped hs, Except.ok.injEq] at hstep
    obtain ⟨ls, hls⟩ := exists_lexemes_of_run ht .between (.inl (hstep ▸ rfl)) hrun
      ((settled_escape (isEscapable_of_normalize hnormal)).tail hnormal)
    exact ⟨.escape c :: ls, congrArg _ hls⟩
  | c :: cs, .inClass k read, s, hs, hrun, hnormal => by
    obtain ⟨s', hstep, hrun⟩ := ScanState.run_cons_eq_ok_iff.mp hrun
    obtain ⟨start, hs⟩ := hs
    obtain ⟨move, hmove, rfl⟩ := (ScanState.step_of_inClass hs).mp hstep
    rw [OpenClass.next_startAt] at hmove
    obtain ⟨move, hnext, rfl⟩ := Option.map_eq_some_iff.mp hmove
    rw [Cutting.lexemes, hnext]
    cases move with
    | stay k' =>
      exact exists_lexemes_of_run ht (.inClass k' (read ++ [c])) ⟨start, rfl⟩ hrun
        (unsettled_of_stay _ hnext hnormal)
    | close negated items =>
      obtain ⟨ls, hls⟩ := exists_lexemes_of_run ht .between (.inl rfl) hrun (unsettled_of_close hnext hnormal)
      exact ⟨.bracket (read ++ [c]) negated items :: ls, by simp only [hls, Option.map_some]⟩

/-- A body in normal form that scans can be cut. -/
theorem exists_lexemes {body : List Char} {t : ScanState} (hnormal : normalize body = body)
    (hrun : ScanState.run {} body = .ok t) (ht : ∀ k, t.mode ≠ .inClass k) : ∃ ls, lexemes body = some ls :=
  exists_lexemes_of_run ht .between (.inl rfl) hrun hnormal

/-- A lexeme is genuine if it is what the scan takes it for, wherever it stands. -/
def Lexeme.Genuine : Lexeme → Prop
  | .plain c => c ≠ '\\' ∧ c ≠ '['
  | .escape _ => True
  | .bracket text negated items => text.head? = some '[' ∧ text.getLast? = some ']' ∧ ∀ s : ScanState, s.mode = .text →
      ∃ offset, ScanState.run s text = .ok { s.push (.charClass negated items) with offset }

/-- What a cut has read of a class opens it in every scan. -/
def Cutting.Genuine : Cutting → Prop
  | .between | .escaped => True
  | .inClass k read => read.head? = some '[' ∧ ∀ s : ScanState, s.mode = .text →
      ∃ start offset, ScanState.run s read = .ok { s.stayInClass (k.startAt start) with offset }

theorem Cuts.genuine {cut : Cutting} {cs : List Char} {ls : List Lexeme} (h : Cuts cut cs ls) (hcut : cut.Genuine) :
    ∀ l ∈ ls, l.Genuine := by
  induction h with
  | nil => simp
  | backslash _ ih => exact ih trivial
  | opening _ ih =>
    refine ih ⟨rfl, fun s hs => ⟨s.offset, s.offset + '['.utf8Size, ?_⟩⟩
    rw [ScanState.run_singleton, ScanState.step_of_text hs]
    rfl
  | plain hbackslash hbracket _ ih => exact List.forall_mem_cons.mpr ⟨⟨hbackslash, hbracket⟩, ih trivial⟩
  | escape _ ih => exact List.forall_mem_cons.mpr ⟨trivial, ih trivial⟩
  | @stay k k' read c cs ls hnext _ ih =>
    obtain ⟨hhead, hrun⟩ := hcut
    refine ih ⟨by simp [hhead], fun s hs => ?_⟩
    obtain ⟨start, offset, hread⟩ := hrun s hs
    refine ⟨start, offset + c.utf8Size, ScanState.run_append_eq_ok_iff.mpr ⟨_, hread, ?_⟩⟩
    rw [ScanState.run_singleton, ScanState.step_of_inClass rfl]
    exact ⟨.stay (k'.startAt start), by rw [OpenClass.next_startAt, hnext]; rfl, rfl⟩
  | @close k read c negated items cs ls hnext _ ih =>
    obtain ⟨hhead, hrun⟩ := hcut
    have hlast : (read ++ [c]).getLast? = some ']' := by
      rw [List.getLast?_concat, (OpenClass.eq_bracket_of_next hnext).2]
    refine List.forall_mem_cons.mpr ⟨⟨by simp [hhead], hlast, fun s hs => ?_⟩, ih trivial⟩
    obtain ⟨start, offset, hread⟩ := hrun s hs
    refine ⟨offset + c.utf8Size, ScanState.run_append_eq_ok_iff.mpr ⟨_, hread, ?_⟩⟩
    rw [ScanState.run_singleton, ScanState.step_of_inClass rfl]
    exact ⟨.close negated items, by rw [OpenClass.next_startAt, hnext]; rfl, rfl⟩

theorem genuine_of_lexemes {body : List Char} {ls : List Lexeme} (h : lexemes body = some ls) : ∀ l ∈ ls, l.Genuine :=
  (cuts_of_lexemes h).genuine trivial

end PathOwners.Glob
