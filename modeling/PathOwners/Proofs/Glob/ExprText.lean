import PathOwners.Proofs.Glob.ExprReader
import PathOwners.Proofs.Glob.PlanLanguage
import PathOwners.Proofs.Glob.SoundTokens

/-!
# Expressions as texts

The text of the expression for some tokens, in the usual syntax of such expressions (`bodyText`): a character that means
something in it is written after a backslash, and the whole stands between the marks of the start and the end of a path.
The reader of the syntax gives back an expression with the language and the depth of the one that is matched
(`readExpr_bodyText`).
-/

namespace PathOwners.Glob

/-! ## Writing -/

/-- Whether a character means something in the text of an expression. -/
def isMeta (c : Char) : Bool :=
  ['\\', '.', '+', '*', '?', '(', ')', '|', '[', ']', '\x7b', '\x7d', '^', '$', '#', '&', '-', '~'].contains c

/-- The text for a character. -/
def charText (c : Char) : List Char := if isMeta c then ['\\', c] else [c]

/-- The text for a member of a class. -/
def ClassItem.exprText : ClassItem → List Char
  | .single c => charText c
  | .range first last => charText first ++ '-' :: charText last

mutual

/-- The text for a token. -/
def Token.exprText : Token → List Char
  | .literal c => charText c
  | .separator => ['/']
  | .star => ['[', '^', '/', ']', '*']
  | .question => ['[', '^', '/', ']']
  | .anyDirectories => ['(', '?', ':', '.', '*', '/', ')', '?']
  | .anyPath => ['.', '*']
  | .charClass negated items =>
    '[' :: (if negated then ['^', '/'] else []) ++ items.flatMap ClassItem.exprText ++ [']']
  | .alternation alternatives => ['(', '?', ':'] ++ choiceText alternatives ++ [')']

/-- The text for a sequence of tokens. -/
def sequenceText : List Token → List Char
  | [] => []
  | t :: ts => t.exprText ++ sequenceText ts

/-- The text for several alternatives. -/
def choiceText : List (List Token) → List Char
  | [] => []
  | [ts] => sequenceText ts
  | ts :: rest => sequenceText ts ++ '|' :: choiceText rest

end

/-- The mark of the start of a path, after which `.` is any character. -/
def startMark : List Char := ['(', '?', 's', ')', '\\', 'A']

/-- The mark of the end of a path. -/
def endMark : List Char := ['\\', 'z']

/-- The text for the tokens of a body, for a whole path. -/
def bodyText (directory : Bool) (tokens : List Token) : List Char :=
  startMark ++
    (if directory then ['(', '?', ':'] ++ sequenceText tokens ++ [')', '(', '?', ':', '/', '.', '*', ')', '?']
    else sequenceText tokens) ++ endMark

/-! ## Expressions that are alike -/

/-- Two expressions have the same language and the same depth. -/
structure Expr.Alike (e e' : Expr) : Prop where
  language : e.language = e'.language
  depth : e.depth = e'.depth

/-- Two sequences of expressions have the same language, the same depth and the same length. -/
structure AlikeAll (es es' : List Expr) : Prop where
  language : Expr.languageAll es = Expr.languageAll es'
  depth : Expr.maxDepth es = Expr.maxDepth es'
  length : es.length = es'.length

/-- Two choices of expressions have the same language, the same depth and the same length. -/
structure AlikeAny (es es' : List Expr) : Prop where
  language : Expr.languageAny es = Expr.languageAny es'
  depth : Expr.maxDepth es = Expr.maxDepth es'
  length : es.length = es'.length

section Alike

variable {e e' : Expr} {es es' : List Expr}

theorem Expr.Alike.refl (e : Expr) : e.Alike e := ⟨rfl, rfl⟩

theorem AlikeAll.cons (h : e.Alike e') (hs : AlikeAll es es') : AlikeAll (e :: es) (e' :: es') :=
  ⟨congrArg₂ (· * ·) h.language hs.language, congrArg₂ max h.depth hs.depth, congrArg (· + 1) hs.length⟩

theorem AlikeAny.cons (h : e.Alike e') (hs : AlikeAny es es') : AlikeAny (e :: es) (e' :: es') :=
  ⟨congrArg₂ (· + ·) h.language hs.language, congrArg₂ max h.depth hs.depth, congrArg (· + 1) hs.length⟩

theorem AlikeAll.concat (h : AlikeAll es es') : (Expr.concat es).Alike (.concat es') := by
  refine ⟨h.language, ?_⟩
  rw [Expr.depth, Expr.depth, h.length, h.depth]

/-- A choice of one expression is as deep as that. -/
theorem AlikeAny.alt (h : AlikeAny es es') : (Expr.alt es).Alike (.alt es') := by
  refine ⟨h.language, ?_⟩
  rw [Expr.depth, Expr.depth, h.length, h.depth]

theorem alike_alt_singleton (e : Expr) : e.Alike (.alt [e]) :=
  ⟨(add_zero e.language).symm, by simp [Expr.depth, Expr.maxDepth, joinDepth]⟩

theorem Expr.Alike.trans {e'' : Expr} (h : e.Alike e') (h' : e'.Alike e'') : e.Alike e'' :=
  ⟨h.language.trans h'.language, h.depth.trans h'.depth⟩

theorem Expr.Alike.group (h : e.Alike e') : (Expr.group e).Alike (.group e') :=
  ⟨h.language, congrArg (1 + ·) h.depth⟩

end Alike

/-- The expression of a group is alike to the choice of its branches. -/
theorem OpenBranch.alike_expr (b : OpenBranch) {bs : List Expr} (h : b.branches = bs.reverse) :
    b.expr.Alike (.alt (bs ++ [.concat b.members.reverse])) := by
  unfold OpenBranch.expr
  split
  · next hnil =>
    obtain rfl : bs = [] := List.reverse_eq_nil_iff.mp (h.symm.trans hnil)
    exact alike_alt_singleton _
  · rw [h, List.reverse_cons, List.reverse_reverse]
    exact .refl _

/-! ## Reading what is written -/

namespace Reader

variable {r r' : Reader} {c : Char} {text text' : List Char}

theorem run_cons (r : Reader) (c : Char) (text : List Char) : run r (c :: text) = (r.step c).bind (run · text) := rfl

theorem run_append (h : run r text = some r') : run r (text ++ text') = run r' text' := by
  rw [run, List.foldlM_append, ← run, h]
  rfl

/-- A character that is written after a backslash stands for itself there. -/
theorem stands_of_isMeta (h : isMeta c = true) : standsEscaped c = true ∧ c ≠ 'A' ∧ c ≠ 'z' := by
  rw [isMeta, List.contains_iff_mem] at h
  revert c
  simp [standsEscaped, Char.isAlphanum]

/-- A character that is written as it is stands for itself, in brackets and outside. -/
theorem stands_of_not_isMeta (h : isMeta c = false) : standsOutside c = true ∧ standsInside c = true := by
  simp only [isMeta, List.contains_eq_mem, decide_eq_false_iff_not, List.mem_cons, not_or] at h
  simp [standsOutside, standsInside, h]

theorem textStep_of_standsOutside (h : standsOutside c = true) : r.textStep c = some (r.push (.atom (.char c))) := by
  unfold textStep
  split <;> first | (exact absurd h (by decide)) | rw [if_pos h]

theorem escapedStep_of_isMeta (h : isMeta c = true) : r.escapedStep c = some (r.push (.atom (.char c))) := by
  obtain ⟨hstands, hA, hz⟩ := stands_of_isMeta h
  rw [escapedStep, if_neg hA, if_neg hz, if_pos hstands]

theorem run_charText (hr : r.mode = .text) (c : Char) : run r (charText c) = some (r.push (.atom (.char c))) := by
  unfold charText
  cases h : isMeta c with
  | true =>
    have hbackslash : r.step '\\' = some { r with mode := .escaped } := by rw [step, hr]; rfl
    rw [if_pos rfl, run_cons, hbackslash]
    exact (congrArg (Option.bind · _) (escapedStep_of_isMeta h)).trans rfl
  | false =>
    rw [if_neg Bool.false_ne_true, run_cons, step, hr]
    simp [textStep_of_standsOutside (stands_of_not_isMeta h).1, run]

/-! ## Reading classes -/

/-- A bracket with these items, the latest one first, before another item or its end. -/
def InBracket (r : Reader) (negated : Bool) (items : List ClassItem) (r' : Reader) : Prop :=
  ∃ b : OpenBracket, r' = r.stayInBracket b ∧ b.negated = negated ∧
    ((b.phase = .opening ∨ b.phase = .member) ∧ b.items = items ∨
      ∃ m, b.phase = .after m ∧ items = .single m :: b.items)

section InBracket

variable {negated : Bool} {items : List ClassItem}

theorem step_stayInBracket (r : Reader) (b : OpenBracket) (c : Char) :
    (r.stayInBracket b).step c = r.bracketStep b c := rfl

/-- The first character of what is written for a character begins an item. -/
theorem InBracket.step (h : r.InBracket negated items r') (hc : c ≠ '^') (hc' : c ≠ '-') :
    ∃ b : OpenBracket, b.negated = negated ∧ b.items = items ∧ r'.step c = r.itemStep b c := by
  obtain ⟨b, rfl, hnegated, ⟨hphase | hphase, hitems⟩ | ⟨m, hphase, rfl⟩⟩ := h
  · refine ⟨b, hnegated, hitems, ?_⟩
    simp only [step_stayInBracket, bracketStep, hphase, if_neg hc]
  · refine ⟨b, hnegated, hitems, ?_⟩
    simp only [step_stayInBracket, bracketStep, hphase]
  · refine ⟨{ b with items := .single m :: b.items }, hnegated, rfl, ?_⟩
    simp only [step_stayInBracket, bracketStep, hphase, if_neg hc']

theorem ne_of_standsInside (h : standsInside c = true) : c ≠ '^' ∧ c ≠ '-' ∧ c ≠ ']' ∧ c ≠ '\\' := by
  refine ⟨?_, ?_, ?_, ?_⟩ <;> rintro rfl <;> exact absurd h (by decide)

theorem InBracket.charText (h : r.InBracket negated items r') (c : Char) :
    run r' (charText c) = some (r.stayInBracket ⟨negated, items, .after c⟩) := by
  unfold Glob.charText
  cases hmeta : isMeta c with
  | true =>
    obtain ⟨b, rfl, rfl, hstep⟩ := h.step (c := '\\') (by decide) (by decide)
    have hitem : r.itemStep b '\\' = some (r.stayInBracket { b with phase := .escaped }) := rfl
    rw [if_pos rfl, run_cons, hstep, hitem]
    simp [run, step_stayInBracket, bracketStep, (stands_of_isMeta hmeta).1]
  | false =>
    have hinside := (stands_of_not_isMeta hmeta).2
    obtain ⟨hcaret, hdash, hbracket, hbackslash⟩ := ne_of_standsInside hinside
    obtain ⟨b, rfl, rfl, hstep⟩ := h.step hcaret hdash
    rw [if_neg Bool.false_ne_true, run_cons, hstep]
    simp [itemStep, run, hinside, hbracket, hbackslash, stayInBracket]

/-- After the first character of a range and a dash, what is written for a character ends the range. -/
theorem run_rangeEnd {first last : Char} (h : ¬ last < first) :
    run (r.stayInBracket ⟨negated, items, .dash first⟩) (charText last) =
      some (r.stayInBracket ⟨negated, .range first last :: items, .member⟩) := by
  unfold Glob.charText
  cases hmeta : isMeta last with
  | true => simp [run, step_stayInBracket, bracketStep, (stands_of_isMeta hmeta).1, rangeStep, h]
  | false =>
    have hinside := (stands_of_not_isMeta hmeta).2
    obtain ⟨-, -, -, hbackslash⟩ := ne_of_standsInside hinside
    simp [run, step_stayInBracket, bracketStep, hinside, rangeStep, h, hbackslash]

theorem InBracket.item (h : r.InBracket negated items r') {item : ClassItem} (hitem : item.Sound) :
    ∃ r'', run r' item.exprText = some r'' ∧ r.InBracket negated (item :: items) r'' := by
  cases item with
  | single c => exact ⟨_, h.charText c, _, rfl, rfl, .inr ⟨c, rfl, rfl⟩⟩
  | range first last =>
    refine ⟨_, ?_, ⟨negated, .range first last :: items, .member⟩, rfl, rfl, .inl ⟨.inr rfl, rfl⟩⟩
    rw [ClassItem.exprText, run_append (h.charText first)]
    exact run_rangeEnd hitem

theorem InBracket.allItems {new : List ClassItem} (h : r.InBracket negated items r') (hnew : ∀ item ∈ new, item.Sound) :
    ∃ r'', run r' (new.flatMap ClassItem.exprText) = some r'' ∧ r.InBracket negated (new.reverse ++ items) r'' := by
  induction new generalizing items r' with
  | nil => exact ⟨r', rfl, h⟩
  | cons item new ih =>
    obtain ⟨hitem, hnew⟩ := List.forall_mem_cons.mp hnew
    obtain ⟨r₁, hrun, h₁⟩ := h.item hitem
    obtain ⟨r₂, hrun', h₂⟩ := ih h₁ hnew
    refine ⟨r₂, ?_, by simpa using h₂⟩
    rw [List.flatMap_cons, run_append hrun, hrun']

theorem InBracket.close (h : r.InBracket negated items r') (hitems : items ≠ []) :
    run r' [']'] = some (r.push (.atom (.bracket negated items.reverse))) := by
  obtain ⟨b, rfl, rfl, hstep⟩ := h.step (c := ']') (by decide) (by decide)
  rw [run_cons, hstep]
  simp [itemStep, hitems, run]

theorem run_charClass (hr : r.mode = .text) {items : List ClassItem} (hne : items ≠ [])
    (hitems : ∀ item ∈ items, item.Sound) (negated : Bool) : run r (Token.charClass negated items).exprText =
      some (r.push (Expr.ofToken (.charClass negated items))) := by
  have hopen : run r ['['] = some (r.stayInBracket {}) := by
    rw [run_cons, Reader.step, hr]
    rfl
  rw [Token.exprText, ← List.singleton_append, List.append_assoc, List.append_assoc, run_append hopen]
  cases negated with
  | false =>
    have hbracket : r.InBracket false [] (r.stayInBracket {}) := ⟨{}, rfl, rfl, .inl ⟨.inl rfl, rfl⟩⟩
    obtain ⟨r₁, hrun, h₁⟩ := hbracket.allItems hitems
    rw [if_neg Bool.false_ne_true, List.nil_append, run_append hrun, h₁.close (by simpa using hne)]
    simp [Expr.ofToken]
  | true =>
    have hcaret : run (r.stayInBracket {}) ['^', '/'] = some (r.stayInBracket ⟨true, [], .after '/'⟩) := rfl
    have hbracket : r.InBracket true [.single '/'] (r.stayInBracket ⟨true, [], .after '/'⟩) :=
      ⟨_, rfl, rfl, .inr ⟨'/', rfl, rfl⟩⟩
    obtain ⟨r₁, hrun, h₁⟩ := hbracket.allItems hitems
    rw [if_pos rfl, run_append hcaret, run_append hrun, h₁.close (by simp)]
    simp [Expr.ofToken]

end InBracket

/-! ## Reading groups -/

/-- More members of the sequence. -/
def pushAll (es : List Expr) (r : Reader) : Reader :=
  { r with mode := .text, branch := { r.branch with members := es.reverse ++ r.branch.members } }

/-- A reader that has read the opening of a group. -/
def openGroup (r : Reader) : Reader := { r with mode := .text, branch := {}, groups := r.branch :: r.groups }

/-- A reader between two members, for which `.` is any character. -/
structure Ready (r : Reader) : Prop where
  mode : r.mode = .text
  dotAll : r.dotAll = true

theorem run_opening (hr : r.mode = .text) : run r ['(', '?', ':'] = some r.openGroup := by
  rw [run_cons, step, hr]
  rfl

/-- A group that is opened and closed is one more member. -/
theorem run_closing {b : OpenBranch} : run { r.openGroup with branch := b } [')'] = some (r.push (.group b.expr)) := rfl

/-- A reader that has read a branch and the bar after it. -/
def afterBranch (es : List Expr) (r : Reader) : Reader :=
  { r with mode := .text, branch := ⟨[], .concat es :: r.branch.branches⟩ }

theorem step_bar (hmembers : r.branch.members = []) (es : List Expr) :
    (r.pushAll es).step '|' = some (r.afterBranch es) := by
  rw [step, pushAll, hmembers, List.append_nil]
  simp [textStep, nextBranch, afterBranch]

mutual

/-- The text for a token is read as one more member, alike to the expression for the token. -/
theorem run_exprText : ∀ {t : Token} {r : Reader}, t.Sound → r.Ready →
    ∃ e, run r t.exprText = some (r.push e) ∧ e.Alike (Expr.ofToken t)
  | .literal c, r, _, hr => ⟨_, run_charText hr.mode c, .refl _⟩
  | .separator, r, _, hr => ⟨_, by rw [Token.exprText, run_cons, step, hr.mode]; rfl, .refl _⟩
  | .star, r, _, hr => ⟨_, by rw [Token.exprText, run_cons, step, hr.mode]; rfl, .refl _⟩
  | .question, r, _, hr => ⟨_, by rw [Token.exprText, run_cons, step, hr.mode]; rfl, .refl _⟩
  | .anyDirectories, ⟨_, _, _, _, _⟩, _, ⟨rfl, rfl⟩ => ⟨_, rfl, .refl _⟩
  | .anyPath, ⟨_, _, _, _, _⟩, _, ⟨rfl, rfl⟩ => ⟨_, rfl, .refl _⟩
  | .charClass negated items, r, ht, hr => ⟨_, run_charClass hr.mode ht.1 ht.2 negated, .refl _⟩
  | .alternation alternatives, r, ht, hr => by
    obtain ⟨b, hrun, bs, hbranches, hbs⟩ := run_choiceText (r := r.openGroup) ht.1 ht.2 ⟨rfl, hr.dotAll⟩ rfl
    refine ⟨.group b.expr, ?_, ((b.alike_expr (hbranches.trans (List.append_nil _))).trans hbs.alt).group⟩
    rw [Token.exprText, List.append_assoc, run_append (run_opening hr.mode), run_append hrun]
    exact run_closing

/-- The text for some tokens is read as members alike to the expressions for the tokens. -/
theorem run_sequenceText : ∀ {ts : List Token} {r : Reader}, SequenceSound ts → r.Ready →
    ∃ es, run r (sequenceText ts) = some (r.pushAll es) ∧ AlikeAll es (Expr.ofTokens ts)
  | [], ⟨_, _, _, _, _⟩, _, ⟨rfl, rfl⟩ => ⟨[], rfl, rfl, rfl, rfl⟩
  | t :: ts, r, hts, hr => by
    obtain ⟨e, hrun, he⟩ := run_exprText hts.1 hr
    obtain ⟨es, hrun', hes⟩ := run_sequenceText (r := r.push e) hts.2 ⟨rfl, hr.dotAll⟩
    refine ⟨e :: es, ?_, AlikeAll.cons he hes⟩
    rw [sequenceText, run_append hrun, hrun', pushAll, pushAll, push, List.reverse_cons, List.append_assoc]
    rfl

/-- The text for some alternatives is read as branches alike to the expressions for the alternatives. -/
theorem run_choiceText : ∀ {alternatives : List (List Token)} {r : Reader}, alternatives ≠ [] →
    ChoiceSound alternatives → r.Ready → r.branch.members = [] → ∃ b : OpenBranch,
      run r (choiceText alternatives) = some { r with mode := .text, branch := b } ∧
        ∃ bs, b.branches = bs.reverse ++ r.branch.branches ∧
          AlikeAny (bs ++ [.concat b.members.reverse]) (Expr.ofAlternatives alternatives)
  | [], _, h, _, _, _ => absurd rfl h
  | [ts], r, _, hts, hr, hmembers => by
    obtain ⟨es, hrun, hes⟩ := run_sequenceText hts.1 hr
    refine ⟨{ r.branch with members := es.reverse }, ?_, [], rfl, ?_⟩
    · rw [choiceText, hrun, pushAll, hmembers, List.append_nil]
    · rw [List.reverse_reverse]
      exact AlikeAny.cons hes.concat ⟨rfl, rfl, rfl⟩
  | ts :: ts' :: rest, r, _, hts, hr, hmembers => by
    obtain ⟨es, hrun, hes⟩ := run_sequenceText hts.1 hr
    have hnext := step_bar hmembers es
    obtain ⟨b, hrun', bs, hbranches, hbs⟩ :=
      run_choiceText (r := r.afterBranch es) (List.cons_ne_nil ts' rest) hts.2 ⟨rfl, hr.dotAll⟩ rfl
    refine ⟨b, ?_, .concat es :: bs, by simp [hbranches, afterBranch], AlikeAny.cons hes.concat hbs⟩
    rw [choiceText, run_append hrun, run_cons, hnext]
    · exact hrun'
    · exact List.cons_ne_nil ts' rest

end

end Reader

/-! ## Whole texts -/

/-- The members of the expression for a body, as a file or as a directory. -/
def Expr.ofBody (directory : Bool) (tokens : List Token) : List Expr :=
  if directory then Expr.ofDirectory tokens else Expr.ofTokens tokens

theorem Expr.languageAll_ofBody (directory : Bool) (tokens : List Token) :
    Expr.languageAll (Expr.ofBody directory tokens) = bodyLanguage directory tokens := by
  unfold Expr.ofBody bodyLanguage
  split_ifs
  · exact Expr.languageAll_ofDirectory tokens
  · exact Expr.languageAll_ofTokens tokens

namespace Reader

/-- A reader that has read the mark of the start. -/
def started : Reader := { dotAll := true, anchored := true }

theorem started_ready : started.Ready := ⟨rfl, rfl⟩

theorem run_startMark : run {} startMark = some started := rfl

end Reader

/-- Between the marks is the expression for a whole path. -/
theorem readExpr_marks {body : List Char} {members : List Expr}
    (h : Reader.run .started body = some (Reader.pushAll members .started)) :
    readExpr (startMark ++ body ++ endMark) = some members := by
  have hend : (Reader.run (Reader.pushAll members .started) endMark).bind Reader.finish =
      some (members.reverse ++ []).reverse := rfl
  rw [readExpr, List.append_assoc, Reader.run_append Reader.run_startMark, Reader.run_append h, hend, List.append_nil,
    List.reverse_reverse]

/-- **The text for a body is read as the expression that is matched** -/
theorem readExpr_bodyText (directory : Bool) {tokens : List Token} (h : SequenceSound tokens) :
    ∃ members, readExpr (bodyText directory tokens) = some members ∧
      AlikeAll members (Expr.ofBody directory tokens) := by
  cases directory with
  | false =>
    obtain ⟨es, hrun, hes⟩ := Reader.run_sequenceText h Reader.started_ready
    exact ⟨es, readExpr_marks hrun, hes⟩
  | true =>
    obtain ⟨es, hrun, hes⟩ := Reader.run_sequenceText (r := Reader.openGroup .started) h ⟨rfl, rfl⟩
    have hgroup : Reader.run .started (['(', '?', ':'] ++ sequenceText tokens ++ [')']) =
        some (Reader.push (.group (.concat es)) .started) := by
      rw [List.append_assoc, Reader.run_append (Reader.run_opening rfl), Reader.run_append hrun]
      refine (Reader.run_closing (r := .started) (b := ⟨es.reverse ++ [], []⟩)).trans ?_
      rw [OpenBranch.expr, List.append_nil, List.reverse_reverse]
    refine ⟨_, readExpr_marks ?_, AlikeAll.cons hes.concat.group (AlikeAll.cons (.refl _) ⟨rfl, rfl, rfl⟩)⟩
    have hparts : ['(', '?', ':'] ++ sequenceText tokens ++ [')', '(', '?', ':', '/', '.', '*', ')', '?'] =
        ['(', '?', ':'] ++ sequenceText tokens ++ [')'] ++ ['(', '?', ':', '/', '.', '*', ')', '?'] := by simp
    rw [if_pos rfl, hparts, Reader.run_append hgroup]
    rfl

/-- The text for `*.[!a-z]`. -/
example : bodyText false [.star, .literal '.', .charClass true [.range 'a' 'z']] =
    "(?s)\\A[^/]*\\.[^/a-z]\\z".toList := by decide +kernel

end PathOwners.Glob
