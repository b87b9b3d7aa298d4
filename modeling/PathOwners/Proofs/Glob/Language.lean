import PathOwners.Proofs.Glob.Marks

/-!
# Languages of tokens

What the tokens of a pattern mean: the texts that each of them stands for (`Token.language`), and from them the texts
that a body stands for, as a file or as a directory (`bodyLanguage`). The expression for the tokens has the same
language (`Expr.languageAll_ofTokens`, `Expr.languageAll_ofDirectory`).
-/

namespace PathOwners.Glob

/-! ## Tokens -/

/-- Whether a class accepts a character: an item covers it, or the class is negated, none does, and it is no
separator. -/
def ClassAccepts (negated : Bool) (items : List ClassItem) (c : Char) : Prop :=
  if negated then (∀ item ∈ items, item.covers c = false) ∧ c ≠ '/' else ∃ item ∈ items, item.covers c = true

mutual

/-- The texts that a token stands for. -/
def Token.language : Token → Language Char
  | .literal c => {[c]}
  | .separator => {['/']}
  | .star => {w | '/' ∉ w}
  | .question => {w | ∃ c, c ≠ '/' ∧ w = [c]}
  | .anyDirectories => {w | w = [] ∨ w.getLast? = some '/'}
  | .anyPath => {_w | True}
  | .charClass negated items => {w | ∃ c, ClassAccepts negated items c ∧ w = [c]}
  | .alternation alternatives => choiceLanguage alternatives

/-- The texts that a sequence of tokens stands for. -/
def sequenceLanguage : List Token → Language Char
  | [] => 1
  | t :: ts => t.language * sequenceLanguage ts

/-- The texts that several alternatives stand for. -/
def choiceLanguage : List (List Token) → Language Char
  | [] => 0
  | ts :: rest => sequenceLanguage ts + choiceLanguage rest

end

/-- The texts of a language, each by itself or followed by a separator and any text. -/
def orBelow (L : Language Char) : Language Char := {w | w ∈ L ∨ ∃ u ∈ L, ∃ v, w = u ++ '/' :: v}

/-- The texts that a body stands for; a directory is followed by nothing or by a separator and any text. -/
def bodyLanguage (directory : Bool) (tokens : List Token) : Language Char :=
  if directory then orBelow (sequenceLanguage tokens) else sequenceLanguage tokens

theorem sequenceLanguage_append : ∀ left right : List Token,
    sequenceLanguage (left ++ right) = sequenceLanguage left * sequenceLanguage right
  | [], right => by simp [sequenceLanguage]
  | t :: left, right => by simp [sequenceLanguage, sequenceLanguage_append left right, mul_assoc]

theorem sequenceLanguage_singleton (t : Token) : sequenceLanguage [t] = t.language := by simp [sequenceLanguage]

theorem mem_choiceLanguage {w : List Char} : ∀ {alternatives : List (List Token)},
    w ∈ choiceLanguage alternatives ↔ ∃ ts ∈ alternatives, w ∈ sequenceLanguage ts
  | [] => by simp [choiceLanguage, Language.notMem_zero]
  | ts :: rest => by simp [choiceLanguage, Language.mem_add, mem_choiceLanguage]

theorem choiceLanguage_reverse (alternatives : List (List Token)) :
    choiceLanguage alternatives.reverse = choiceLanguage alternatives := by
  ext w
  simp only [mem_choiceLanguage, List.mem_reverse]

/-! ## Expressions for tokens -/

section Expressions

theorem accepts_inSegment (c : Char) : Atom.inSegment.accepts c = true ↔ c ≠ '/' := by
  simp [Atom.inSegment, Atom.accepts, ClassItem.covers]

theorem accepts_bracket_false (items : List ClassItem) (c : Char) :
    (Atom.bracket false items).accepts c = true ↔ ClassAccepts false items c := by
  simp [Atom.accepts, ClassAccepts]

theorem accepts_bracket_true (items : List ClassItem) (c : Char) :
    (Atom.bracket true (.single '/' :: items)).accepts c = true ↔ ClassAccepts true items c := by
  simp only [Atom.accepts, ClassAccepts, ClassItem.covers, List.any_cons, bne_iff_ne, ne_eq, Bool.not_eq_true,
    Bool.or_eq_false_iff, beq_eq_false_iff_ne, List.any_eq_false, if_true]
  exact and_comm

theorem language_char (c : Char) : (Atom.char c).language = {[c]} := by
  ext w
  simp only [Atom.language, Atom.accepts, beq_iff_eq]
  exact ⟨fun ⟨d, hd, hw⟩ => hd ▸ hw, fun hw => ⟨c, rfl, hw⟩⟩

theorem mem_runs_any (w : List Char) : w ∈ Atom.any.runs := fun _ _ => rfl

/-- Nothing, or any text and a separator. -/
theorem one_add_runs_mul : 1 + Atom.any.runs * ({['/']} : Language Char) = {w | w = [] ∨ w.getLast? = some '/'} := by
  ext w
  rw [Language.mem_add, Language.mem_one]
  refine or_congr_right ⟨fun h => ?_, fun h => ?_⟩
  · obtain ⟨u, -, v, rfl, rfl⟩ := Language.mem_mul.mp h
    exact List.getLast?_concat
  · obtain ⟨u, rfl⟩ := List.getLast?_eq_some_iff.mp h
    exact Language.append_mem_mul (mem_runs_any u) rfl

mutual

/-- **The expression for a token has the language of the token** -/
theorem Expr.language_ofToken : ∀ t : Token, (Expr.ofToken t).language = t.language
  | .literal c => language_char c
  | .separator => language_char '/'
  | .star => by
    ext w
    exact ⟨fun h hw => (accepts_inSegment '/').mp (h '/' hw) rfl,
      fun h c hc => (accepts_inSegment c).mpr fun heq => h (heq ▸ hc)⟩
  | .question => by
    ext w
    exact exists_congr fun c => and_congr_left' (accepts_inSegment c)
  | .anyDirectories => by
    simp only [Expr.ofToken, Expr.language, Expr.languageAll, language_char, mul_one]
    exact one_add_runs_mul
  | .anyPath => by
    ext w
    exact ⟨fun _ => trivial, fun _ _ _ => rfl⟩
  | .charClass false items => by
    ext w
    exact exists_congr fun c => and_congr_left' (accepts_bracket_false items c)
  | .charClass true items => by
    ext w
    exact exists_congr fun c => and_congr_left' (accepts_bracket_true items c)
  | .alternation alternatives => Expr.languageAny_ofAlternatives alternatives

theorem Expr.languageAll_ofTokens : ∀ ts : List Token, Expr.languageAll (Expr.ofTokens ts) = sequenceLanguage ts
  | [] => rfl
  | t :: ts => congrArg₂ (· * ·) (Expr.language_ofToken t) (Expr.languageAll_ofTokens ts)

theorem Expr.languageAny_ofAlternatives :
    ∀ alternatives : List (List Token),
      Expr.languageAny (Expr.ofAlternatives alternatives) = choiceLanguage alternatives
  | [] => rfl
  | ts :: rest => congrArg₂ (· + ·) (Expr.languageAll_ofTokens ts) (Expr.languageAny_ofAlternatives rest)

end

/-- A text of a language, and after it nothing or a separator and any text. -/
theorem mul_one_add_runs (L : Language Char) : L * (1 + ({['/']} : Language Char) * Atom.any.runs) = orBelow L := by
  ext w
  rw [mul_add, mul_one, Language.mem_add]
  refine or_congr_right ⟨fun h => ?_, ?_⟩
  · obtain ⟨u, hu, _, hbelow, rfl⟩ := Language.mem_mul.mp h
    obtain ⟨_, rfl, v, -, rfl⟩ := Language.mem_mul.mp hbelow
    exact ⟨u, hu, v, rfl⟩
  · rintro ⟨u, hu, v, rfl⟩
    exact Language.append_mem_mul hu (Language.append_mem_mul (Set.mem_singleton ['/']) (mem_runs_any v))

/-- **The expression for a directory has the language of the directory** -/
theorem Expr.languageAll_ofDirectory (tokens : List Token) :
    Expr.languageAll (Expr.ofDirectory tokens) = orBelow (sequenceLanguage tokens) := by
  simp only [Expr.ofDirectory, Expr.languageAll, Expr.language, Expr.languageAll_ofTokens, language_char, mul_one,
    mul_one_add_runs]

end Expressions

end PathOwners.Glob
