import PathOwners.Glob.Basic
import PathOwners.Proofs.Glob.Language
import PathOwners.Proofs.Glob.Steps

/-!
# Languages of plans

Every plan has a language, and it matches the paths of that language (`Plan.isMatch_iff`). The plan that a sequence of
tokens gets, whichever it is, has the language of the tokens (`Plan.language_of_ofFile`,
`Plan.language_of_ofDirectory`). So the plan of a pattern has the language of its body (`language_of_planOf`).
-/

namespace PathOwners.Glob

/-! ## Languages of plans -/

/-- The paths that a plan is for. -/
def Plan.language : Plan → Language Char
  | .everything => {_w | True}
  | .exactly text => {text}
  | .stem text => {text} * Token.star.language
  | .ending text => Token.star.language * {text}
  | .within directory => orBelow {directory}
  | .expression e => e.language

theorem after?_eq_some_iff {rest : List Char} : ∀ {text path : List Char},
    Plan.after? text path = some rest ↔ path = text ++ rest
  | [], path => by simp [Plan.after?]
  | c :: text, [] => by simp [Plan.after?]
  | c :: text, d :: path => by
    rw [Plan.after?]
    split
    · next h => rw [after?_eq_some_iff, List.cons_append, h, List.cons_inj_right]
    · next h => simp [Ne.symm h]

theorem before?_eq_some_iff {text path rest : List Char} :
    Plan.before? text path = some rest ↔ path = rest ++ text := by
  simp only [Plan.before?, Option.map_eq_some_iff, after?_eq_some_iff]
  constructor
  · rintro ⟨reversed, hpath, rfl⟩
    rw [← List.reverse_reverse path, hpath, List.reverse_append, List.reverse_reverse]
  · rintro rfl
    exact ⟨rest.reverse, List.reverse_append, List.reverse_reverse rest⟩

theorem Token.mem_language_star {w : List Char} : w ∈ Token.star.language ↔ '/' ∉ w := Iff.rfl

theorem mem_singleton_mul {w text : List Char} {L : Language Char} :
    w ∈ ({text} : Language Char) * L ↔ ∃ rest ∈ L, w = text ++ rest := by
  rw [Language.mem_mul]
  constructor
  · rintro ⟨_, rfl, rest, hrest, rfl⟩
    exact ⟨rest, hrest, rfl⟩
  · rintro ⟨rest, hrest, rfl⟩
    exact ⟨text, rfl, rest, hrest, rfl⟩

theorem mem_mul_singleton {w text : List Char} {L : Language Char} :
    w ∈ L * ({text} : Language Char) ↔ ∃ rest ∈ L, w = rest ++ text := by
  rw [Language.mem_mul]
  constructor
  · rintro ⟨rest, hrest, _, rfl, rfl⟩
    exact ⟨rest, hrest, rfl⟩
  · rintro ⟨rest, hrest, rfl⟩
    exact ⟨rest, hrest, text, rfl, rfl⟩

theorem mem_orBelow_singleton {w directory : List Char} :
    w ∈ orBelow {directory} ↔ ∃ rest, (rest = [] ∨ rest.head? = some '/') ∧ w = directory ++ rest := by
  constructor
  · rintro (rfl | ⟨_, rfl, v, rfl⟩)
    · exact ⟨[], .inl rfl, (List.append_nil w).symm⟩
    · exact ⟨'/' :: v, .inr rfl, rfl⟩
  · rintro ⟨rest, rfl | hrest, rfl⟩
    · exact .inl (List.append_nil directory)
    · obtain ⟨v, rfl⟩ := List.head?_eq_some_iff.mp hrest
      exact .inr ⟨directory, rfl, v, rfl⟩

/-- **A plan matches the paths of its language** -/
theorem Plan.isMatch_iff (path : List Char) (plan : Plan) : plan.isMatch path = true ↔ path ∈ plan.language := by
  cases plan with
  | everything => exact ⟨fun _ => trivial, fun _ => rfl⟩
  | exactly text => exact beq_iff_eq
  | stem text =>
    simp only [Plan.isMatch, Option.any_eq_true, after?_eq_some_iff, Plan.language, mem_singleton_mul,
      Token.mem_language_star]
    exact exists_congr fun rest => by simp [and_comm]
  | ending text =>
    simp only [Plan.isMatch, Option.any_eq_true, before?_eq_some_iff, Plan.language, mem_mul_singleton,
      Token.mem_language_star]
    exact exists_congr fun rest => by simp [and_comm]
  | within directory =>
    simp only [Plan.isMatch, Option.any_eq_true, after?_eq_some_iff, Plan.language, mem_orBelow_singleton]
    exact exists_congr fun rest => by simp [and_comm]
  | expression e => exact e.isMatch_iff path

/-! ## Plans of tokens -/

theorem Token.language_of_plain {t : Token} {c : Char} (h : t.plain? = some c) : t.language = {[c]} := by
  cases t <;> simp only [Token.plain?, reduceCtorEq, Option.some_inj] at h
  case literal => rw [← h, Token.language]
  case separator => rw [← h, Token.language]

theorem plainText?_cons_eq_some_iff {t : Token} {tokens : List Token} {text : List Char} :
    plainText? (t :: tokens) = some text ↔
      ∃ c, t.plain? = some c ∧ ∃ rest, plainText? tokens = some rest ∧ c :: rest = text := by
  simp [plainText?, List.mapM_cons, Option.bind_eq_some_iff]

theorem sequenceLanguage_of_plainText {tokens : List Token} {text : List Char} (h : plainText? tokens = some text) :
    sequenceLanguage tokens = {text} := by
  induction tokens generalizing text with
  | nil =>
    obtain rfl : [] = text := by simpa [plainText?] using h
    rfl
  | cons t tokens ih =>
    obtain ⟨c, hc, rest, hrest, rfl⟩ := plainText?_cons_eq_some_iff.mp h
    rw [sequenceLanguage, Token.language_of_plain hc, ih hrest]
    ext w
    rw [mem_singleton_mul]
    constructor
    · rintro ⟨_, rfl, hw⟩
      exact hw
    · intro hw
      exact ⟨rest, rfl, hw⟩

theorem sequenceLanguage_of_stem {tokens : List Token} {text : List Char} (h : Plan.stem? tokens = some text) :
    sequenceLanguage tokens = {text} * Token.star.language := by
  unfold Plan.stem? at h
  split at h
  · next hlast =>
    obtain ⟨front, rfl⟩ := List.getLast?_eq_some_iff.mp hlast
    rw [List.dropLast_concat] at h
    rw [sequenceLanguage_append, sequenceLanguage_of_plainText h, sequenceLanguage_singleton]
  · cases h

theorem sequenceLanguage_of_ending {tokens : List Token} {text : List Char} (h : Plan.ending? tokens = some text) :
    sequenceLanguage tokens = Token.star.language * {text} := by
  unfold Plan.ending? at h
  split at h
  · next rest =>
    rw [sequenceLanguage, sequenceLanguage_of_plainText (Option.filter_eq_some_iff.mp h).1]
  · cases h

theorem Expr.language_of_compile {members : List Expr} {e : Expr} (h : Expr.compile members = .ok e) :
    e.language = Expr.languageAll members := by
  unfold Expr.compile at h
  split at h
  · cases h
  · cases h
    rfl

/-- **The plan of a pattern for files has the language of the tokens** -/
theorem Plan.language_of_ofFile {tokens : List Token} {plan : Plan} (h : Plan.ofFile tokens = .ok plan) :
    plan.language = sequenceLanguage tokens := by
  unfold Plan.ofFile at h
  split at h
  · next hplain =>
    cases h
    exact (sequenceLanguage_of_plainText hplain).symm
  · next hstem =>
    cases h
    exact (sequenceLanguage_of_stem hstem).symm
  · next hending =>
    cases h
    exact (sequenceLanguage_of_ending hending).symm
  · obtain ⟨e, he, rfl⟩ := Except.map_eq_ok_iff.mp h
    exact (Expr.language_of_compile he).trans (Expr.languageAll_ofTokens tokens)

/-- **The plan of a pattern for a directory has the language of the directory** -/
theorem Plan.language_of_ofDirectory {tokens : List Token} {plan : Plan} (h : Plan.ofDirectory tokens = .ok plan) :
    plan.language = orBelow (sequenceLanguage tokens) := by
  unfold Plan.ofDirectory at h
  split at h
  · next hplain =>
    cases h
    rw [sequenceLanguage_of_plainText hplain, Plan.language]
  · obtain ⟨e, he, rfl⟩ := Except.map_eq_ok_iff.mp h
    exact (Expr.language_of_compile he).trans (Expr.languageAll_ofDirectory tokens)

/-! ## Patterns -/

theorem normalize_eq_nil_iff (pattern : List Char) : normalize pattern = [] ↔ pattern = [] := by
  fun_cases normalize pattern <;> simp [*]

/-- Only a single star is the pattern that matches every path. -/
theorem isCatchAll_iff (pattern : List Char) : isCatchAll pattern = true ↔ pattern = ['*'] := by
  rw [isCatchAll, beq_iff_eq]
  constructor
  · intro h
    fun_cases normalize pattern
    case case4 c cs hcs =>
      rw [normalize.eq_3 c cs hcs, List.cons.injEq, normalize_eq_nil_iff] at h
      obtain ⟨hc, rfl⟩ := h
      split at hc
      · cases hc
      · rw [hc]
    all_goals simp_all [normalize]
  · rintro rfl
    rfl

theorem planOf_of_catchAll {pattern : List Char} (h : isCatchAll pattern = true) :
    planOf pattern = .ok .everything := by rw [planOf, if_pos h]

/-- A pattern that is not a single star has the language of its body. -/
theorem language_of_planOf {pattern : List Char} {plan : Plan} (hpattern : isCatchAll pattern = false)
    (h : planOf pattern = .ok plan) : ∃ scanned, scan (Body.ofPattern pattern).text = .ok scanned ∧
      plan.language = bodyLanguage (Body.ofPattern pattern).directory scanned.tokens := by
  rw [planOf, hpattern, if_neg Bool.false_ne_true] at h
  cases hscan : scan (Body.ofPattern pattern).text with
  | error e => simp [hscan, bind, Except.bind] at h
  | ok scanned =>
    refine ⟨scanned, rfl, ?_⟩
    simp only [hscan, bind, Except.bind] at h
    unfold bodyLanguage
    split at h
    · next hdirectory => rw [if_pos hdirectory, Plan.language_of_ofDirectory h]
    · next hdirectory => rw [if_neg hdirectory, Plan.language_of_ofFile h]

/-- A pattern that compiles, and is not a single star, matches the paths that its body stands for. -/
theorem planOf_isMatch_iff {pattern path : List Char} (hpattern : isCatchAll pattern = false) :
    (∃ plan, planOf pattern = .ok plan ∧ plan.isMatch path = true) ↔
      ∃ plan scanned, planOf pattern = .ok plan ∧ scan (Body.ofPattern pattern).text = .ok scanned ∧
        path ∈ bodyLanguage (Body.ofPattern pattern).directory scanned.tokens := by
  constructor
  · rintro ⟨plan, hplan, hmatch⟩
    obtain ⟨scanned, hscan, hlanguage⟩ := language_of_planOf hpattern hplan
    exact ⟨plan, scanned, hplan, hscan, hlanguage ▸ (plan.isMatch_iff path).mp hmatch⟩
  · rintro ⟨plan, scanned, hplan, hscan, hpath⟩
    obtain ⟨scanned', hscan', hlanguage⟩ := language_of_planOf hpattern hplan
    obtain rfl : scanned = scanned' := Except.ok.inj (hscan.symm.trans hscan')
    exact ⟨plan, hplan, (plan.isMatch_iff path).mpr (hlanguage ▸ hpath)⟩

theorem compile_eq_ok_iff {pattern : String} {glob : Glob} :
    Glob.compile pattern = .ok glob ↔ ∃ plan, planOf pattern.toList = .ok plan ∧ glob = ⟨pattern, plan⟩ := by
  rw [Glob.compile, Except.map_eq_ok_iff]
  exact exists_congr fun plan => and_congr_right fun _ => eq_comm

end PathOwners.Glob

namespace PathOwners

open Glob

theorem pathMatches_iff_planOf (path pattern : String) : pathMatches path pattern = true ↔
    ∃ plan, planOf pattern.toList = .ok plan ∧ plan.isMatch (normalizePath path.toList) = true := by
  unfold pathMatches Glob.compile
  cases planOf pattern.toList with
  | error e => simp [Except.map, Glob.accepts]
  | ok plan => simp [Except.map, Glob.accepts, Glob.isMatch]

end PathOwners
