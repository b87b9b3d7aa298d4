import PathOwners.Proofs.Glob.Compiling
import PathOwners.Proofs.Glob.Expansion
import PathOwners.Proofs.Glob.StarRun

/-!
# Groups and their expansions

A pattern with groups matches what its expansions stand for, each read with the marks of its braces: a run of stars has
the role that the body gives it. Where every run has the same role in the text of its expansion, the pattern matches
exactly the paths that some expansion matches, itself taken as a pattern (`pathMatches_expansions`). A run can have
another role: in `{a,**}b` the stars end an alternative, so they cross directories, and in `**b` they do not
(`pathMatches_expansions_differ`).
-/

namespace PathOwners.Glob

/-! ## The text of an expansion as a pattern -/

/-- The lexemes of an expansion. -/
def expansionLexemes : List Piece → List Lexeme
  | [] => []
  | .lexeme l :: ps => l :: expansionLexemes ps
  | _ :: ps => expansionLexemes ps

section Text

variable {ps : List Piece}

theorem mem_expansionLexemes {l : Lexeme} {ps : List Piece} : l ∈ expansionLexemes ps ↔ .lexeme l ∈ ps := by
  induction ps with
  | nil => simp [expansionLexemes]
  | cons p ps ih => cases p <;> simp [expansionLexemes, ih]

theorem unmarked_eq_map (ps : List Piece) : unmarked ps = (expansionLexemes ps).map .lexeme := by
  induction ps with
  | nil => rfl
  | cons p ps ih =>
    cases p with
    | lexeme l =>
      rw [unmarked_cons_of_not_isMark rfl, ih]
      rfl
    | opening => exact ih
    | closing => exact ih

theorem expansionText_eq (ps : List Piece) : expansionText ps = (expansionLexemes ps).flatMap Lexeme.text := by
  unfold expansionText
  induction ps with
  | nil => rfl
  | cons p ps ih => cases p <;> simp [expansionLexemes, Piece.text, ih]

theorem settled_flatMap {ls : List Lexeme} (h : ∀ l ∈ ls, Settled l.text) : Settled (ls.flatMap Lexeme.text) := by
  induction ls with
  | nil => exact settled_nil
  | cons l ls ih =>
    obtain ⟨hl, hls⟩ := List.forall_mem_cons.mp h
    exact hl.append (ih hls)

end Text

/-! ## Compiling tokens without alternatives -/

section Depth

theorem depth_ofToken_token (l : Lexeme) : (Expr.ofToken l.token).depth ≤ 2 := by
  unfold Lexeme.token
  split
  · exact Atom.depth_le _
  · exact Atom.depth_le _
  · exact Atom.depth_le _
  · next negated items => cases negated <;> exact Atom.depth_le _

/-- Pieces give tokens whose expressions are not deep. -/
theorem depth_of_mem_tokens {st : Stance} {p : Piece} {t : Token} (ht : t ∈ st.tokens p) :
    (Expr.ofToken t).depth ≤ 4 := by
  have hstars : ∀ t ∈ st.starTokens, (Expr.ofToken t).depth ≤ 4 := by
    unfold Stance.starTokens
    split_ifs <;> simp [Expr.ofToken, Expr.depth, Atom.inSegment, Atom.depth, joinDepth]
  unfold Stance.tokens at ht
  split at ht
  · cases ht
  · split_ifs at ht
    · obtain rfl := List.mem_singleton.mp ht
      decide
    · rcases List.mem_append.mp ht with ht | ht
      · exact hstars t ht
      · obtain rfl := List.mem_singleton.mp ht
        decide
  · rcases List.mem_append.mp ht with ht | ht
    · exact hstars t ht
    · obtain rfl := List.mem_singleton.mp ht
      exact (depth_ofToken_token _).trans (by decide)
  · exact hstars t ht
  · unfold Stance.finalTokens at ht
    split_ifs at ht
    · obtain rfl := List.mem_singleton.mp ht
      decide
    · exact hstars t ht

theorem depth_of_mem_readAll {st : Stance} {ps : List Piece} {t : Token} (ht : t ∈ st.readAll ps) :
    (Expr.ofToken t).depth ≤ 4 := by
  induction ps generalizing st with
  | nil => exact depth_of_mem_tokens (p := .closing) ht
  | cons p ps ih =>
    rw [Stance.readAll_cons] at ht
    rcases List.mem_append.mp ht with ht | ht
    · exact depth_of_mem_tokens ht
    · exact ih ht

end Depth

/-! ## Bodies and their expansions -/

/-- A body in normal form that compiles as a pattern, each of whose expansions is the body of a pattern for files, no
expansion bringing together two stars that were on different sides of a brace. -/
structure Expandable (body : String) : Prop where
  normal : normalize body.toList = body.toList
  compiles : ∃ glob, Glob.compile ("/" ++ body) = .ok glob
  nonempty : ∀ ps ∈ expansions body.toList, expansionText ps ≠ []
  ending : ∀ ps ∈ expansions body.toList, (expansionText ps).getLast? ≠ some '/'
  apart : ∀ ps ∈ expansions body.toList, joinsStars ps = false

/-- The pattern that an expansion is by itself. -/
def expansionPattern (ps : List Piece) : String := "/" ++ String.ofList (expansionText ps)

theorem toList_rooted (body : String) : ("/" ++ body).toList = '/' :: body.toList := by
  rw [String.toList_append]
  rfl

theorem toList_expansionPattern (ps : List Piece) : (expansionPattern ps).toList = '/' :: expansionText ps := by
  rw [expansionPattern, toList_rooted, String.toList_ofList]

/-- A lexeme that ends with a separator is one. -/
theorem eq_separator_of_getLast? {l : Lexeme} (hl : l.Genuine) (hsettled : Settled l.text)
    (hlast : l.text.getLast? = some '/') : l = .plain '/' := by
  cases l with
  | plain c => simpa [Lexeme.text] using hlast
  | escape c =>
    obtain rfl : c = '/' := by simpa [Lexeme.text] using hlast
    exact absurd hsettled.normalize (by decide)
  | bracket text negated items => cases hl.2.1.symm.trans hlast

namespace Expandable

variable {body : String} {ls : List Lexeme} {ps : List Piece}

theorem exists_lexemes (h : Expandable body) : ∃ ls, lexemes body.toList = some ls := by
  obtain ⟨glob, hglob⟩ := h.compiles
  obtain ⟨plan, hplan, -⟩ := compile_eq_ok_iff.mp hglob
  rw [toList_rooted] at hplan
  obtain ⟨scanned, hscan, -⟩ := language_of_planOf (isCatchAll_rooted _) hplan
  obtain ⟨s, hs, hfinish⟩ := scan_eq_ok_iff.mp hscan
  have hmode := (ScanState.finish_eq_ok_iff.mp hfinish).1.2
  by_cases hlast : body.toList.getLast? = some '/'
  · obtain ⟨front, hfront⟩ := List.getLast?_eq_some_iff.mp hlast
    have hnormal := h.normal
    rw [hfront] at hs hnormal ⊢
    rw [ofPattern_rooted_directory hnormal] at hs
    obtain ⟨t, hstep, ht⟩ := ScanState.exists_step_separator hmode
    have hrun : ScanState.run {} (front ++ ['/']) = .ok t :=
      ScanState.run_append_eq_ok_iff.mpr ⟨s, hs, (ScanState.run_singleton s '/').trans hstep⟩
    exact Glob.exists_lexemes hnormal hrun ht.ne_inClass
  by_cases hne : body.toList = []
  · exact ⟨[], by rw [hne]; rfl⟩
  · rw [ofPattern_rooted h.normal hne hlast] at hs
    exact Glob.exists_lexemes h.normal hs hmode

theorem body_ne_nil (h : Expandable body) : body.toList ≠ [] := by
  intro hnil
  exact h.nonempty [] (by rw [hnil]; exact List.mem_singleton.mpr rfl) rfl

theorem body_ending (h : Expandable body) : body.toList.getLast? ≠ some '/' := by
  intro hlast
  obtain ⟨ls, hls⟩ := h.exists_lexemes
  have htext := text_of_lexemes hls
  rcases List.eq_nil_or_concat ls with rfl | ⟨front, l, rfl⟩
  · exact h.body_ne_nil htext.symm
  rw [List.concat_eq_append] at hls htext
  have hl : l ∈ front ++ [l] := List.mem_append_right _ (List.mem_singleton.mpr rfl)
  have hgenuine := genuine_of_lexemes hls l hl
  obtain ⟨c, cs, hcons, -⟩ := l.exists_text hgenuine
  have hend : l.text.getLast? = some '/' := by
    rw [← hlast, ← htext, List.flatMap_append, List.flatMap_singleton, List.getLast?_append, hcons,
      List.getLast?_eq_some_getLast (List.cons_ne_nil c cs)]
    rfl
  obtain rfl := eq_separator_of_getLast? hgenuine (settled_of_lexemes hls h.normal l hl) hend
  obtain ⟨ps, hps⟩ := exists_expansion_concat hls (by decide) (by decide)
  refine h.ending _ hps ?_
  rw [expansionText, List.flatMap_append]
  exact List.getLast?_concat

/-- The body is scanned. -/
theorem exists_scan (h : Expandable body) : ∃ scanned, scan body.toList = .ok scanned := by
  obtain ⟨glob, hglob⟩ := h.compiles
  obtain ⟨plan, hplan, -⟩ := compile_eq_ok_iff.mp hglob
  rw [toList_rooted, planOf_rooted h.normal h.body_ne_nil h.body_ending] at hplan
  obtain ⟨scanned, hscan, -⟩ := Except.bind_eq_ok_iff.mp hplan
  exact ⟨scanned, hscan⟩

/-- A path matches if some expansion stands for it, read with its marks. -/
theorem pathMatches_iff_expansions (h : Expandable body) (path : String) : pathMatches path ("/" ++ body) = true ↔
    ∃ ps ∈ expansions body.toList, normalizePath path.toList ∈ sequenceLanguage (readPieces ps) := by
  obtain ⟨ls, hls⟩ := h.exists_lexemes
  obtain ⟨scanned, hscan⟩ := h.exists_scan
  obtain ⟨glob, hglob⟩ := h.compiles
  rw [pathMatches_rooted_iff (toList_rooted body) h.normal h.body_ne_nil h.body_ending hglob hscan,
    mem_scan_iff hls hscan]

/-- The text of an expansion is in normal form. -/
theorem normalize_expansionText (h : Expandable body) (hps : ps ∈ expansions body.toList) :
    normalize (expansionText ps) = expansionText ps := by
  obtain ⟨ls, hls⟩ := h.exists_lexemes
  rw [expansionText_eq]
  refine (settled_flatMap fun l hl => ?_).normalize
  exact settled_of_lexemes hls h.normal l (mem_lexemes_of_mem_expansions hls hps (mem_expansionLexemes.mp hl)).1

/-- The text of an expansion is scanned as the expansion is read without its marks. -/
theorem scan_expansionText (h : Expandable body) (hps : ps ∈ expansions body.toList) :
    ∃ doubleStar, scan (expansionText ps) = .ok ⟨readPieces (unmarked ps), doubleStar⟩ := by
  obtain ⟨ls, hls⟩ := h.exists_lexemes
  have hmem : ∀ l ∈ expansionLexemes ps, l ∈ ls ∧ l ≠ .plain '\x7b' := fun l hl =>
    mem_lexemes_of_mem_expansions hls hps (mem_expansionLexemes.mp hl)
  rw [expansionText_eq, unmarked_eq_map]
  exact scan_lexemes (fun l hl => genuine_of_lexemes hls l (hmem l hl).1) fun hl => (hmem _ hl).2 rfl

/-- An expansion compiles as a pattern by itself. -/
theorem compile_expansionPattern (h : Expandable body) (hps : ps ∈ expansions body.toList) :
    ∃ glob, Glob.compile (expansionPattern ps) = .ok glob := by
  obtain ⟨doubleStar, hscan⟩ := h.scan_expansionText hps
  have hdepth : ∀ t ∈ readPieces (unmarked ps), (Expr.ofToken t).depth < depthLimit := fun t ht =>
    (depth_of_mem_readAll ht).trans_lt (by decide)
  obtain ⟨plan, hplan⟩ := exists_ofFile_iff.mpr hdepth
  refine ⟨⟨expansionPattern ps, plan⟩, compile_eq_ok_iff.mpr ⟨plan, ?_, rfl⟩⟩
  rw [toList_expansionPattern,
    planOf_rooted (h.normalize_expansionText hps) (h.nonempty ps hps) (h.ending ps hps), hscan]
  exact hplan

/-- A path matches an expansion as a pattern if the expansion stands for it, read without its marks. -/
theorem pathMatches_expansionPattern_iff (h : Expandable body) (hps : ps ∈ expansions body.toList) (path : String) :
    pathMatches path (expansionPattern ps) = true ↔
      normalizePath path.toList ∈ sequenceLanguage (readPieces (unmarked ps)) := by
  obtain ⟨doubleStar, hscan⟩ := h.scan_expansionText hps
  obtain ⟨glob, hglob⟩ := h.compile_expansionPattern hps
  exact pathMatches_rooted_iff (toList_expansionPattern ps) (h.normalize_expansionText hps) (h.nonempty ps hps)
    (h.ending ps hps) hglob hscan path

end Expandable

end Glob

open Glob

/-- **A pattern with groups matches what its expansions match, if their runs of stars keep their roles** -/
theorem pathMatches_expansions {body : String} (h : Expandable body) :
    (∀ path, pathMatches path ("/" ++ body) = true ↔
      ∃ ps ∈ expansions body.toList, normalizePath path.toList ∈ sequenceLanguage (readPieces ps)) ∧
    (∀ ps ∈ expansions body.toList, ∃ scanned, scan (expansionText ps) = .ok scanned ∧
      (readPieces ps = scanned.tokens ↔ keepsRoles [] ps = true)) ∧
    ((∀ ps ∈ expansions body.toList, keepsRoles [] ps = true) → ∀ path,
      pathMatches path ("/" ++ body) = true ↔ ∃ ps ∈ expansions body.toList,
        (∃ glob, Glob.compile (expansionPattern ps) = .ok glob) ∧ pathMatches path (expansionPattern ps) = true) := by
  have hread : ∀ ps ∈ expansions body.toList, readPieces ps = readPieces (unmarked ps) ↔ keepsRoles [] ps = true :=
    fun ps hps => readAll_unmarked_iff [] ps (h.apart ps hps)
  refine ⟨h.pathMatches_iff_expansions, fun ps hps => ?_, fun hkeeps path => ?_⟩
  · obtain ⟨doubleStar, hscan⟩ := h.scan_expansionText hps
    exact ⟨_, hscan, hread ps hps⟩
  · rw [h.pathMatches_iff_expansions]
    refine exists_congr fun ps => and_congr_right fun hps => ?_
    rw [h.pathMatches_expansionPattern_iff hps, ← (hread ps hps).mpr (hkeeps ps hps)]
    exact (and_iff_right (h.compile_expansionPattern hps)).symm

/-- A path that only the second alternative stands for: its stars end the body as they end the expansion. -/
theorem pathMatches_expansions_below : Expandable "src/\x7ba,b/**\x7d" ∧
    (∀ ps ∈ expansions "src/\x7ba,b/**\x7d".toList, keepsRoles [] ps = true) ∧
    (pathMatches "src/b/c/d" ("/" ++ "src/\x7ba,b/**\x7d") = true ↔ ∃ ps ∈ expansions "src/\x7ba,b/**\x7d".toList,
      (∃ glob, Glob.compile (expansionPattern ps) = .ok glob) ∧
        pathMatches "src/b/c/d" (expansionPattern ps) = true) := by
  have hbody : Expandable "src/\x7ba,b/**\x7d" := ⟨by decide +kernel, (exists_compile_iff _).mpr (by decide +kernel),
    by decide +kernel, by decide +kernel, by decide +kernel⟩
  have hkeeps : ∀ ps ∈ expansions "src/\x7ba,b/**\x7d".toList, keepsRoles [] ps = true := by decide +kernel
  exact ⟨hbody, hkeeps, (pathMatches_expansions hbody).2.2 hkeeps "src/b/c/d"⟩

/-- Stars that end an alternative cross directories, though neither expansion has a whole segment of stars. -/
theorem pathMatches_expansions_differ : Expandable "\x7ba,**\x7db" ∧
    pathMatches "x/yb" ("/" ++ "\x7ba,**\x7db") = true ∧
    ¬ ∃ ps ∈ expansions "\x7ba,**\x7db".toList,
      (∃ glob, Glob.compile (expansionPattern ps) = .ok glob) ∧ pathMatches "x/yb" (expansionPattern ps) = true := by
  have hbody : Expandable "\x7ba,**\x7db" := ⟨by decide +kernel, (exists_compile_iff _).mpr (by decide +kernel),
    by decide +kernel, by decide +kernel, by decide +kernel⟩
  have hnone : ∀ ps ∈ expansions "\x7ba,**\x7db".toList, pathMatches "x/yb" (expansionPattern ps) = false := by
    decide +kernel
  refine ⟨hbody, by decide +kernel, ?_⟩
  rintro ⟨ps, hps, -, hmatch⟩
  exact absurd hmatch (by simp [hnone ps hps])

end PathOwners
