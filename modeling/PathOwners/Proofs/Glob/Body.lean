import PathOwners.Proofs.Glob.PlainScan

/-!
# Bodies of patterns

The body of a pattern that is put together from parts. A separator between two parts parts their normal forms too
(`normalize_append_separator`), so the body of such a pattern is known from the normal forms of its parts
(`ofPattern_rooted`, `ofPattern_append_separator`). A body is in normal form, whatever its pattern
(`normalize_bodyText`), and a pattern that compiles matches the paths that its body stands for
(`exists_scan_of_compile`).
-/

namespace PathOwners.Glob

/-! ## Normal forms of parts -/

section NormalForms

/-- A separator escapes nothing, and a backslash before it is a separator itself. -/
theorem normalize_append_separator (front rest : List Char) :
    normalize (front ++ '/' :: rest) = normalize front ++ '/' :: normalize rest := by
  fun_induction normalize front with
  | case1 => exact normalize_cons_of_ne (by decide) rest
  | case2 c cs hc ih => rw [List.cons_append, List.cons_append, normalize, if_pos hc, ih]; rfl
  | case3 c cs hc ih => rw [List.cons_append, List.cons_append, normalize, if_neg hc, ← List.cons_append, ih]; rfl
  | case4 c cs hcs ih =>
    rw [List.cons_append, List.cons_append, ← ih]
    by_cases hc : c = '\\'
    · subst hc
      cases cs with
      | nil => rfl
      | cons d ds => exact absurd rfl (hcs d ds rfl)
    · rw [normalize_cons_of_ne hc, if_neg hc]

theorem ofPattern_normalize (pattern : List Char) : Body.ofPattern (normalize pattern) = Body.ofPattern pattern := by
  rw [Body.ofPattern, Body.ofPattern, normalize_normalize]

theorem normalize_dropLeadingSlash {text : List Char} (h : normalize text = text) :
    normalize (dropLeadingSlash text) = dropLeadingSlash text := by
  unfold dropLeadingSlash
  split
  · exact (settled_singleton (c := '/') (by decide)).tail h
  · exact h

/-- **The body of a pattern is in normal form.** -/
theorem normalize_bodyText (pattern : List Char) :
    normalize (Body.ofPattern pattern).text = (Body.ofPattern pattern).text := by
  have hnormal := normalize_normalize pattern
  unfold Body.ofPattern Body.ofNormal
  split
  · next hlast =>
    obtain ⟨front, hfront⟩ := List.getLast?_eq_some_iff.mp hlast
    rw [hfront, normalize_append_separator] at hnormal
    rw [hfront, List.dropLast_concat]
    exact normalize_dropLeadingSlash (List.append_left_injective ['/'] hnormal)
  · exact normalize_dropLeadingSlash hnormal

end NormalForms

/-! ## Paths -/

/-- No backslash is left in a path. -/
theorem backslash_not_mem_normalizePath (path : List Char) : '\\' ∉ normalizePath path := by
  intro h
  obtain ⟨c, -, hc⟩ := List.mem_map.mp h
  split_ifs at hc with hbackslash
  · cases hc
  · exact hbackslash hc

theorem normalizePath_of_not_mem {path : List Char} (h : '\\' ∉ path) : normalizePath path = path := by
  induction path with
  | nil => rfl
  | cons c path ih =>
    obtain ⟨hc, hpath⟩ := not_or.mp (List.mem_cons.not.mp h)
    rw [normalizePath, List.map_cons, if_neg (Ne.symm hc)]
    exact congrArg _ (ih hpath)

/-- A part of a path is a path without backslashes. -/
theorem normalizePath_of_subset {path part : List Char} (h : part ⊆ normalizePath path) :
    normalizePath part = part := normalizePath_of_not_mem fun hmem => backslash_not_mem_normalizePath path (h hmem)

/-! ## Patterns that compile -/

/-- A pattern that compiles, and is not a single star, matches the paths that its body stands for. -/
theorem exists_scan_of_compile {pattern : String} (hpattern : isCatchAll pattern.toList = false)
    (hcompile : ∃ glob, Glob.compile pattern = .ok glob) :
    ∃ scanned, scan (Body.ofPattern pattern.toList).text = .ok scanned ∧ ∀ path, pathMatches path pattern = true ↔
      normalizePath path.toList ∈ bodyLanguage (Body.ofPattern pattern.toList).directory scanned.tokens := by
  obtain ⟨glob, hglob⟩ := hcompile
  obtain ⟨plan, hplan, -⟩ := compile_eq_ok_iff.mp hglob
  obtain ⟨scanned, hscan, hlanguage⟩ := language_of_planOf hpattern hplan
  refine ⟨scanned, hscan, fun path => ?_⟩
  rw [pathMatches_iff_planOf, hplan, ← hlanguage, ← Plan.isMatch_iff]
  simp

/-- Whether a pattern compiles can be computed. -/
theorem exists_compile_iff (pattern : String) :
    (∃ glob, Glob.compile pattern = .ok glob) ↔ (Glob.compile pattern).isOk = true := by
  cases Glob.compile pattern <;> simp [Except.isOk, Except.toBool]

/-! ## Patterns that begin with a separator -/

section Rooted

variable {text : List Char}

theorem normalize_rooted (hnormal : normalize text = text) : normalize ('/' :: text) = '/' :: text := by
  rw [← List.singleton_append, settled_singleton (by decide), hnormal]

theorem ofPattern_rooted (hnormal : normalize text = text) (hne : text ≠ []) (hlast : text.getLast? ≠ some '/') :
    Body.ofPattern ('/' :: text) = ⟨text, false⟩ := by
  have hlast' : ('/' :: text).getLast? ≠ some '/' := by
    obtain ⟨c, cs, rfl⟩ := List.exists_cons_of_ne_nil hne
    rwa [List.getLast?_cons_cons]
  rw [Body.ofPattern, normalize_rooted hnormal, Body.ofNormal, if_neg hlast', dropLeadingSlash]

theorem ofPattern_rooted_directory (hnormal : normalize (text ++ ['/']) = text ++ ['/']) :
    Body.ofPattern ('/' :: (text ++ ['/'])) = ⟨text, true⟩ := by
  have hlast : ('/' :: (text ++ ['/'])).getLast? = some '/' := by
    rw [← List.cons_append, List.getLast?_concat]
  rw [Body.ofPattern, normalize_rooted hnormal, Body.ofNormal, if_pos hlast, ← List.cons_append, List.dropLast_concat,
    dropLeadingSlash]

theorem isCatchAll_rooted (text : List Char) : isCatchAll ('/' :: text) = false := by
  rw [← Bool.not_eq_true, isCatchAll_iff]
  simp

/-- The plan of a pattern that begins with a separator is the plan for the tokens of the rest. -/
theorem planOf_rooted (hnormal : normalize text = text) (hne : text ≠ []) (hlast : text.getLast? ≠ some '/') :
    planOf ('/' :: text) = (scan text).bind fun scanned => Plan.ofFile scanned.tokens := by
  rw [planOf, isCatchAll_rooted, if_neg Bool.false_ne_true, ofPattern_rooted hnormal hne hlast]
  rfl

/-- A pattern that begins with a separator matches the paths of the language of the rest. -/
theorem pathMatches_rooted_iff {pattern : String} {glob : Glob} {scanned : Scanned}
    (hpattern : pattern.toList = '/' :: text) (hnormal : normalize text = text) (hne : text ≠ [])
    (hlast : text.getLast? ≠ some '/') (hcompile : Glob.compile pattern = .ok glob) (hscan : scan text = .ok scanned)
    (path : String) :
    pathMatches path pattern = true ↔ normalizePath path.toList ∈ sequenceLanguage scanned.tokens := by
  obtain ⟨scanned', hscan', hmatch⟩ :=
    exists_scan_of_compile (hpattern ▸ isCatchAll_rooted text) ⟨glob, hcompile⟩
  rw [hpattern, ofPattern_rooted hnormal hne hlast] at hscan' hmatch
  obtain rfl : scanned' = scanned := Except.ok.inj (hscan'.symm.trans hscan)
  exact hmatch path

end Rooted

/-! ## Patterns with a separator in them -/

section Separated

variable {front middle rest : List Char}

/-- A text without one `/` at its end. -/
def dropTrailingSlash (text : List Char) : List Char := if text.getLast? = some '/' then text.dropLast else text

theorem ofNormal_eq (pattern : List Char) : Body.ofNormal pattern =
    ⟨dropLeadingSlash (dropTrailingSlash pattern), decide (pattern.getLast? = some '/')⟩ := by
  unfold Body.ofNormal dropTrailingSlash
  split_ifs <;> simp_all

theorem dropTrailingSlash_append (front : List Char) (hrest : rest ≠ []) :
    dropTrailingSlash (front ++ rest) = front ++ dropTrailingSlash rest := by
  unfold dropTrailingSlash
  rw [List.getLast?_append_of_ne_nil front hrest]
  split_ifs
  · exact List.dropLast_append_of_ne_nil hrest
  · rfl

theorem dropLeadingSlash_append (hfront : front ≠ []) (rest : List Char) :
    dropLeadingSlash (front ++ rest) = dropLeadingSlash front ++ rest := by
  obtain ⟨c, cs, rfl⟩ := List.exists_cons_of_ne_nil hfront
  unfold dropLeadingSlash
  split <;> simp_all

/-- What the body of a pattern has of the part before a separator, with that separator: nothing if the pattern begins
with it. -/
def frontText (front : List Char) : List Char := dropLeadingSlash (normalize front ++ ['/'])

/-- The body of a pattern that has a separator in it. -/
theorem ofPattern_append_separator (front : List Char) (hmiddle : Settled middle) (hrest : rest ≠ []) :
    Body.ofPattern (front ++ '/' :: (middle ++ rest)) =
      ⟨frontText front ++ (middle ++ dropTrailingSlash (normalize rest)),
        decide ((normalize rest).getLast? = some '/')⟩ := by
  have hnormal : normalize rest ≠ [] := (normalize_eq_nil_iff rest).not.mpr hrest
  have hsplit : normalize front ++ '/' :: (middle ++ normalize rest) =
      (normalize front ++ ['/']) ++ (middle ++ normalize rest) := by simp
  have hmiddle' : middle ++ normalize rest ≠ [] := by simp [hnormal]
  rw [Body.ofPattern, normalize_append_separator, hmiddle, ofNormal_eq, hsplit, dropTrailingSlash_append _ hmiddle',
    dropTrailingSlash_append _ hnormal, dropLeadingSlash_append (by simp), List.getLast?_append_of_ne_nil _ hmiddle',
    List.getLast?_append_of_ne_nil _ hnormal, frontText]

/-- One more separator at the end makes a pattern one for a directory. -/
theorem ofPattern_append_slash (pattern : List Char) :
    Body.ofPattern (pattern ++ ['/']) = ⟨dropLeadingSlash (normalize pattern), true⟩ := by
  have hnormal : normalize (pattern ++ ['/']) = normalize pattern ++ ['/'] := normalize_append_separator pattern []
  rw [Body.ofPattern, hnormal, Body.ofNormal, if_pos List.getLast?_concat, List.dropLast_concat]

/-- What is left of a pattern without the separator at its front is its body, or its body and the separator that it
ends in. -/
theorem dropLeadingSlash_normalize (pattern : List Char) :
    dropLeadingSlash (normalize pattern) = (Body.ofPattern pattern).text ∨
      dropLeadingSlash (normalize pattern) = (Body.ofPattern pattern).text ++ ['/'] := by
  rw [Body.ofPattern, Body.ofNormal]
  split_ifs with hlast
  · obtain ⟨text, htext⟩ := List.getLast?_eq_some_iff.mp hlast
    rw [htext, List.dropLast_concat]
    by_cases hnil : text = []
    · exact .inl (by rw [hnil]; rfl)
    · exact .inr (dropLeadingSlash_append hnil ['/'])
  · exact .inl rfl

/-- The part before a separator is the body of a pattern by itself, with one separator or two behind it, or it is
nothing. -/
theorem frontText_eq (front : List Char) :
    frontText front = [] ∨ frontText front = (Body.ofPattern front).text ++ ['/'] ∨
      frontText front = (Body.ofPattern front).text ++ ['/', '/'] := by
  by_cases hempty : normalize front = []
  · exact .inl (by rw [frontText, hempty]; rfl)
  have hfront : frontText front = dropLeadingSlash (normalize front) ++ ['/'] := dropLeadingSlash_append hempty _
  rw [hfront]
  rcases dropLeadingSlash_normalize front with hbody | hbody
  · exact .inr (.inl (by rw [hbody]))
  · exact .inr (.inr (by rw [hbody, List.append_assoc]; rfl))

end Separated

end PathOwners.Glob
