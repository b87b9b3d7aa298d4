import PathOwners.Proofs.Glob.PlainScan

/-!
# Escaped paths

A path in which every character that can be escaped is escaped. It is a pattern in normal form (`normalize_escape`), a
scan of it reads the characters of the path (`scan_escape`), and if the path neither begins nor ends with a separator
the pattern matches this path alone (`pathMatches_escape`).
-/

namespace PathOwners.Glob

/-! ## Escaped paths -/

/-- A character of a path as a pattern has it: escaped if it can be. -/
def escapeChar (c : Char) : List Char := if isEscapable c then ['\\', c] else [c]

/-- A path as a pattern: all its characters that can be escaped are. -/
def escape (text : List Char) : List Char := text.flatMap escapeChar

section Escape

variable {text : List Char}

theorem escape_cons (c : Char) (text : List Char) : escape (c :: text) = escapeChar c ++ escape text :=
  List.flatMap_cons

theorem escape_ne_nil (h : text ≠ []) : escape text ≠ [] := by
  obtain ⟨c, text, rfl⟩ := List.exists_cons_of_ne_nil h
  rw [escape_cons, escapeChar]
  split <;> simp

/-- Escaping a path adds nothing but backslashes. -/
theorem mem_of_mem_escape {c : Char} (hc : c ≠ '\\') (hmem : c ∈ escape text) : c ∈ text := by
  obtain ⟨d, hd, hmem⟩ := List.mem_flatMap.mp hmem
  rw [escapeChar] at hmem
  obtain rfl : c = d := by
    split at hmem <;> simpa [hc] using hmem
  exact hd

theorem ne_slash_of_isEscapable {c : Char} (h : isEscapable c = true) : c ≠ '/' := by
  rintro rfl
  exact absurd h (by decide)

/-- A scan of an escaped character reads the character. -/
theorem exists_run_escapeChar {before : List Char} {s : ScanState} (hs : s.IsPlainScan before) (hmode : s.mode = .text)
    (c : Char) : ∃ t, s.run (escapeChar c) = .ok t ∧ t.mode = .text ∧ t.IsPlainScan (before ++ [c]) := by
  unfold escapeChar
  split
  · next hc =>
    have hbackslash : s.step '\\' = .ok (s.past '\\' { s with mode := .escaped }) := ScanState.step_of_text hmode
    generalize he : s.past '\\' { s with mode := .escaped } = e at hbackslash
    have hmode' : e.mode = .escaped := he ▸ rfl
    have hplain : e.IsPlainScan before := he ▸ ⟨hs.tokens, hs.groups, hs.doubleStar⟩
    refine ⟨e.past c (e.push (.literal c)), ScanState.run_cons_eq_ok_iff.mpr ⟨e, hbackslash, ?_⟩, rfl, ?_⟩
    · rw [ScanState.run_singleton, ScanState.step_of_escaped hmode']
    · exact (hplain.push (ne_slash_of_isEscapable hc)).past e c
  · next hc =>
    rw [ScanState.run_singleton, ScanState.step_of_text hmode]
    rcases hs.textStep hmode c with ⟨rfl, -⟩ | ⟨-, hmode', hs'⟩ | ⟨hescapable, -⟩
    · exact absurd rfl hc
    · exact ⟨_, rfl, hmode', hs'.past s c⟩
    · exact absurd hescapable hc

/-- **A scan of an escaped path reads the characters of the path.** -/
theorem exists_run_escape : ∀ (text : List Char) {before : List Char} {s : ScanState}, s.IsPlainScan before →
    s.mode = .text → ∃ t, s.run (escape text) = .ok t ∧ t.mode = .text ∧ t.IsPlainScan (before ++ text)
  | [], before, s, hs, hmode => ⟨s, rfl, hmode, by rwa [List.append_nil]⟩
  | c :: text, before, s, hs, hmode => by
    obtain ⟨s', hrun, hmode', hs'⟩ := exists_run_escapeChar hs hmode c
    obtain ⟨t, hrun', hmode'', ht⟩ := exists_run_escape text hs' hmode'
    rw [List.append_assoc, List.singleton_append] at ht
    exact ⟨t, ScanState.run_append_eq_ok_iff.mpr ⟨s', hrun, hrun'⟩, hmode'', ht⟩

theorem scan_escape (text : List Char) : scan (escape text) = .ok ⟨text.map plainToken, false⟩ := by
  obtain ⟨s, hrun, hmode, hs⟩ := exists_run_escape text ScanState.isPlainScan_initial rfl
  exact scan_eq_ok_iff.mpr ⟨s, hrun, hs.finish hmode⟩

theorem settled_escape_text (text : List Char) : Settled (escape text) := by
  induction text with
  | nil => exact settled_nil
  | cons c text ih =>
    rw [escape_cons]
    refine Settled.append ?_ ih
    by_cases hc : isEscapable c = true
    · rw [escapeChar, if_pos hc]
      exact settled_escape hc
    · have hbackslash : c ≠ '\\' := by
        rintro rfl
        exact hc rfl
      rw [escapeChar, if_neg hc]
      exact settled_singleton hbackslash

/-- An escaped path is a pattern in normal form. -/
theorem normalize_escape (text : List Char) : normalize (escape text) = escape text :=
  (settled_escape_text text).normalize

theorem head?_escape (h : text.head? ≠ some '/') : (escape text).head? ≠ some '/' := by
  cases text with
  | nil => exact h
  | cons c text =>
    rw [escape_cons, escapeChar]
    split
    · simp
    · simpa using h

theorem getLast?_escape (text : List Char) : (escape text).getLast? = text.getLast? := by
  rcases List.eq_nil_or_concat text with rfl | ⟨front, c, rfl⟩
  · rfl
  · rw [List.concat_eq_append, escape, List.flatMap_append, List.flatMap_singleton, List.getLast?_append,
      List.getLast?_concat, escapeChar]
    split <;> rfl

theorem dropLeadingSlash_of_head {text : List Char} (h : text.head? ≠ some '/') : dropLeadingSlash text = text := by
  unfold dropLeadingSlash
  split
  · exact absurd rfl h
  · rfl

theorem body_escape (hhead : text.head? ≠ some '/') (hlast : text.getLast? ≠ some '/') :
    Body.ofPattern (escape text) = ⟨escape text, false⟩ := by
  rw [Body.ofPattern, normalize_escape, Body.ofNormal, getLast?_escape, if_neg hlast,
    dropLeadingSlash_of_head (head?_escape hhead)]

theorem escape_ne_star (text : List Char) : isCatchAll (escape text) = false := by
  rw [← Bool.not_eq_true, isCatchAll_iff]
  intro h
  cases text with
  | nil => cases h
  | cons c text =>
    rw [escape_cons, escapeChar] at h
    split at h
    · simp at h
    · next hc =>
      obtain ⟨rfl, -⟩ : c = '*' ∧ escape text = [] := by simpa using h
      exact hc rfl

theorem planOf_escape (hhead : text.head? ≠ some '/') (hlast : text.getLast? ≠ some '/') :
    planOf (escape text) = .ok (.exactly text) := by
  simp only [planOf, escape_ne_star, body_escape hhead hlast, scan_escape, Bool.false_eq_true, if_false]
  show Plan.ofFile (text.map plainToken) = _
  simp only [Plan.ofFile, plainText?_map_plainToken]

end Escape

end PathOwners.Glob

namespace PathOwners

open Glob

/-- **An escaped path is matched by this path alone.** -/
theorem pathMatches_escape {text : List Char} (hhead : text.head? ≠ some '/') (hlast : text.getLast? ≠ some '/')
    (path : String) : pathMatches path (String.ofList (escape text)) = true ↔ normalizePath path.toList = text := by
  rw [pathMatches_iff_planOf, String.toList_ofList, planOf_escape hhead hlast]
  constructor
  · rintro ⟨plan, hplan, hmatch⟩
    obtain rfl := Except.ok.inj hplan
    exact beq_iff_eq.mp hmatch
  · intro h
    exact ⟨.exactly text, rfl, beq_iff_eq.mpr h⟩

end PathOwners
