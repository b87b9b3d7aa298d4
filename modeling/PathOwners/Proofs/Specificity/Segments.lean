import PathOwners.Proofs.Glob.Occurrences
import PathOwners.Proofs.Glob.SoundTokens
import PathOwners.Proofs.Specificity.Criteria
import PathOwners.Proofs.Text.Pieces

/-!
# Segments of paths

A pattern for files with neither groups nor two stars in a row has as many segments as its depth says. A path that it
matches has at least as many (`le_count_separators`), and more only where a class takes a separator: the items of a
negated class never do, but a range may, though no item names a separator (`segments_eq_depth_iff`).
-/

namespace PathOwners

open Glob

namespace Glob

/-! ## Separators in a text -/

/-- A token that is no group and does not cross directories. -/
def Token.WithinSegment : Token → Prop
  | .literal c => c ≠ '/'
  | .separator | .star | .question | .charClass _ _ => True
  | .anyDirectories | .anyPath | .alternation _ => False

/-- Whether a token stands for a separator only if it is one. -/
def Token.AvoidsSeparator : Token → Prop
  | .charClass false items => ∀ item ∈ items, item.covers '/' = false
  | _ => True

section Separators

variable {t : Token} {ts : List Token} {w : List Char}

theorem count_singleton_of_ne {c : Char} (hc : c ≠ '/') : [c].count '/' = 0 := by
  apply List.count_eq_zero.mpr
  simpa using Ne.symm hc

/-- A text of a token has the separator that the token is, and another one only if a class takes it. -/
theorem le_count_of_mem_language (ht : t.WithinSegment) (hw : w ∈ t.language) :
    (if t.isSeparator then 1 else 0) ≤ w.count '/' ∧
      (t.AvoidsSeparator → w.count '/' = if t.isSeparator then 1 else 0) := by
  cases t with
  | literal c =>
    obtain rfl : w = [c] := hw
    simp [Token.isSeparator, count_singleton_of_ne ht]
  | separator =>
    obtain rfl : w = ['/'] := hw
    simp [Token.isSeparator]
  | star =>
    have hcount : w.count '/' = 0 := List.count_eq_zero.mpr hw
    simp [Token.isSeparator, hcount]
  | question =>
    obtain ⟨c, hc, rfl⟩ := hw
    simp [Token.isSeparator, count_singleton_of_ne hc]
  | charClass negated items =>
    obtain ⟨c, hc, rfl⟩ := hw
    refine ⟨Nat.zero_le _, fun havoids => count_singleton_of_ne ?_⟩
    cases negated with
    | true => exact hc.2
    | false =>
      obtain ⟨item, hitem, hcovers⟩ := hc
      rintro rfl
      exact absurd hcovers (by simp [havoids item hitem])
  | anyDirectories => exact absurd ht id
  | anyPath => exact absurd ht id
  | alternation alternatives => exact absurd ht id

/-- **A text of tokens has at least their separators, and only these if no class takes one.** -/
theorem le_count_separators (hts : ∀ t ∈ ts, t.WithinSegment) (hw : w ∈ sequenceLanguage ts) :
    ts.countP Token.isSeparator ≤ w.count '/' ∧
      ((∀ t ∈ ts, t.AvoidsSeparator) → w.count '/' = ts.countP Token.isSeparator) := by
  induction ts generalizing w with
  | nil =>
    obtain rfl : w = [] := hw
    simp
  | cons t ts ih =>
    obtain ⟨u, hu, v, hv, rfl⟩ := hw
    obtain ⟨ht, hts⟩ := List.forall_mem_cons.mp hts
    obtain ⟨hle, heq⟩ := le_count_of_mem_language ht hu
    obtain ⟨hle', heq'⟩ := ih hts hv
    simp only [List.countP_cons, List.count_append]
    refine ⟨by omega, fun havoids => ?_⟩
    obtain ⟨havoids, havoids'⟩ := List.forall_mem_cons.mp havoids
    have hcount := heq havoids
    have hcount' := heq' havoids'
    omega

/-- A class that takes a separator gives a text with more separators than the tokens have. -/
theorem exists_count_of_covers (hts : ∀ t ∈ ts, t.WithinSegment) {items : List ClassItem} {item : ClassItem}
    (hclass : .charClass false items ∈ ts) (hitem : item ∈ items) (hcovers : item.covers '/' = true)
    (hw : w ∈ sequenceLanguage ts) : ∃ w' ∈ sequenceLanguage ts, w' ⊆ '/' :: w ∧
      ts.countP Token.isSeparator < w'.count '/' := by
  obtain ⟨left, right, rfl⟩ := List.append_of_mem hclass
  rw [sequenceLanguage_append] at hw ⊢
  obtain ⟨u, hu, _, ⟨v, hv, x, hx, rfl⟩, rfl⟩ := hw
  have hslash : ['/'] ∈ (Token.charClass false items).language := ⟨'/', ⟨item, hitem, hcovers⟩, rfl⟩
  obtain ⟨hleft, hright⟩ := List.forall_mem_append.mp hts
  have hcount := (le_count_separators hleft hu).1
  have hcount' := (le_count_separators (List.forall_mem_cons.mp hright).2 hx).1
  refine ⟨u ++ (['/'] ++ x), Language.append_mem_mul hu (Language.append_mem_mul hslash hx), ?_, ?_⟩
  · intro c hc
    simp only [List.mem_append, List.mem_cons] at hc ⊢
    tauto
  · have hclass : [Token.charClass false items].countP Token.isSeparator = 0 := rfl
    have hone : ['/'].count '/' = 1 := rfl
    rw [← List.singleton_append, List.countP_append, List.countP_append, hclass, List.count_append, List.count_append,
      hone]
    omega

end Separators

/-! ## Tokens of one segment -/

theorem le_alternatives {ts : List Token} {alternatives : List (List Token)} (h : .alternation alternatives ∈ ts) :
    alternatives.length ≤ (Counts.ofTokens ts).alternatives := by
  have hcons : ∀ (t : Token) (ts : List Token), (Counts.ofTokens (t :: ts)).alternatives =
      (Counts.ofToken t).alternatives + (Counts.ofTokens ts).alternatives := fun _ _ => rfl
  induction ts with
  | nil => cases h
  | cons t ts ih =>
    rw [hcons]
    rcases List.mem_cons.mp h with rfl | h
    · have hgroup : (Counts.ofToken (.alternation alternatives)).alternatives =
          alternatives.length + (Counts.ofAlternatives alternatives).alternatives := rfl
      omega
    · have hle := ih h
      omega

/-- Without groups and without two stars in a row, the tokens of a body do not cross directories. -/
theorem withinSegment_of_scan {pattern : List Char} {scanned : Scanned}
    (hscan : scan (Body.ofPattern pattern).text = .ok scanned) (hdoubleStar : scanned.doubleStar = false)
    (halternatives : (Counts.ofTokens scanned.tokens).alternatives = 0) :
    ∀ t ∈ scanned.tokens, t.WithinSegment := by
  have hcrosses : ∀ t ∈ scanned.tokens, ¬ (t = .anyDirectories ∨ t = .anyPath) := by
    intro t ht hcrosses
    rw [doubleStar_of_occurs hscan hcrosses (.here ht)] at hdoubleStar
    cases hdoubleStar
  intro t ht
  cases t with
  | literal c =>
    rintro rfl
    exact not_occurs_separator hscan (.here ht)
  | separator | star | question => trivial
  | charClass negated items => trivial
  | anyDirectories => exact hcrosses _ ht (.inl rfl)
  | anyPath => exact hcrosses _ ht (.inr rfl)
  | alternation alternatives =>
    have hne := (sequenceSound_iff.mp (sound_of_scan hscan) _ ht).1
    have hle := le_alternatives ht
    have hpos := List.length_pos_iff.mpr hne
    omega

/-- Whether an item of a class names a character: it is the character, or a range that begins or ends with it. -/
def ClassItem.names (c : Char) : ClassItem → Bool
  | .single member => member == c
  | .range first last => first == c || last == c

end Glob

namespace Specificity

section Segments

variable {pattern : String} {scanned : Scanned}

/-- The tokens of a pattern of single segments: the depth counts their separators, and the pattern matches what they
stand for. -/
theorem exists_segments (hcompile : ∃ glob, Glob.compile pattern = .ok glob)
    (hcatchAll : (ofPattern pattern).catchAll = false) (hdirectory : (ofPattern pattern).directory = false)
    (hrecursive : (ofPattern pattern).recursive = false) (halternatives : (ofPattern pattern).alternatives = 0) :
    ∃ scanned, scan (Body.ofPattern pattern.toList).text = .ok scanned ∧ (∀ t ∈ scanned.tokens, t.WithinSegment) ∧
      (ofPattern pattern).depth = scanned.tokens.countP Token.isSeparator + 1 ∧
      ∀ path, pathMatches path pattern = true ↔ normalizePath path.toList ∈ sequenceLanguage scanned.tokens := by
  have hpattern : isCatchAll pattern.toList = false := by
    rw [← Bool.not_eq_true, ← catchAll_iff_isCatchAll, ← ofPattern, hcatchAll]
    exact Bool.false_ne_true
  obtain ⟨scanned, hscan, hmatch⟩ := exists_scan_of_compile hpattern hcompile
  have hspecificity : ofPattern pattern = ofScanned false (Body.ofPattern pattern.toList) scanned := by
    simp only [ofPattern, ofChars, hscan, hpattern]
  rw [hspecificity] at hdirectory hrecursive halternatives ⊢
  have hfile : (Body.ofPattern pattern.toList).directory = false := hdirectory
  rw [hfile] at hmatch
  exact ⟨scanned, hscan, withinSegment_of_scan hscan hrecursive halternatives, rfl, hmatch⟩

/-- A class that takes a separator lets a pattern that matches anything match a path with more segments. -/
theorem exists_deeper_path (hts : ∀ t ∈ scanned.tokens, t.WithinSegment)
    (hmatch : ∀ path, pathMatches path pattern = true ↔ normalizePath path.toList ∈ sequenceLanguage scanned.tokens)
    {items : List ClassItem} {item : ClassItem} (hclass : .charClass false items ∈ scanned.tokens)
    (hitem : item ∈ items) (hcovers : item.covers '/' = true) {path : String} (hpath : pathMatches path pattern = true) :
    ∃ deeper, pathMatches deeper pattern = true ∧
      scanned.tokens.countP Token.isSeparator < (normalizePath deeper.toList).count '/' := by
  obtain ⟨w, hw, hsubset, hcount⟩ := exists_count_of_covers hts hclass hitem hcovers ((hmatch path).mp hpath)
  have hnormal : normalizePath w = w := by
    apply normalizePath_of_not_mem
    intro hbackslash
    rcases List.mem_cons.mp (hsubset hbackslash) with h | h
    · cases h
    · exact backslash_not_mem_normalizePath _ h
  refine ⟨String.ofList w, ?_, ?_⟩
  · rw [hmatch, String.toList_ofList, hnormal]
    exact hw
  · rw [String.toList_ofList, hnormal]
    exact hcount

/-- **A pattern of single segments matches paths of as many segments as it has, unless a class takes a separator.** Of
the patterns that compile, are neither `*` nor for a directory and have neither groups nor two stars in a row, exactly
those have this property in which only negated classes cover separators, and those that match nothing. -/
theorem segments_eq_depth_iff (hcompile : ∃ glob, Glob.compile pattern = .ok glob)
    (hcatchAll : (ofPattern pattern).catchAll = false) (hdirectory : (ofPattern pattern).directory = false)
    (hrecursive : (ofPattern pattern).recursive = false) (halternatives : (ofPattern pattern).alternatives = 0) :
    ∃ scanned, scan (Body.ofPattern pattern.toList).text = .ok scanned ∧
      ((∀ path, pathMatches path pattern = true →
          (Text.pieces '/' (normalizePath path.toList)).length = (ofPattern pattern).depth) ↔
        (∀ items, .charClass false items ∈ scanned.tokens → ∀ item ∈ items, item.covers '/' = false) ∨
          ∀ path, pathMatches path pattern = false) := by
  obtain ⟨scanned, hscan, hts, hdepth, hmatch⟩ :=
    exists_segments hcompile hcatchAll hdirectory hrecursive halternatives
  refine ⟨scanned, hscan, ?_⟩
  simp only [hdepth, Text.length_pieces, Nat.add_right_cancel_iff]
  constructor
  · intro hsegments
    by_contra hnot
    obtain ⟨⟨items, hclass, item, hitem, hcovers⟩, path, hpath⟩ :
        (∃ items, .charClass false items ∈ scanned.tokens ∧ ∃ item ∈ items, item.covers '/' = true) ∧
          ∃ path, pathMatches path pattern = true := by
      simpa using hnot
    -- A separator in the place of the character that the class has in the path gives a path with too many segments.
    obtain ⟨deeper, hdeeper, hcount⟩ := exists_deeper_path hts hmatch hclass hitem hcovers hpath
    have heq := hsegments deeper hdeeper
    omega
  · rintro (havoids | hnone) path hpath
    · apply (le_count_separators hts ((hmatch path).mp hpath)).2
      intro t ht
      cases t with
      | charClass negated items =>
        cases negated with
        | false => exact havoids items ht
        | true => trivial
      | literal | separator | star | question | anyDirectories | anyPath | alternation => trivial
    · rw [hnone path] at hpath
      cases hpath

/-- A negated class and a class with a range, neither of which takes a separator. -/
theorem segments_eq_depth_classes : (∃ glob, Glob.compile "src/[!a]?/[b-y]*" = .ok glob) ∧
    (ofPattern "src/[!a]?/[b-y]*").catchAll = false ∧ (ofPattern "src/[!a]?/[b-y]*").directory = false ∧
    (ofPattern "src/[!a]?/[b-y]*").recursive = false ∧ (ofPattern "src/[!a]?/[b-y]*").alternatives = 0 ∧
    ∀ path, pathMatches path "src/[!a]?/[b-y]*" = true →
      (Text.pieces '/' (normalizePath path.toList)).length = (ofPattern "src/[!a]?/[b-y]*").depth := by
  have hcompile := (exists_compile_iff "src/[!a]?/[b-y]*").mpr (by decide +kernel)
  have hcatchAll : (ofPattern "src/[!a]?/[b-y]*").catchAll = false := by decide +kernel
  have hdirectory : (ofPattern "src/[!a]?/[b-y]*").directory = false := by decide +kernel
  have hrecursive : (ofPattern "src/[!a]?/[b-y]*").recursive = false := by decide +kernel
  have halternatives : (ofPattern "src/[!a]?/[b-y]*").alternatives = 0 := by decide +kernel
  refine ⟨hcompile, hcatchAll, hdirectory, hrecursive, halternatives, ?_⟩
  obtain ⟨scanned, hscan, hiff⟩ := segments_eq_depth_iff hcompile hcatchAll hdirectory hrecursive halternatives
  have htokens : scan (Body.ofPattern "src/[!a]?/[b-y]*".toList).text = .ok ⟨[.literal 's', .literal 'r', .literal 'c',
      .separator, .charClass true [.single 'a'], .question, .separator, .charClass false [.range 'b' 'y'], .star],
      false⟩ := rfl
  obtain rfl := Except.ok.inj (htokens.symm.trans hscan)
  refine hiff.mpr (.inl fun items hitems => ?_)
  obtain rfl : items = [.range 'b' 'y'] := by simpa using hitems
  decide

/-- A range that takes a separator, although no item of a class names one. -/
theorem segments_ne_depth_range : (∃ glob, Glob.compile "a[.-0]b" = .ok glob) ∧
    (ofPattern "a[.-0]b").catchAll = false ∧ (ofPattern "a[.-0]b").directory = false ∧
    (ofPattern "a[.-0]b").recursive = false ∧ (ofPattern "a[.-0]b").alternatives = 0 ∧
    (∃ scanned, scan (Body.ofPattern "a[.-0]b".toList).text = .ok scanned ∧
      ∀ negated items, .charClass negated items ∈ scanned.tokens → ∀ item ∈ items, item.names '/' = false) ∧
    pathMatches "a/b" "a[.-0]b" = true ∧
    (Text.pieces '/' (normalizePath "a/b".toList)).length ≠ (ofPattern "a[.-0]b").depth := by
  have hcompile := (exists_compile_iff "a[.-0]b").mpr (by decide +kernel)
  have htokens : scan (Body.ofPattern "a[.-0]b".toList).text =
      .ok ⟨[.literal 'a', .charClass false [.range '.' '0'], .literal 'b'], false⟩ := rfl
  refine ⟨hcompile, by decide +kernel, by decide +kernel, by decide +kernel, by decide +kernel,
    ⟨_, htokens, fun negated items hitems => ?_⟩, by decide +kernel, by decide +kernel⟩
  obtain ⟨rfl, rfl⟩ : negated = false ∧ items = [.range '.' '0'] := by simpa using hitems
  decide

end Segments

end Specificity

end PathOwners
