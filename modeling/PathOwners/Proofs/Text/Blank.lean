import Mathlib.Data.List.DropRight
import PathOwners.Text.Alphanumeric

/-!
# White space around a text

What is left of a text without the white space at its end (`IsTrimmed`), and without the white space at either end
(`IsCore`): a text has exactly one core, and it is the one that trimming gives (`isCore_iff`), so trimming a second time
does nothing (`trim_trim`). White space is neither a letter nor a number (`isAlphanumeric_of_isBlank`).
-/

namespace PathOwners.Text

variable {text kept blanks : List Char}

/-! ## White space at the end -/

/-- What remains of a text without the white space at its end. -/
structure IsTrimmed (text kept : List Char) : Prop where
  cut : ∃ blanks, text = kept ++ blanks ∧ ∀ c ∈ blanks, isBlank c = true
  last : ∀ c ∈ kept.getLast?, isBlank c = false

theorem trimEnd_append_blanks (hblanks : ∀ c ∈ blanks, isBlank c = true) : trimEnd (text ++ blanks) = trimEnd text := by
  have hreverse : ∀ c ∈ blanks.reverse, isBlank c = true := fun c hc => hblanks c (List.mem_reverse.mp hc)
  rw [trimEnd, List.reverse_append, List.dropWhile_append_of_pos hreverse]
  rfl

theorem isTrimmed_iff : IsTrimmed text kept ↔ trimEnd text = kept := by
  constructor
  · rintro ⟨⟨blanks, rfl, hblanks⟩, hlast⟩
    rw [trimEnd_append_blanks hblanks]
    refine List.rdropWhile_eq_self_iff.mpr fun hne => ?_
    simpa using hlast _ (List.getLast?_eq_some_getLast hne)
  · rintro rfl
    refine ⟨⟨text.rtakeWhile isBlank, ?_, fun c hc => List.mem_rtakeWhile_imp hc⟩, fun c hc => ?_⟩
    · exact List.rdropWhile_append_rtakeWhile.symm
    · have hne : text.rdropWhile isBlank ≠ [] := by
        rintro hnil
        simp [show trimEnd text = [] from hnil] at hc
      have hlast := List.rdropWhile_last_not isBlank text hne
      obtain rfl : (text.rdropWhile isBlank).getLast hne = c :=
        Option.some.inj ((List.getLast?_eq_some_getLast hne).symm.trans hc)
      simpa using hlast

theorem trimEnd_of_last (hlast : ∀ c ∈ text.getLast?, isBlank c = false) : trimEnd text = text :=
  isTrimmed_iff.mp ⟨⟨[], by simp, by simp⟩, hlast⟩

theorem trimEnd_eq_nil_iff : trimEnd text = [] ↔ ∀ c ∈ text, isBlank c = true := List.rdropWhile_eq_nil_iff

/-- What is cut from the end of a text is not changed by what stands in front, if anything is left of the text. -/
theorem trimEnd_append {front : List Char} (hne : trimEnd text ≠ []) :
    trimEnd (front ++ text) = front ++ trimEnd text := by
  obtain ⟨⟨blanks, htext, hblanks⟩, hlast⟩ := isTrimmed_iff.mpr (Eq.refl (trimEnd text))
  refine isTrimmed_iff.mp ⟨⟨blanks, ?_, hblanks⟩, ?_⟩
  · rw [List.append_assoc, ← htext]
  · rwa [List.getLast?_append_of_ne_nil _ hne]

/-! ## White space at either end -/

/-- What remains of a text without the white space at its ends. -/
structure IsCore (text kept : List Char) : Prop where
  cut : ∃ before after, text = before ++ (kept ++ after) ∧ (∀ c ∈ before, isBlank c = true) ∧
    ∀ c ∈ after, isBlank c = true
  first : ∀ c ∈ kept.head?, isBlank c = false
  last : ∀ c ∈ kept.getLast?, isBlank c = false

theorem trimStart_of_first (hfirst : ∀ c ∈ text.head?, isBlank c = false) : trimStart text = text := by
  cases text with
  | nil => rfl
  | cons c text => exact List.dropWhile_cons_of_neg (by simp [hfirst c rfl])

theorem first_trimStart (text : List Char) : ∀ c ∈ (trimStart text).head?, isBlank c = false := by
  intro c hc
  have hhead := List.head?_dropWhile_not isBlank text
  rw [show (text.dropWhile isBlank).head? = some c from hc] at hhead
  exact hhead

theorem isCore_trim (text : List Char) : IsCore text (trim text) := by
  obtain ⟨⟨after, hafter, hblanks⟩, hlast⟩ := isTrimmed_iff.mpr (Eq.refl (trimEnd (trimStart text)))
  refine ⟨⟨text.takeWhile isBlank, after, ?_, fun c hc => List.mem_takeWhile_imp hc, hblanks⟩, fun c hc => ?_, hlast⟩
  · exact hafter ▸ List.takeWhile_append_dropWhile.symm
  · have hhead : (trimEnd (trimStart text)).head? = some c := hc
    apply first_trimStart text
    rw [hafter, List.head?_append, hhead]
    rfl

/-- **A text has one core, and trimming gives it.** -/
theorem isCore_iff : IsCore text kept ↔ trim text = kept := by
  constructor
  · rintro ⟨⟨before, after, rfl, hbefore, hafter⟩, hfirst, hlast⟩
    rw [trim, trimStart, List.dropWhile_append_of_pos hbefore]
    by_cases hkept : kept = []
    · subst hkept
      rw [List.nil_append, List.dropWhile_eq_nil_iff.mpr hafter]
      rfl
    · have hstart : trimStart (kept ++ after) = kept ++ after := by
        apply trimStart_of_first
        rwa [List.head?_append_of_ne_nil _ hkept]
      rw [← trimStart, hstart, trimEnd_append_blanks hafter, trimEnd_of_last hlast]
  · rintro rfl
    exact isCore_trim text

/-- White space at the end of a text does not count. -/
theorem trim_append_blanks (hblanks : ∀ c ∈ blanks, isBlank c = true) : trim (text ++ blanks) = trim text := by
  obtain ⟨⟨before, after, htext, hbefore, hafter⟩, hfirst, hlast⟩ := isCore_trim text
  refine isCore_iff.mp ⟨⟨before, after ++ blanks, ?_, hbefore, ?_⟩, hfirst, hlast⟩
  · rw [← List.append_assoc (trim text), ← List.append_assoc before, ← htext]
  · exact List.forall_mem_append.mpr ⟨hafter, hblanks⟩

theorem trim_trim (text : List Char) : trim (trim text) = trim text := by
  obtain ⟨-, hfirst, hlast⟩ := isCore_trim text
  exact isCore_iff.mp ⟨⟨[], [], by simp, by simp, by simp⟩, hfirst, hlast⟩

theorem mem_of_mem_trim {c : Char} (h : c ∈ trim text) : c ∈ text := by
  obtain ⟨⟨before, after, htext, -⟩, -⟩ := isCore_trim text
  rw [htext]
  exact List.mem_append_right _ (List.mem_append_left _ h)

/-! ## White space among the characters -/

/-- A code point lies in no range that is apart from all of some ranges, if it lies in one of these. -/
theorem not_inRanges_of_apart {ranges others : List (Nat × Nat)} {code : Nat}
    (hapart : ∀ r ∈ ranges, ∀ s ∈ others, r.2 < s.1 ∨ s.2 < r.1) (h : inRanges ranges code = true) :
    inRanges others code = false := by
  rw [inRanges, List.any_eq_true] at h
  obtain ⟨r, hr, hcode⟩ := h
  rw [inRanges, List.any_eq_false]
  intro s hs
  have := hapart r hr s hs
  simp only [Bool.and_eq_true, decide_eq_true_eq] at hcode ⊢
  omega

/-- White space is no letter and no number. -/
theorem isAlphanumeric_of_isBlank {c : Char} (hc : isBlank c = true) : isAlphanumeric c = false :=
  not_inRanges_of_apart (by decide +kernel) hc

end PathOwners.Text
