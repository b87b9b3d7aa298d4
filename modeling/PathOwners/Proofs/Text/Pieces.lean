import Mathlib.Data.List.Basic
import PathOwners.Text.Lines

/-!
# The parts of a text

A text cut at the first occurrence of a character: the first part is without the character
(`splitFirst?_eq_some_iff`), and there is no cut if the text is (`splitFirst?_eq_none_iff`). The parts of a text between
all the occurrences of a character: there is one more than there are occurrences (`length_pieces`), and the parts of two
texts with the character between them are those of the first and then those of the second (`pieces_append`). Where a
carriage return at its end and an empty part say nothing, the lines of a text are its parts between line feeds
(`filterMap_lines`).
-/

namespace PathOwners.Text

/-! ## The first occurrence -/

theorem splitFirst?_eq_none_iff {separator : Char} {text : List Char} :
    splitFirst? separator text = none ↔ separator ∉ text := by
  induction text with
  | nil => simp [splitFirst?]
  | cons c text ih =>
    rw [splitFirst?, List.mem_cons, not_or, ← ih]
    by_cases hc : c = separator
    · simp [hc]
    · simp [hc, Ne.symm hc]

theorem splitFirst?_append {separator : Char} {front : List Char} (h : separator ∉ front) (rest : List Char) :
    splitFirst? separator (front ++ separator :: rest) = some (front, rest) := by
  induction front with
  | nil => exact if_pos rfl
  | cons c front ih =>
    obtain ⟨hc, hfront⟩ := not_or.mp (List.mem_cons.not.mp h)
    rw [List.cons_append, splitFirst?, if_neg (Ne.symm hc), ih hfront]
    rfl

/-- The first part of a cut is without the character, and only there the text can be cut so. -/
theorem splitFirst?_eq_some_iff {separator : Char} {text front rest : List Char} :
    splitFirst? separator text = some (front, rest) ↔ text = front ++ separator :: rest ∧ separator ∉ front := by
  constructor
  · intro h
    induction text generalizing front with
    | nil => cases h
    | cons c text ih =>
      rw [splitFirst?] at h
      by_cases hc : c = separator
      · rw [if_pos hc] at h
        cases h
        exact ⟨congrArg (· :: _) hc, List.not_mem_nil⟩
      · rw [if_neg hc, Option.map_eq_some_iff] at h
        obtain ⟨⟨front', rest'⟩, hsplit, hparts⟩ := h
        cases hparts
        obtain ⟨rfl, hfront⟩ := ih hsplit
        exact ⟨rfl, List.not_mem_cons_of_ne_of_not_mem (Ne.symm hc) hfront⟩
  · rintro ⟨rfl, hfront⟩
    exact splitFirst?_append hfront rest

/-! ## All occurrences -/

theorem pieces_ne_nil (separator : Char) (text : List Char) : pieces separator text ≠ [] := by
  fun_cases pieces separator text <;> simp_all

theorem pieces_cons_of_ne {separator c : Char} {text first : List Char} {rest : List (List Char)} (hc : c ≠ separator)
    (htext : pieces separator text = first :: rest) : pieces separator (c :: text) = (c :: first) :: rest := by
  rw [pieces, if_neg hc, htext]

theorem pieces_of_not_mem {separator : Char} : ∀ {text : List Char}, separator ∉ text → pieces separator text = [text]
  | [], _ => rfl
  | c :: cs, h => by
    obtain ⟨hc, hcs⟩ := not_or.mp (List.mem_cons.not.mp h)
    rw [pieces, if_neg (Ne.symm hc), pieces_of_not_mem hcs]

/-- The parts of two texts with a separator between them are those of the first and then those of the second. -/
theorem pieces_append (separator : Char) (a b : List Char) :
    pieces separator (a ++ separator :: b) = pieces separator a ++ pieces separator b := by
  induction a with
  | nil => simp [pieces]
  | cons c a ih =>
    by_cases hc : c = separator
    · subst hc
      simp [pieces, ih]
    · obtain ⟨first, rest, hfirst⟩ := List.exists_cons_of_ne_nil (pieces_ne_nil separator a)
      have happend : pieces separator (a ++ separator :: b) = first :: (rest ++ pieces separator b) := by
        rw [ih, hfirst, List.cons_append]
      rw [List.cons_append, pieces_cons_of_ne hc happend, pieces_cons_of_ne hc hfirst, List.cons_append]

/-- No part has the separator in it. -/
theorem not_mem_of_mem_pieces {separator : Char} {text piece : List Char} (h : piece ∈ pieces separator text) :
    separator ∉ piece := by
  induction text generalizing piece with
  | nil =>
    obtain rfl : piece = [] := List.mem_singleton.mp h
    exact List.not_mem_nil
  | cons c text ih =>
    by_cases hc : c = separator
    · rw [pieces, if_pos hc] at h
      rcases List.mem_cons.mp h with rfl | h
      · exact List.not_mem_nil
      · exact ih h
    · obtain ⟨first, rest, hfirst⟩ := List.exists_cons_of_ne_nil (pieces_ne_nil separator text)
      rw [pieces_cons_of_ne hc hfirst] at h
      rcases List.mem_cons.mp h with rfl | h
      · exact List.not_mem_cons_of_ne_of_not_mem (Ne.symm hc) (ih (hfirst ▸ List.mem_cons_self))
      · exact ih (hfirst ▸ List.mem_cons_of_mem first h)

/-- Parts without the separator are found again once they are joined. -/
theorem pieces_intercalate {separator : Char} : ∀ {parts : List (List Char)}, parts ≠ [] →
    (∀ part ∈ parts, separator ∉ part) → pieces separator ([separator].intercalate parts) = parts
  | [part], _, h => by
    rw [List.intercalate_singleton, pieces_of_not_mem (h part List.mem_cons_self)]
  | part :: next :: rest, _, h => by
    obtain ⟨hpart, hrest⟩ := List.forall_mem_cons.mp h
    rw [List.intercalate_cons_cons, List.append_assoc, List.singleton_append, pieces_append, pieces_of_not_mem hpart,
      pieces_intercalate (List.cons_ne_nil next rest) hrest, List.singleton_append]

/-- There is one part more than there are separators. -/
theorem length_pieces (separator : Char) (text : List Char) :
    (pieces separator text).length = text.count separator + 1 := by
  induction text with
  | nil => rfl
  | cons c text ih =>
    by_cases hc : c = separator
    · subst hc
      rw [pieces, if_pos rfl, List.length_cons, ih, List.count_cons_self]
    · obtain ⟨first, rest, hfirst⟩ := List.exists_cons_of_ne_nil (pieces_ne_nil separator text)
      rw [pieces_cons_of_ne hc hfirst, List.count_cons_of_ne hc, ← ih, hfirst]
      rfl

/-! ## Lines -/

theorem eq_dropReturn_or (line : List Char) : dropReturn line = line ∨ dropReturn line ++ ['\r'] = line := by
  unfold dropReturn
  split_ifs with hreturn
  · obtain ⟨front, rfl⟩ := List.getLast?_eq_some_iff.mp hreturn
    exact .inr (by rw [List.dropLast_concat])
  · exact .inl rfl

/-- **What lines say is what the parts between line feeds say**, if an empty one says nothing and a carriage return at
its end does not count. -/
theorem filterMap_lines {α : Type} {f : List Char → Option α} (hempty : f [] = none)
    (hreturn : ∀ line, f (line ++ ['\r']) = f line) (text : List Char) :
    (lines text).filterMap f = (pieces '\n' text).filterMap f := by
  have hline : ∀ line, f (dropReturn line) = f line := by
    intro line
    rcases eq_dropReturn_or line with h | h
    · rw [h]
    · rw [← hreturn, h]
  unfold lines
  fun_induction linesOfPieces (pieces '\n' text) with
  | case1 => rfl
  | case2 last hlast =>
    obtain rfl : last = [] := List.isEmpty_iff.mp hlast
    rw [List.filterMap_cons, hempty]
  | case3 last hlast => rfl
  | case4 piece rest hrest ih => rw [List.filterMap_cons, List.filterMap_cons, hline, ih]

end PathOwners.Text
