import Mathlib.Data.List.Forall2
import PathOwners.Proofs.Rule.Content
import PathOwners.Proofs.Text.Pieces

/-!
# Line endings

The rules of a text are those on its parts between line feeds, whatever carriage returns stand at their ends
(`ofText_eq_pieces`): a carriage return is white space, and the white space at the end of a line is no part of its
content. So the rules of two texts with a line feed between them are those of the first one and then those of the second
one, and the rules of a text do not depend on whether its lines end in a carriage return (`ofText_lineEndings`).
-/

namespace PathOwners

/-! ## Carriage returns -/

namespace Text

/-- A text with a carriage return before every line feed. -/
def withReturns (text : List Char) : List Char := text.flatMap fun c => if c = '\n' then ['\r', '\n'] else [c]

/-- A part of a text, with or without a carriage return at its end. -/
def SamePiece (piece piece' : List Char) : Prop := piece' = piece ∨ piece' = piece ++ ['\r']

/-- Carriage returns before the line feeds stand at the ends of the parts. -/
theorem pieces_withReturns (text : List Char) :
    List.Forall₂ SamePiece (pieces '\n' text) (pieces '\n' (withReturns text)) := by
  induction text with
  | nil => exact .cons (.inl rfl) .nil
  | cons c text ih =>
    by_cases hc : c = '\n'
    · subst hc
      exact .cons (.inr rfl) ih
    · obtain ⟨first, rest, hfirst⟩ := List.exists_cons_of_ne_nil (pieces_ne_nil '\n' text)
      obtain ⟨first', rest', hfirst'⟩ := List.exists_cons_of_ne_nil (pieces_ne_nil '\n' (withReturns text))
      rw [hfirst, hfirst'] at ih
      obtain ⟨hsame, hrest⟩ := List.forall₂_cons.mp ih
      have hreturns : withReturns (c :: text) = c :: withReturns text := by simp [withReturns, hc]
      rw [hreturns, pieces_cons_of_ne hc hfirst, pieces_cons_of_ne hc hfirst']
      refine .cons ?_ hrest
      rcases hsame with rfl | rfl
      · exact .inl rfl
      · exact .inr rfl

end Text

namespace Rule

/-! ## The rules of a text -/

/-- White space at the end of a line says nothing. -/
theorem ofChars_append_blanks {line blanks : List Char} (hblanks : ∀ c ∈ blanks, Text.isBlank c = true) :
    ofChars? (line ++ blanks) = ofChars? line := by
  rw [ofChars?, content_append_blanks hblanks]
  rfl

theorem ofChars_append_return (line : List Char) : ofChars? (line ++ ['\r']) = ofChars? line := by
  refine ofChars_append_blanks fun c hc => ?_
  obtain rfl : c = '\r' := List.mem_singleton.mp hc
  decide

/-- **The rules of a text are those on its parts between line feeds.** -/
theorem ofText_eq_pieces (text : String) : ofText text = (Text.pieces '\n' text.toList).filterMap ofChars? :=
  Text.filterMap_lines rfl ofChars_append_return _

/-- The rule on a text of one line. -/
theorem ofText_of_not_mem {line : String} (hnewline : '\n' ∉ line.toList) : ofText line = (ofLine? line).toList := by
  rw [ofText_eq_pieces, Text.pieces_of_not_mem hnewline, ofLine?]
  cases hrule : ofChars? line.toList <;> simp [hrule]

/-- The rules of two texts with a line feed between them. -/
theorem ofText_append (a b : String) : ofText (a ++ "\n" ++ b) = ofText a ++ ofText b := by
  have hpieces : Text.pieces '\n' (a ++ "\n" ++ b).toList = Text.pieces '\n' a.toList ++ Text.pieces '\n' b.toList := by
    rw [← Text.pieces_append]
    simp
  rw [ofText_eq_pieces, ofText_eq_pieces, ofText_eq_pieces, hpieces, List.filterMap_append]

theorem filterMap_of_samePiece {pieces pieces' : List (List Char)} (h : List.Forall₂ Text.SamePiece pieces pieces') :
    pieces'.filterMap ofChars? = pieces.filterMap ofChars? := by
  induction h with
  | nil => rfl
  | cons hsame hrest ih =>
    rcases hsame with rfl | rfl
    · rw [List.filterMap_cons, List.filterMap_cons, ih]
    · rw [List.filterMap_cons, List.filterMap_cons, ofChars_append_return, ih]

/-- Carriage returns before the line feeds change no rule. -/
theorem ofText_withReturns (text : String) : ofText (String.ofList (Text.withReturns text.toList)) = ofText text := by
  rw [ofText_eq_pieces, ofText_eq_pieces, String.toList_ofList]
  exact filterMap_of_samePiece (Text.pieces_withReturns text.toList)

/-- **Texts are read line by line, however their lines end.** The rules of two texts with a line feed between them are
those of the first and then those of the second; and they stay the same when every line feed of a text gets a carriage
return before it. -/
theorem ofText_lineEndings (a b text : String) :
    ofText (a ++ "\n" ++ b) = ofText a ++ ofText b ∧
      ofText (String.ofList (Text.withReturns text.toList)) = ofText text :=
  ⟨ofText_append a b, ofText_withReturns text⟩

end Rule

end PathOwners
