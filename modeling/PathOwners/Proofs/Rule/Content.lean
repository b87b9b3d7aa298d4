import PathOwners.Proofs.Text.Blank
import PathOwners.Rule.Line

/-!
# The content of a line

What a line says is what stands before its comment, without the white space at its end. Here this is said of the parts
of the line: the comment begins at the first `#` directly behind a space or tab (`IsUpToComment`), and the content ends
in a character that is no white space (`Text.IsTrimmed`). A line has exactly one content, and it is the one that is read
(`content_eq_some_iff`). White space at the end of a line is no part of it (`content_append_blanks`).
-/

namespace PathOwners

namespace Rule

variable {line kept content blanks : List Char}

/-! ## Comments -/

/-- The first character of a line that is no white space is a `#`. -/
def IsComment (line : List Char) : Prop := line.find? (fun c => !Text.isBlank c) = some '#'

/-- A comment begins between two parts of a line: the first part ends in a gap, the second one begins with a `#`. -/
def CommentBetween (before after : List Char) : Prop :=
  (∃ b ∈ before.getLast?, isGap b = true) ∧ after.head? = some '#'

/-- What stands on a line before its comment, which is the rest of the line; all of the line if no comment begins
in it. -/
structure IsUpToComment (line kept : List Char) : Prop where
  cut : ∃ comment, line = kept ++ comment ∧ (comment = [] ∨ CommentBetween kept comment)
  first : ∀ before after, kept = before ++ after → ¬CommentBetween before after

theorem not_commentBetween_nil (after : List Char) : ¬CommentBetween [] after := by
  rintro ⟨⟨b, hb, -⟩, -⟩
  simp at hb

theorem not_commentBetween_nil_right (before : List Char) : ¬CommentBetween before [] := by
  rintro ⟨-, hhead⟩
  simp at hhead

theorem commentBetween_singleton {b : Char} {after : List Char} :
    CommentBetween [b] after ↔ isGap b = true ∧ after.head? = some '#' := by
  simp [CommentBetween]

theorem commentBetween_cons {b : Char} {before after : List Char} (hne : before ≠ []) :
    CommentBetween (b :: before) after ↔ CommentBetween before after := by
  obtain ⟨c, cs, rfl⟩ := List.exists_cons_of_ne_nil hne
  simp [CommentBetween]

theorem commentBetween_append {before after : List Char} (hne : after ≠ []) (rest : List Char) :
    CommentBetween before (after ++ rest) ↔ CommentBetween before after := by
  obtain ⟨c, cs, rfl⟩ := List.exists_cons_of_ne_nil hne
  rfl

/-- A single character holds no comment. -/
theorem not_commentBetween_of_singleton {b : Char} {before after : List Char} (h : [b] = before ++ after) :
    ¬CommentBetween before after := by
  cases before with
  | nil => exact not_commentBetween_nil after
  | cons d before =>
    obtain ⟨-, rfl⟩ := List.append_eq_nil_iff.mp (List.cons.inj h).2.symm
    exact not_commentBetween_nil_right (d :: before)

/-- One more character in front: it begins no comment, unless it is a gap and a `#` comes next. -/
theorem IsUpToComment.cons {b : Char} (h : IsUpToComment line kept)
    (hb : ¬(isGap b = true ∧ line.head? = some '#')) : IsUpToComment (b :: line) (b :: kept) := by
  obtain ⟨⟨comment, rfl, hcomment⟩, hfirst⟩ := h
  have hb' : ¬CommentBetween [b] (kept ++ comment) := fun h => hb (commentBetween_singleton.mp h)
  refine ⟨⟨comment, rfl, ?_⟩, fun before after hsplit hbetween => ?_⟩
  · refine hcomment.imp_right fun hcomment => ?_
    have hne : kept ≠ [] := by
      rintro rfl
      exact not_commentBetween_nil comment hcomment
    exact (commentBetween_cons hne).mpr hcomment
  · -- a split behind `b` is ruled out by `hb`; a later one is a split of the kept part without `b`
    cases before with
    | nil => exact not_commentBetween_nil after hbetween
    | cons d before =>
      obtain ⟨rfl, rfl⟩ := List.cons.inj hsplit
      rcases eq_or_ne before [] with rfl | hne
      · have hafter : after ≠ [] := by
          rintro rfl
          simp [CommentBetween] at hbetween
        exact hb' ((commentBetween_append hafter comment).mpr hbetween)
      · exact hfirst before after rfl ((commentBetween_cons hne).mp hbetween)

/-- What stands before the comment is what is kept of the line. -/
theorem isUpToComment_beforeComment (line : List Char) : IsUpToComment line (beforeComment line) := by
  fun_induction beforeComment line with
  | case1 b c cs h =>
    obtain ⟨hgap, hhash⟩ := Bool.and_eq_true_iff.mp h
    obtain rfl : c = '#' := beq_iff_eq.mp hhash
    exact ⟨⟨'#' :: cs, rfl, .inr (commentBetween_singleton.mpr ⟨hgap, rfl⟩)⟩, fun _ _ =>
      not_commentBetween_of_singleton⟩
  | case2 b c cs h ih => exact ih.cons (by simpa using h)
  | case3 line h =>
    refine ⟨⟨[], by simp, .inl rfl⟩, fun before after hsplit => ?_⟩
    match line, h with
    | [], _ =>
      obtain ⟨rfl, rfl⟩ := List.append_eq_nil_iff.mp hsplit.symm
      exact not_commentBetween_nil []
    | [b], _ => exact not_commentBetween_of_singleton hsplit
    | b :: c :: cs, h => exact absurd rfl (h b c cs)

theorem IsUpToComment.eq_of_append {rest comment : List Char} (h : IsUpToComment line (kept ++ rest))
    (hcomment : rest ++ comment = [] ∨ CommentBetween kept (rest ++ comment)) : rest = [] := by
  by_contra hne
  rcases hcomment with hnil | hbetween
  · exact hne (List.append_eq_nil_iff.mp hnil).1
  · exact h.first kept rest rfl ((commentBetween_append hne comment).mp hbetween)

/-- A line has only one part before its comment. -/
theorem IsUpToComment.eq {kept' : List Char} (h : IsUpToComment line kept) (h' : IsUpToComment line kept') :
    kept = kept' := by
  obtain ⟨comment, hline, hcomment⟩ := h.cut
  obtain ⟨comment', hline', hcomment'⟩ := h'.cut
  rcases List.append_eq_append_iff.mp (hline.symm.trans hline') with ⟨rest, rfl, rfl⟩ | ⟨rest, rfl, rfl⟩
  · rw [h'.eq_of_append hcomment, List.append_nil]
  · rw [h.eq_of_append hcomment', List.append_nil]

theorem isUpToComment_iff : IsUpToComment line kept ↔ beforeComment line = kept := by
  constructor
  · exact fun h => (isUpToComment_beforeComment line).eq h
  · rintro rfl
    exact isUpToComment_beforeComment line

/-- A comment takes all that is added to its line. -/
theorem IsUpToComment.append_of_ne (h : IsUpToComment line kept) (hne : kept ≠ line) (added : List Char) :
    IsUpToComment (line ++ added) kept := by
  obtain ⟨⟨comment, rfl, hcomment⟩, hfirst⟩ := h
  have hnil : comment ≠ [] := by
    rintro rfl
    exact hne (List.append_nil kept).symm
  have hbetween : CommentBetween kept comment := hcomment.resolve_left hnil
  exact ⟨⟨comment ++ added, List.append_assoc .., .inr ((commentBetween_append hnil added).mpr hbetween)⟩, hfirst⟩

/-- What is added to a line begins no comment if it has no `#`; it is kept, or it is part of the comment. -/
theorem IsUpToComment.append {added : List Char} (h : IsUpToComment line kept) (hadded : '#' ∉ added) :
    IsUpToComment (line ++ added) (kept ++ added) ∨ IsUpToComment (line ++ added) kept := by
  rcases eq_or_ne kept line with rfl | hne
  · refine .inl ⟨⟨[], by simp, .inl rfl⟩, fun before after hsplit hbetween => ?_⟩
    -- a comment behind the old line would take its `#` from what is added
    rcases List.append_eq_append_iff.mp hsplit with ⟨rest, -, rfl⟩ | ⟨rest, rfl, rfl⟩
    · exact hadded (List.mem_append_right rest (List.mem_of_head? hbetween.2))
    · rcases eq_or_ne rest [] with rfl | hne
      · exact hadded (List.mem_of_head? hbetween.2)
      · exact h.first before rest rfl ((commentBetween_append hne added).mp hbetween)
  · exact .inr (h.append_of_ne hne added)

/-- What a line says: what stands before its comment, without the white space at its end. -/
def IsContent (line content : List Char) : Prop := ∃ kept, IsUpToComment line kept ∧ Text.IsTrimmed kept content

theorem isContent_iff : IsContent line content ↔ Text.trimEnd (beforeComment line) = content := by
  simp [IsContent, isUpToComment_iff, Text.isTrimmed_iff]

theorem isComment_iff : IsComment line ↔ (Text.trimStart line).head? = some '#' := by
  rw [IsComment, List.find?_eq_head?_dropWhile_not, Text.trimStart]
  simp

/-- **The content that is read is the content of the line**, unless the whole line is a comment. -/
theorem content_eq_some_iff : content? line = some content ↔ ¬IsComment line ∧ IsContent line content := by
  rw [isContent_iff, isComment_iff, content?]
  split_ifs with hcomment <;> simp [hcomment]

/-- A line without a comment that does not end in white space is its own content. -/
theorem content_eq_self (hline : ¬IsComment line) (hcomment : beforeComment line = line)
    (hlast : ∀ c ∈ line.getLast?, Text.isBlank c = false) : content? line = some line := by
  rw [content_eq_some_iff, isContent_iff, hcomment]
  exact ⟨hline, Text.trimEnd_of_last hlast⟩

/-- White space at the end of a line changes nothing before it. -/
theorem trimEnd_beforeComment_append (hblanks : ∀ c ∈ blanks, Text.isBlank c = true) :
    Text.trimEnd (beforeComment (line ++ blanks)) = Text.trimEnd (beforeComment line) := by
  have hhash : '#' ∉ blanks := fun hmem => absurd (hblanks _ hmem) (by decide)
  rcases (isUpToComment_beforeComment line).append hhash with h | h
  · rw [isUpToComment_iff.mp h, Text.trimEnd_append_blanks hblanks]
  · rw [isUpToComment_iff.mp h]

/-- **White space at the end of a line is no part of its content.** -/
theorem content_append_blanks (hblanks : ∀ c ∈ blanks, Text.isBlank c = true) :
    content? (line ++ blanks) = content? line := by
  have hcomment : IsComment (line ++ blanks) ↔ IsComment line := by
    have hnone : blanks.find? (fun c => !Text.isBlank c) = none := by
      rw [List.find?_eq_none]
      intro c hc
      simp [hblanks c hc]
    rw [IsComment, List.find?_append, hnone, Option.or_none]
    rfl
  ext content
  rw [content_eq_some_iff, content_eq_some_iff, hcomment, isContent_iff, isContent_iff,
    trimEnd_beforeComment_append hblanks]

end Rule

end PathOwners
