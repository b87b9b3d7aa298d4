import PathOwners.Proofs.Rule.Written

/-!
# What stands around a rule

Spaces and tabs in front of a line, white space behind it and a comment behind that say nothing: the line holds the rule
that it holds by itself (`ofLine_surrounded`). The white space and the comment are no part of the content of the line,
whether or not a comment of its own begins in it (`IsUpToComment.append_comment`), and the gaps in front of the content
are passed over when its words are read (`words_gaps`).
-/

namespace PathOwners

namespace Rule

theorem isBlank_of_isGap {c : Char} (hc : isGap c = true) : Text.isBlank c = true := by
  rcases (by simpa [isGap] using hc : c = ' ' ∨ c = '\t') with rfl | rfl <;> decide

variable {before after line kept comment text : List Char} {gap : Char}

/-! ## Gaps in front -/

/-- Gaps in front of a text are no words. -/
theorem words_gaps (hbefore : ∀ c ∈ before, isGap c = true) (text : List Char) :
    words? (before ++ text) = words? text := by
  rcases eq_or_ne before [] with rfl | hne
  · rfl
  · rw [words?, readWords_gaps hbefore hne, Option.map_map]
    rfl

/-- The same of a text without the white space at its end, which takes the gaps too if the text is blank. -/
theorem words_trimEnd_gaps (hbefore : ∀ c ∈ before, isGap c = true) (text : List Char) :
    words? (Text.trimEnd (before ++ text)) = words? (Text.trimEnd text) := by
  by_cases hblank : Text.trimEnd text = []
  · have hall : Text.trimEnd (before ++ text) = [] := by
      rw [Text.trimEnd_eq_nil_iff] at hblank ⊢
      intro c hc
      exact (List.mem_append.mp hc).elim (fun hc => isBlank_of_isGap (hbefore c hc)) (hblank c)
    rw [hall, hblank]
  · rw [Text.trimEnd_append hblank, words_gaps hbefore]

/-! ## A comment behind -/

/-- A comment behind a line is cut; if one begins in the line itself, it becomes part of that one. -/
theorem IsUpToComment.append_comment (h : IsUpToComment line kept) (hcomment : CommentBetween line comment) :
    IsUpToComment (line ++ comment) kept := by
  rcases eq_or_ne kept line with rfl | hne
  · exact ⟨⟨comment, rfl, .inr hcomment⟩, h.first⟩
  · exact h.append_of_ne hne comment

/-- White space, a gap and a comment behind a line change nothing before them. -/
theorem trimEnd_beforeComment_comment (hafter : ∀ c ∈ after, Text.isBlank c = true) (hgap : isGap gap = true)
    (line comment : List Char) :
    Text.trimEnd (beforeComment (line ++ (after ++ gap :: '#' :: comment))) = Text.trimEnd (beforeComment line) := by
  have hblanks : ∀ c ∈ after ++ [gap], Text.isBlank c = true := by
    intro c hc
    rcases List.mem_append.mp hc with hc | hc
    · exact hafter c hc
    · exact List.mem_singleton.mp hc ▸ isBlank_of_isGap hgap
  have hbetween : CommentBetween (line ++ (after ++ [gap])) ('#' :: comment) := by
    refine ⟨⟨gap, ?_, hgap⟩, rfl⟩
    simp [← List.append_assoc]
  have hcut : beforeComment (line ++ (after ++ gap :: '#' :: comment)) = beforeComment (line ++ (after ++ [gap])) := by
    have hkept := (isUpToComment_beforeComment (line ++ (after ++ [gap]))).append_comment hbetween
    simpa using isUpToComment_iff.mp hkept
  rw [hcut, trimEnd_beforeComment_append hblanks]

/-! ## Lines with something around them -/

/-- The first character that is no white space is that of the line, or the `#` behind a blank line. -/
theorem isComment_surrounded (hbefore : ∀ c ∈ before, isGap c = true) (hafter : ∀ c ∈ after, Text.isBlank c = true)
    (hgap : isGap gap = true) (line comment : List Char) :
    IsComment (before ++ (line ++ (after ++ gap :: '#' :: comment))) ↔
      IsComment line ∨ ∀ c ∈ line, Text.isBlank c = true := by
  have hfront : before.find? (fun c => !Text.isBlank c) = none := by
    simpa using fun c hc => isBlank_of_isGap (hbefore c hc)
  have hbehind : (after ++ gap :: '#' :: comment).find? (fun c => !Text.isBlank c) = some '#' := by
    have hnone : after.find? (fun c => !Text.isBlank c) = none := by simpa using hafter
    rw [List.find?_append, hnone, Option.none_or, List.find?_cons_of_neg (by simp [isBlank_of_isGap hgap])]
    rfl
  have hblank : line.find? (fun c => !Text.isBlank c) = none ↔ ∀ c ∈ line, Text.isBlank c = true := by simp
  rw [IsComment, IsComment, List.find?_append, hfront, Option.none_or, List.find?_append, hbehind, ← hblank]
  cases line.find? (fun c => !Text.isBlank c) <;> simp

theorem ofChars_of_isComment (h : IsComment line) : ofChars? line = none := by
  have hcontent : content? line = none := if_pos (isComment_iff.mp h)
  rw [ofChars?, hcontent]
  rfl

theorem ofChars_of_not_isComment (h : ¬IsComment line) :
    ofChars? line = (words? (Text.trimEnd (beforeComment line))).bind ofWords? := by
  have hcontent : content? line = some (Text.trimEnd (beforeComment line)) := if_neg (mt isComment_iff.mpr h)
  rw [ofChars?, hcontent]
  rfl

theorem ofChars_of_blank (h : ∀ c ∈ line, Text.isBlank c = true) : ofChars? line = none := by
  have hempty : ofChars? ([] ++ line) = ofChars? [] := ofChars_append_blanks h
  exact hempty

/-- A line with something around it as characters. -/
theorem ofChars_surrounded (hbefore : ∀ c ∈ before, isGap c = true) (hafter : ∀ c ∈ after, Text.isBlank c = true)
    (hgap : isGap gap = true) (line comment : List Char) :
    ofChars? (before ++ (line ++ (after ++ gap :: '#' :: comment))) = ofChars? line := by
  have hiff := isComment_surrounded hbefore hafter hgap line comment
  by_cases hcomment : IsComment line ∨ ∀ c ∈ line, Text.isBlank c = true
  · rw [ofChars_of_isComment (hiff.mpr hcomment)]
    exact (hcomment.elim ofChars_of_isComment ofChars_of_blank).symm
  · have hline : ¬IsComment line := fun h => hcomment (.inl h)
    -- a `#` right behind the gaps would make all of the line a comment
    have hhead : (line ++ (after ++ gap :: '#' :: comment)).head? ≠ some '#' := by
      cases line with
      | nil => exact absurd (.inr (by simp)) hcomment
      | cons c cs =>
        intro hc
        obtain rfl : c = '#' := Option.some.inj hc
        exact hline rfl
    rw [ofChars_of_not_isComment (mt hiff.mp hcomment), ofChars_of_not_isComment hline,
      beforeComment_gaps hbefore hhead, words_trimEnd_gaps hbefore, trimEnd_beforeComment_comment hafter hgap]

/-- **What stands around a line says nothing.** Spaces and tabs in front of a line, and behind it any white space and
then a comment with a space or tab before it, leave the line the rule it holds by itself, or none. -/
theorem ofLine_surrounded {before after : String} {gap : Char} (hbefore : ∀ c ∈ before.toList, isGap c = true)
    (hafter : ∀ c ∈ after.toList, Text.isBlank c = true) (hgap : isGap gap = true) (line comment : String) :
    ofLine? (before ++ line ++ after ++ String.singleton gap ++ "#" ++ comment) = ofLine? line := by
  have htext : (before ++ line ++ after ++ String.singleton gap ++ "#" ++ comment).toList =
      before.toList ++ (line.toList ++ (after.toList ++ gap :: '#' :: comment.toList)) := by
    simp [String.toList_append]
  rw [ofLine?, htext, ofChars_surrounded hbefore hafter hgap]
  rfl

/-- A line with a comment of its own, an open quote in that and a `#` in the pattern, between two tabs and another
comment. -/
theorem ofLine_surrounded_twice :
    ofLine? ("\t\t" ++ "a#b @o\t# \"c" ++ "\u3000\r" ++ String.singleton ' ' ++ "#" ++ "\" #d") =
      some ⟨"a#b", ["@o"]⟩ := by
  have hbefore : ∀ c ∈ "\t\t".toList, isGap c = true := by simp [isGap]
  have hafter : ∀ c ∈ "\u3000\r".toList, Text.isBlank c = true := List.all_eq_true.mp (by decide)
  have hline : ofLine? "a#b @o\t# \"c" = some ⟨"a#b", ["@o"]⟩ := by decide +kernel
  exact (ofLine_surrounded hbefore hafter (by decide) _ _).trans hline

end Rule

end PathOwners
