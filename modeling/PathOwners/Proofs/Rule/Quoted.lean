import PathOwners.Proofs.Rule.Surroundings

/-!
# Quoted patterns

A pattern without quotes and backslashes can be written between quotes, whatever blanks it has, but quotes do not keep a
comment from beginning between them. If none does, the line with the quoted pattern and an owner holds the rule of the
two; otherwise the comment takes the closing quote, a quote is left open, and the line holds no rule (`ofLine_quoted`).
So no rule is ever read for a part of the pattern.
-/

namespace PathOwners.Rule

variable {pattern owner kept text rest : List Char}

/-! ## Comments in a text -/

/-- A `#` stands directly behind a space or tab. -/
def HoldsComment (text : List Char) : Prop := [' ', '#'] <:+: text ∨ ['\t', '#'] <:+: text

instance (text : List Char) : Decidable (HoldsComment text) :=
  inferInstanceAs (Decidable ([' ', '#'] <:+: text ∨ ['\t', '#'] <:+: text))

theorem holdsComment_iff :
    HoldsComment text ↔ ∃ before after, text = before ++ after ∧ CommentBetween before after := by
  constructor
  · have hsplit {gap : Char} (hgap : isGap gap = true) (h : [gap, '#'] <:+: text) :
        ∃ before after, text = before ++ after ∧ CommentBetween before after := by
      obtain ⟨before, after, rfl⟩ := h
      exact ⟨before ++ [gap], '#' :: after, by simp, ⟨gap, by simp, hgap⟩, rfl⟩
    rintro (h | h)
    · exact hsplit (by decide) h
    · exact hsplit (by decide) h
  · rintro ⟨before, after, rfl, ⟨gap, hlast, hgap⟩, hhead⟩
    obtain ⟨before, rfl⟩ := List.getLast?_eq_some_iff.mp hlast
    obtain ⟨after, rfl⟩ := List.head?_eq_some_iff.mp hhead
    have hinfix : [gap, '#'] <:+: before ++ [gap] ++ '#' :: after := ⟨before, after, by simp⟩
    rcases (by simpa [isGap] using hgap : gap = ' ' ∨ gap = '\t') with rfl | rfl
    · exact .inl hinfix
    · exact .inr hinfix

theorem IsUpToComment.of_not_holdsComment (h : ¬HoldsComment text) : IsUpToComment text text := by
  refine ⟨⟨[], by simp, .inl rfl⟩, fun before after hsplit hbetween => ?_⟩
  exact h (holdsComment_iff.mpr ⟨before, after, hsplit, hbetween⟩)

/-- A comment that begins in a text takes all that is behind the text. -/
theorem IsUpToComment.append_of_holdsComment (h : IsUpToComment text kept) (hholds : HoldsComment text)
    (rest : List Char) : IsUpToComment (text ++ rest) kept := by
  refine h.append_of_ne ?_ rest
  rintro rfl
  obtain ⟨before, after, hsplit, hbetween⟩ := holdsComment_iff.mp hholds
  exact h.first before after hsplit hbetween

/-- A text without a comment keeps what is behind it as far as that has no `#`. -/
theorem IsUpToComment.append_of_not_holdsComment (h : ¬HoldsComment text) (hne : rest ≠ []) (hrest : '#' ∉ rest) :
    IsUpToComment (text ++ rest) (text ++ rest) := by
  rcases (IsUpToComment.of_not_holdsComment h).append hrest with hall | hcut
  · exact hall
  · obtain ⟨comment, hsplit, hcomment⟩ := hcut.cut
    obtain rfl : rest = comment := List.append_cancel_left hsplit
    rcases hcomment with hnil | hbetween
    · exact absurd hnil hne
    · exact absurd (List.mem_of_head? hbetween.2) hrest

/-! ## Lines of a quoted pattern and an owner -/

/-- The line that gives a quoted pattern to an owner. -/
def quotedLine (pattern owner : List Char) : List Char := '"' :: (pattern ++ '"' :: ' ' :: owner)

theorem not_isComment_quote (text : List Char) : ¬IsComment ('"' :: text) := by
  have hfirst : ('"' :: text).find? (fun c => !Text.isBlank c) = some '"' := rfl
  rw [IsComment, hfirst]
  decide

/-- No comment begins behind the quote that opens the pattern. -/
theorem beforeComment_quote (text : List Char) : beforeComment ('"' :: text) = '"' :: beforeComment text :=
  beforeComment_cons fun hgap => absurd hgap (by decide)

/-! ## Patterns without a comment -/

/-- A text in quotes as a word. -/
def Word.ofQuoted (text : List Char) (htext : ∀ c ∈ text, c ≠ '"' ∧ c ≠ '\\') : Word :=
  ⟨[.quoted (text.pmap .plain htext)], by simp⟩

theorem Word.text_ofQuoted (htext : ∀ c ∈ text, c ≠ '"' ∧ c ≠ '\\') :
    (Word.ofQuoted text htext).text = '"' :: (text ++ ['"']) := by
  have hblock : blockText (text.pmap .plain htext) = text := by
    rw [blockText, List.flatMap_def, List.map_pmap]
    simp only [QuotedChar.text, List.pmap_eq_map]
    exact List.flatMap_singleton' text
  simp [Word.text, Word.ofQuoted, Piece.text, hblock]

theorem Word.value_ofQuoted (htext : ∀ c ∈ text, c ≠ '"' ∧ c ≠ '\\') : (Word.ofQuoted text htext).value = text := by
  simp [Word.value, Word.ofQuoted, Piece.value, List.map_pmap, QuotedChar.value]

/-- The layout of a line with a quoted pattern: two words, and a blank between them. -/
def quotedLayout (hpattern : ∀ c ∈ pattern, c ≠ '"' ∧ c ≠ '\\') (howner : owner ≠ [])
    (hplain : ∀ c ∈ owner, IsPlain c) : Layout where
  before := .empty
  first := .ofQuoted pattern hpattern
  later := [(.space, .ofPlain owner howner hplain)]
  after := .empty
  dangling := false

theorem words_quotedLine (hpattern : ∀ c ∈ pattern, c ≠ '"' ∧ c ≠ '\\') (howner : owner ≠ [])
    (hplain : ∀ c ∈ owner, IsPlain c) : words? (quotedLine pattern owner) = some [pattern, owner] := by
  have htext : (quotedLayout hpattern howner hplain).text = quotedLine pattern owner := by
    simp [Layout.text, quotedLayout, restText, ending, quotedLine, Word.text_ofQuoted, Word.text_ofPlain]
  have hvalues : (quotedLayout hpattern howner hplain).values = [pattern, owner] := by
    simp [Layout.values, quotedLayout, Word.value_ofQuoted, Word.value_ofPlain]
  rw [← htext, words_text, hvalues]

/-- Where no comment begins in the pattern, the line is its own content. -/
theorem content_quotedLine (hcomment : ¬HoldsComment pattern) (howner : owner ≠ [])
    (hplain : ∀ c ∈ owner, IsPlain c) : content? (quotedLine pattern owner) = some (quotedLine pattern owner) := by
  have hhash : '#' ∉ '"' :: ' ' :: owner := by
    simpa using fun hmem => (hplain _ hmem).hash rfl
  have hbehind := IsUpToComment.append_of_not_holdsComment hcomment (by simp) hhash
  refine content_eq_self (not_isComment_quote _) ?_ fun c hc => ?_
  · rw [quotedLine, beforeComment_quote, isUpToComment_iff.mp hbehind]
  · have hsplit : quotedLine pattern owner = ('"' :: (pattern ++ ['"', ' '])) ++ owner := by simp [quotedLine]
    rw [hsplit, List.getLast?_append_of_ne_nil _ howner] at hc
    exact (hplain c (List.mem_of_getLast? hc)).blank

/-! ## Patterns with a comment -/

/-- A quote that is never closed leaves nothing to read. -/
theorem readWords_unclosed : ∀ {text : List Char}, (∀ c ∈ text, c ≠ '"' ∧ c ≠ '\\') → readWords true text = none
  | [], _ => rfl
  | c :: text, htext => by
    obtain ⟨⟨hquote, hbackslash⟩, htext⟩ := List.forall_mem_cons.mp htext
    rw [readWords_char hbackslash hquote, Bool.not_true, Bool.and_false, readWords_unclosed htext]
    rfl

/-- Where a comment begins in the pattern, the content of the line is the opening quote with a part of the pattern. -/
theorem exists_content_of_holdsComment (hcomment : HoldsComment pattern) (owner : List Char) :
    ∃ part, (∀ c ∈ part, c ∈ pattern) ∧ Text.trimEnd (beforeComment (quotedLine pattern owner)) = '"' :: part := by
  have hkept := isUpToComment_beforeComment pattern
  obtain ⟨comment, hpattern, -⟩ := hkept.cut
  rw [quotedLine, beforeComment_quote, isUpToComment_iff.mp (hkept.append_of_holdsComment hcomment _)]
  obtain ⟨⟨blanks, hsplit, hblanks⟩, -⟩ :=
    Text.isTrimmed_iff.mpr (Eq.refl (Text.trimEnd ('"' :: beforeComment pattern)))
  cases hcontent : Text.trimEnd ('"' :: beforeComment pattern) with
  | nil =>
    rw [hcontent, List.nil_append] at hsplit
    have hquote : '"' ∈ blanks := hsplit ▸ List.mem_cons_self
    exact absurd (hblanks '"' hquote) (by decide)
  | cons d part =>
    rw [hcontent] at hsplit
    obtain ⟨rfl, hpart⟩ := List.cons.inj hsplit
    refine ⟨part, fun c hc => ?_, rfl⟩
    rw [hpattern, hpart]
    exact List.mem_append_left comment (List.mem_append_left blanks hc)

/-- A line with a quoted pattern as characters. -/
theorem ofChars_quotedLine (hpattern : pattern ≠ []) (hbare : ∀ c ∈ pattern, c ≠ '"' ∧ c ≠ '\\') (howner : owner ≠ [])
    (hplain : ∀ c ∈ owner, IsPlain c) :
    ofChars? (quotedLine pattern owner) =
      if HoldsComment pattern then none else some ⟨String.ofList pattern, [String.ofList owner]⟩ := by
  split_ifs with hcomment
  · obtain ⟨part, hpart, hcontent⟩ := exists_content_of_holdsComment hcomment owner
    have hread : readWords true part = none := readWords_unclosed fun c hc => hbare c (hpart c hc)
    have hwords : words? ('"' :: part) = none := by
      show Option.map Words.toList ((readWords true part).map Words.addQuote) = none
      rw [hread]
      rfl
    have hline : ¬IsComment (quotedLine pattern owner) := not_isComment_quote _
    rw [ofChars_of_not_isComment hline, hcontent, hwords]
    rfl
  · have hnames : ∀ name ∈ [owner], name ≠ [] ∧ '#' ∉ name := by
      simpa using ⟨howner, fun hmem => (hplain _ hmem).hash rfl⟩
    rw [ofChars?, content_quotedLine hcomment howner hplain]
    simp only [Option.bind_eq_bind, Option.bind_some, words_quotedLine hbare howner hplain]
    rw [ofWords_of_not_mem hpattern (by simp) hnames]
    rfl

/-- **Quotes keep a pattern exactly if no comment begins in it.** The pattern has no quotes and no backslashes, and the
owner stands for itself: the line with the quoted pattern and the owner holds the rule of the two, or no rule if a `#`
stands directly behind a space or tab in the pattern. -/
theorem ofLine_quoted {pattern owner : String} (hpattern : pattern ≠ "")
    (hbare : ∀ c ∈ pattern.toList, c ≠ '"' ∧ c ≠ '\\') (howner : owner ≠ "")
    (hplain : ∀ c ∈ owner.toList, IsPlain c) :
    ofLine? ("\"" ++ pattern ++ "\" " ++ owner) =
      if HoldsComment pattern.toList then none else some ⟨pattern, [owner]⟩ := by
  have htext : ("\"" ++ pattern ++ "\" " ++ owner).toList = quotedLine pattern.toList owner.toList := by
    simp [quotedLine, String.toList_append]
  rw [ofLine?, htext, ofChars_quotedLine (by simpa using hpattern) hbare (by simpa using howner) hplain,
    String.ofList_toList, String.ofList_toList]

/-- A pattern with blanks of several kinds at its ends and a `#` inside a name, and one with a `#` behind a tab. -/
theorem ofLine_quoted_blanks :
    ofLine? ("\"" ++ " \u3000#a#b\t" ++ "\" " ++ "@o") = some ⟨" \u3000#a#b\t", ["@o"]⟩ ∧
      ofLine? ("\"" ++ "a\t#b" ++ "\" " ++ "@o") = none := by
  have hplain : ∀ c ∈ "@o".toList, IsPlain c :=
    List.forall_mem_cons.mpr ⟨by decide, List.forall_mem_singleton.mpr (by decide)⟩
  exact ⟨(ofLine_quoted (by decide) (by simp) (by decide) hplain).trans (if_neg (by decide)),
    (ofLine_quoted (by decide) (by simp) (by decide) hplain).trans (if_pos (by decide))⟩

end PathOwners.Rule
