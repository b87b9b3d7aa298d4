import Mathlib.Logic.Basic
import PathOwners.Rule.Line

/-!
# Layouts of lines

What stands on a line before its comment is made of words, with spaces and tabs between them. A word is made of pieces:
a character by itself, a character behind a backslash, or a block in quotes, inside which a backslash again takes the
character behind it as it is. A backslash with nothing behind it may end the text, and stands for nothing. A `Layout`
is a text taken apart in this way.

* The words of a text with a layout are the values of the layout's words (`words_text`).
* A text with words has a layout (`exists_layout`).
* It has only one (`Layout.text_injective`), since no piece begins another one, and a word goes on as long as there are
  pieces (`pieces_append_inj`).
-/

namespace PathOwners.Rule

/-! ## The parts of a line -/

/-- A character of a quoted block: by itself, or behind a backslash. -/
inductive QuotedChar
  | plain (c : Char) (notSyntax : c ≠ '"' ∧ c ≠ '\\')
  | escaped (c : Char)

namespace QuotedChar

/-- A character as it is written inside quotes. -/
def text : QuotedChar → List Char
  | plain c _ => [c]
  | escaped c => ['\\', c]

/-- The character that is meant. -/
def value : QuotedChar → Char
  | plain c _ => c
  | escaped c => c

end QuotedChar

/-- A quoted block after its opening quote, without the closing one. -/
def blockText (block : List QuotedChar) : List Char := block.flatMap QuotedChar.text

/-- A piece of a word: a character by itself, one behind a backslash, or a block in quotes. -/
inductive Piece
  | plain (c : Char) (notSyntax : isGap c = false ∧ c ≠ '"' ∧ c ≠ '\\')
  | escaped (c : Char)
  | quoted (block : List QuotedChar)

namespace Piece

/-- A piece as it is written. -/
def text : Piece → List Char
  | plain c _ => [c]
  | escaped c => ['\\', c]
  | quoted block => '"' :: (blockText block ++ ['"'])

/-- The characters that a piece stands for. -/
def value : Piece → List Char
  | plain c _ => [c]
  | escaped c => [c]
  | quoted block => block.map QuotedChar.value

end Piece

/-- A word: one or more pieces. -/
@[ext]
structure Word where
  pieces : List Piece
  ne_nil : pieces ≠ []

namespace Word

/-- A word as it is written. -/
def text (word : Word) : List Char := word.pieces.flatMap Piece.text

/-- The characters that a word stands for. -/
def value (word : Word) : List Char := word.pieces.flatMap Piece.value

end Word

/-- Spaces and tabs, or nothing. -/
@[ext]
structure Blanks where
  chars : List Char
  gaps : ∀ c ∈ chars, isGap c = true

/-- No blanks at all. -/
def Blanks.empty : Blanks := ⟨[], by simp⟩

@[simp]
theorem Blanks.chars_empty : Blanks.empty.chars = [] := rfl

/-- Spaces and tabs, at least one. -/
@[ext]
structure Gap extends Blanks where
  ne_nil : chars ≠ []

/-- A single space. -/
def Gap.space : Gap := ⟨⟨[' '], by simp [isGap]⟩, by simp⟩

@[simp]
theorem Gap.chars_space : Gap.space.chars = [' '] := rfl

/-- What may end a line: nothing, or a backslash with no character behind it. -/
def ending (dangling : Bool) : List Char := if dangling then ['\\'] else []

/-- What is written behind the first word: later words with a gap before each, blanks, and the end. -/
def restText (later : List (Gap × Word)) (after : Blanks) (dangling : Bool) : List Char :=
  later.flatMap (fun part => part.1.chars ++ part.2.text) ++ (after.chars ++ ending dangling)

theorem restText_nil (after : Blanks) (dangling : Bool) :
    restText [] after dangling = after.chars ++ ending dangling := rfl

theorem restText_cons (gap : Gap) (word : Word) (later : List (Gap × Word)) (after : Blanks) (dangling : Bool) :
    restText ((gap, word) :: later) after dangling = gap.chars ++ (word.text ++ restText later after dangling) := by
  simp [restText]

/-- A text taken apart: its words, the gaps between them, the blanks around them, and whether a backslash without a
character behind it ends the text. -/
@[ext]
structure Layout where
  before : Blanks
  first : Word
  later : List (Gap × Word)
  after : Blanks
  dangling : Bool

namespace Layout

/-- A text put together again. -/
def text (layout : Layout) : List Char :=
  layout.before.chars ++ (layout.first.text ++ restText layout.later layout.after layout.dangling)

/-- What the words of a layout stand for. -/
def values (layout : Layout) : List (List Char) := layout.first.value :: layout.later.map fun part => part.2.value

end Layout

variable {rest rest' : List Char}

/-! ## Reading a layout -/

/-- Characters in front of the current word. -/
def Words.addWord (value : List Char) (words : Words) : Words :=
  { words with current := some (value ++ words.current.getD []) }

@[simp]
theorem Words.addWord_addWord (value value' : List Char) (words : Words) :
    (words.addWord value').addWord value = words.addWord (value ++ value') := by
  simp [addWord]

theorem ne_of_isGap {c d : Char} (hc : isGap c = true) (hd : isGap d = false) : c ≠ d := by
  rintro rfl
  exact absurd hc (by simp [hd])

/-- How a character is read that is no syntax. -/
theorem readWords_char {inQuotes : Bool} {c : Char} (hbackslash : c ≠ '\\') (hquote : c ≠ '"') :
    readWords inQuotes (c :: rest) =
      if isGap c && !inQuotes then (readWords inQuotes rest).map Words.addGap
      else (readWords inQuotes rest).map (Words.addWord [c]) := by
  rw [readWords, if_neg hquote]
  · rfl
  · exact fun h => absurd h hbackslash
  · exact fun _ _ h => absurd h hbackslash

theorem readWords_gap {c : Char} (hc : isGap c = true) :
    readWords false (c :: rest) = (readWords false rest).map Words.addGap := by
  rw [readWords_char (ne_of_isGap hc (by decide)) (ne_of_isGap hc (by decide)), hc]
  rfl

/-- A quoted block is read as its characters; behind its closing quote the text goes on outside quotes. -/
theorem readWords_block (block : List QuotedChar) :
    readWords true (blockText block ++ '"' :: rest) =
      (readWords false rest).map (Words.addWord (block.map QuotedChar.value)) := by
  induction block with
  | nil => rfl
  | cons q block ih =>
    have hstep : readWords true (q.text ++ (blockText block ++ '"' :: rest)) =
        (readWords true (blockText block ++ '"' :: rest)).map (Words.addWord [q.value]) := by
      cases q with
      | plain c h =>
        show readWords true (c :: _) = _
        rw [readWords_char h.2 h.1, Bool.not_true, Bool.and_false]
        rfl
      | escaped c => rfl
    show readWords true ((q.text ++ blockText block) ++ '"' :: rest) = _
    rw [List.append_assoc, hstep, ih, Option.map_map]
    rfl

theorem readWords_piece (p : Piece) :
    readWords false (p.text ++ rest) = (readWords false rest).map (Words.addWord p.value) := by
  cases p with
  | plain c h =>
    show readWords false (c :: rest) = _
    rw [readWords_char h.2.2 h.2.1, h.1]
    rfl
  | escaped c => rfl
  | quoted block =>
    have hopen : readWords false ('"' :: (blockText block ++ '"' :: rest)) =
        (readWords true (blockText block ++ '"' :: rest)).map Words.addQuote := rfl
    show readWords false ('"' :: ((blockText block ++ ['"']) ++ rest)) = _
    rw [List.append_assoc, List.singleton_append, hopen, readWords_block, Option.map_map]
    rfl

/-- A word is read as what it stands for. -/
theorem readWords_word (word : Word) :
    readWords false (word.text ++ rest) = (readWords false rest).map (Words.addWord word.value) := by
  obtain ⟨pieces, hne⟩ := word
  show readWords false (pieces.flatMap Piece.text ++ rest) =
    (readWords false rest).map (Words.addWord (pieces.flatMap Piece.value))
  induction pieces with
  | nil => exact absurd rfl hne
  | cons p pieces ih =>
    rw [List.flatMap_cons, List.append_assoc, readWords_piece]
    -- the last piece starts the word, every piece in front of it adds to the word that is there
    rcases eq_or_ne pieces [] with rfl | hpieces
    · simp
    · rw [ih hpieces, Option.map_map]
      congr 1
      funext words
      simp

/-- A gap ends the word before it. -/
theorem readWords_gaps {gaps : List Char} (hgaps : ∀ c ∈ gaps, isGap c = true) (hne : gaps ≠ []) :
    readWords false (gaps ++ rest) = (readWords false rest).map Words.addGap := by
  induction gaps with
  | nil => exact absurd rfl hne
  | cons c gaps ih =>
    obtain ⟨hc, hgaps⟩ := List.forall_mem_cons.mp hgaps
    rw [List.cons_append, readWords_gap hc]
    rcases eq_or_ne gaps [] with rfl | hgaps'
    · rfl
    · rw [ih hgaps hgaps', Option.map_map]
      rfl

theorem readWords_ending (dangling : Bool) : readWords false (ending dangling) = some .empty := by
  cases dangling <;> rfl

/-- Behind a word the later words are read. -/
theorem readWords_restText (later : List (Gap × Word)) (after : Blanks) (dangling : Bool) :
    readWords false (restText later after dangling) = some ⟨none, later.map fun part => part.2.value⟩ := by
  induction later with
  | nil =>
    rw [restText_nil]
    rcases eq_or_ne after.chars [] with hafter | hafter
    · rw [hafter, List.nil_append, readWords_ending]
      rfl
    · rw [readWords_gaps after.gaps hafter, readWords_ending]
      rfl
  | cons part later ih =>
    obtain ⟨gap, word⟩ := part
    have hread : readWords false (word.text ++ restText later after dangling) =
        some ⟨some word.value, later.map fun part => part.2.value⟩ := by
      rw [readWords_word, ih]
      simp [Words.addWord]
    rw [restText_cons, readWords_gaps gap.gaps gap.ne_nil, hread]
    rfl

/-- **The words of a text with a layout are those of the layout.** -/
theorem words_text (layout : Layout) : words? layout.text = some layout.values := by
  have hread : readWords false (layout.first.text ++ restText layout.later layout.after layout.dangling) =
      some ⟨some layout.first.value, layout.later.map fun part => part.2.value⟩ := by
    rw [readWords_word, readWords_restText]
    simp [Words.addWord]
  rw [words?, Layout.text]
  rcases eq_or_ne layout.before.chars [] with hbefore | hbefore
  · rw [hbefore, List.nil_append, hread]
    rfl
  · rw [readWords_gaps layout.before.gaps hbefore, hread]
    rfl

/-! ## Texts that have a layout -/

/-- A text is laid out: it has a layout, or it is blank but for what may end a line. -/
def IsLaidOut (text : List Char) : Prop :=
  (∃ (after : Blanks) (dangling : Bool), text = after.chars ++ ending dangling) ∨
    ∃ layout : Layout, layout.text = text

/-- A text is laid out from inside quotes, or from outside. -/
def IsLaidOutFrom : Bool → List Char → Prop
  | false, text => IsLaidOut text
  | true, text => ∃ block rest, text = blockText block ++ '"' :: rest ∧ IsLaidOut rest

theorem IsLaidOut.ending (dangling : Bool) : IsLaidOut (Rule.ending dangling) :=
  .inl ⟨.empty, dangling, rfl⟩

theorem IsLaidOut.gap {c : Char} (hc : isGap c = true) (h : IsLaidOut rest) : IsLaidOut (c :: rest) := by
  rcases h with ⟨after, dangling, rfl⟩ | ⟨layout, rfl⟩
  · exact .inl ⟨⟨c :: after.chars, List.forall_mem_cons.mpr ⟨hc, after.gaps⟩⟩, dangling, rfl⟩
  · exact .inr ⟨{ layout with before := ⟨c :: layout.before.chars, List.forall_mem_cons.mpr ⟨hc, layout.before.gaps⟩⟩ },
      rfl⟩

/-- A piece begins the word behind it; it is a word by itself if a gap or the end is behind it. -/
theorem IsLaidOut.piece (p : Piece) (h : IsLaidOut rest) : IsLaidOut (p.text ++ rest) := by
  rcases h with ⟨after, dangling, rfl⟩ | ⟨⟨before, first, later, after, dangling⟩, rfl⟩
  · refine .inr ⟨⟨.empty, ⟨[p], by simp⟩, [], after, dangling⟩, ?_⟩
    simp [Layout.text, Word.text, restText]
  · -- without blanks in front, the first word goes on with the piece; with blanks, it becomes a later word
    rcases eq_or_ne before.chars [] with hbefore | hbefore
    · refine .inr ⟨⟨.empty, ⟨p :: first.pieces, by simp⟩, later, after, dangling⟩, ?_⟩
      simp [Layout.text, Word.text, hbefore]
    · refine .inr ⟨⟨.empty, ⟨[p], by simp⟩, (⟨before, hbefore⟩, first) :: later, after, dangling⟩, ?_⟩
      simp [Layout.text, Word.text, restText]

theorem IsLaidOutFrom.quotedChar (q : QuotedChar) (h : IsLaidOutFrom true rest) :
    IsLaidOutFrom true (q.text ++ rest) := by
  obtain ⟨block, rest, rfl, h⟩ := h
  exact ⟨q :: block, rest, by simp [blockText], h⟩

/-- A quote that opens a block makes a piece of it. -/
theorem IsLaidOutFrom.openQuote (h : IsLaidOutFrom true rest) : IsLaidOut ('"' :: rest) := by
  obtain ⟨block, rest, rfl, h⟩ := h
  simpa [Piece.text] using h.piece (.quoted block)

theorem IsLaidOutFrom.escaped {inQuotes : Bool} (c : Char) (h : IsLaidOutFrom inQuotes rest) :
    IsLaidOutFrom inQuotes ('\\' :: c :: rest) := by
  cases inQuotes with
  | false => exact IsLaidOut.piece (.escaped c) h
  | true => exact IsLaidOutFrom.quotedChar (.escaped c) h

/-- Every text that can be read is laid out. -/
theorem isLaidOut_of_readWords (inQuotes : Bool) (text : List Char) (h : (readWords inQuotes text).isSome = true) :
    IsLaidOutFrom inQuotes text := by
  -- `readWords` is a fold from the right: each case puts its characters in front of a rest that is laid out already
  fun_induction readWords inQuotes text with
  | case1 => simp at h
  | case2 inQuotes hout =>
    obtain rfl : inQuotes = false := by simpa using hout
    exact IsLaidOut.ending false
  | case3 => simp at h
  | case4 inQuotes hout =>
    obtain rfl : inQuotes = false := by simpa using hout
    exact IsLaidOut.ending true
  | case5 inQuotes c cs ih => exact (ih (by simpa using h)).escaped c
  | case6 inQuotes cs hend hpair ih =>
    have hcs := ih (by simpa using h)
    cases inQuotes with
    | false => exact hcs.openQuote
    | true => exact ⟨[], cs, rfl, hcs⟩
  | case7 inQuotes c cs hend hpair hquote hgap ih =>
    obtain ⟨hc, hout⟩ := Bool.and_eq_true_iff.mp hgap
    obtain rfl : inQuotes = false := by simpa using hout
    exact IsLaidOut.gap hc (ih (by simpa using h))
  | case8 inQuotes c cs hend hpair hquote hgap ih =>
    have hcs := ih (by simpa using h)
    -- a backslash would have been read by one of the two cases for it
    have hbackslash : c ≠ '\\' := by
      rintro rfl
      cases cs with
      | nil => exact hend rfl rfl
      | cons d cs => exact hpair d cs rfl rfl
    cases inQuotes with
    | false => exact IsLaidOut.piece (.plain c ⟨by simpa using hgap, hquote, hbackslash⟩) hcs
    | true => exact IsLaidOutFrom.quotedChar (.plain c ⟨hquote, hbackslash⟩) hcs

/-- **A text that has words has a layout.** -/
theorem exists_layout {text : List Char} {values : List (List Char)} (h : words? text = some values)
    (hne : values ≠ []) : ∃ layout : Layout, layout.text = text := by
  obtain ⟨words, hread, rfl⟩ := Option.map_eq_some_iff.mp h
  rcases isLaidOut_of_readWords false text (by simp [hread]) with ⟨after, dangling, rfl⟩ | hlayout
  · have hblank := readWords_restText [] after dangling
    obtain rfl : words = .empty := Option.some.inj (hread.symm.trans hblank)
    exact absurd rfl hne
  · exact hlayout

/-! ## No text has two layouts -/

section PrefixCode

variable {α : Type}

/-- No code word begins another one, so a text that begins with a code word shows which one it is. -/
def IsPrefixCode (code : α → List Char) : Prop :=
  ∀ a a' rest rest', code a ++ rest = code a' ++ rest' → a = a' ∧ rest = rest'

/-- A text that begins with no code word. -/
def Stops (code : α → List Char) (rest : List Char) : Prop := ∀ a rest', rest ≠ code a ++ rest'

/-- The code words before a text that begins with none can be told from it, and from each other. -/
theorem IsPrefixCode.flatMap_append_inj {code : α → List Char} (hcode : IsPrefixCode code) {rest rest' : List Char}
    (hrest : Stops code rest) (hrest' : Stops code rest') {l l' : List α}
    (h : l.flatMap code ++ rest = l'.flatMap code ++ rest') : l = l' ∧ rest = rest' := by
  induction l generalizing l' with
  | nil =>
    cases l' with
    | nil => exact ⟨rfl, h⟩
    | cons a l' =>
      rw [List.flatMap_cons, List.append_assoc] at h
      exact absurd h (hrest a _)
  | cons a l ih =>
    cases l' with
    | nil =>
      rw [List.flatMap_cons, List.append_assoc] at h
      exact absurd h.symm (hrest' a _)
    | cons a' l' =>
      rw [List.flatMap_cons, List.flatMap_cons, List.append_assoc, List.append_assoc] at h
      obtain ⟨rfl, htail⟩ := hcode a a' _ _ h
      obtain ⟨rfl, rfl⟩ := ih htail
      exact ⟨rfl, rfl⟩

end PrefixCode

theorem isPrefixCode_quotedChar : IsPrefixCode QuotedChar.text := by
  intro q q' rest rest' h
  cases q with
  | plain c hc =>
    cases q' with
    | plain d hd =>
      obtain ⟨rfl, rfl⟩ := List.cons.inj h
      exact ⟨rfl, rfl⟩
    | escaped d => exact absurd (List.cons.inj h).1 hc.2
  | escaped c =>
    cases q' with
    | plain d hd => exact absurd (List.cons.inj h).1.symm hd.2
    | escaped d =>
      obtain ⟨rfl, rfl⟩ := List.cons.inj (List.cons.inj h).2
      exact ⟨rfl, rfl⟩

/-- A quote ends a block. -/
theorem stops_quote (rest : List Char) : Stops QuotedChar.text ('"' :: rest) := by
  intro q rest' h
  cases q with
  | plain c hc => exact hc.1 (List.cons.inj h).1.symm
  | escaped c => exact absurd (List.cons.inj h).1 (by decide)

/-- The first character of a piece tells what kind of piece it is. -/
theorem isPrefixCode_piece : IsPrefixCode Piece.text := by
  intro p p' rest rest' h
  cases p with
  | plain c hc =>
    cases p' with
    | plain d hd =>
      obtain ⟨rfl, rfl⟩ := List.cons.inj h
      exact ⟨rfl, rfl⟩
    | escaped d => exact absurd (List.cons.inj h).1 hc.2.2
    | quoted block => exact absurd (List.cons.inj h).1 hc.2.1
  | escaped c =>
    cases p' with
    | plain d hd => exact absurd (List.cons.inj h).1.symm hd.2.2
    | escaped d =>
      obtain ⟨rfl, rfl⟩ := List.cons.inj (List.cons.inj h).2
      exact ⟨rfl, rfl⟩
    | quoted block => exact absurd (List.cons.inj h).1 (by decide)
  | quoted block =>
    cases p' with
    | plain d hd => exact absurd (List.cons.inj h).1.symm hd.2.1
    | escaped d => exact absurd (List.cons.inj h).1 (by decide)
    | quoted block' =>
      have hblock : block.flatMap QuotedChar.text ++ '"' :: rest = block'.flatMap QuotedChar.text ++ '"' :: rest' := by
        simpa [Piece.text, blockText] using h
      obtain ⟨rfl, hquote⟩ :=
        isPrefixCode_quotedChar.flatMap_append_inj (stops_quote rest) (stops_quote rest') hblock
      exact ⟨rfl, (List.cons.inj hquote).2⟩

/-- A gap ends a word. -/
theorem stops_gap {c : Char} (hc : isGap c = true) (rest : List Char) : Stops Piece.text (c :: rest) := by
  intro p rest' h
  cases p with
  | plain d hd => exact ne_of_isGap hc hd.1 (List.cons.inj h).1
  | escaped d => exact ne_of_isGap hc (by decide) (List.cons.inj h).1
  | quoted block => exact ne_of_isGap hc (by decide) (List.cons.inj h).1

/-- The end of a line ends a word. -/
theorem stops_ending (dangling : Bool) : Stops Piece.text (ending dangling) := by
  intro p rest' h
  cases dangling with
  | false => cases p <;> exact absurd h (by simp [ending, Piece.text])
  | true =>
    cases p with
    | plain d hd => exact hd.2.2 (List.cons.inj h).1.symm
    | escaped d => exact absurd (List.cons.inj h).2 (by simp)
    | quoted block => exact absurd (List.cons.inj h).1 (by decide)

theorem stops_restText (later : List (Gap × Word)) (after : Blanks) (dangling : Bool) :
    Stops Piece.text (restText later after dangling) := by
  cases later with
  | nil =>
    rw [restText_nil]
    rcases hafter : after.chars with _ | ⟨c, cs⟩
    · exact stops_ending dangling
    · exact stops_gap (after.gaps c (by simp [hafter])) (cs ++ ending dangling)
  | cons part later =>
    obtain ⟨gap, word⟩ := part
    obtain ⟨c, cs, hgap⟩ := List.exists_cons_of_ne_nil gap.ne_nil
    rw [restText_cons, hgap]
    exact stops_gap (gap.gaps c (by simp [hgap])) (cs ++ (word.text ++ restText later after dangling))

/-- Blanks are told from what follows them if that does not begin with a gap. -/
theorem gaps_append_inj {gaps gaps' : List Char} (hgaps : ∀ c ∈ gaps, isGap c = true)
    (hgaps' : ∀ c ∈ gaps', isGap c = true) (hrest : rest.takeWhile isGap = [])
    (hrest' : rest'.takeWhile isGap = []) (h : gaps ++ rest = gaps' ++ rest') : gaps = gaps' ∧ rest = rest' := by
  have hcut := congrArg (List.takeWhile isGap) h
  rw [List.takeWhile_append_of_pos hgaps, List.takeWhile_append_of_pos hgaps', hrest, hrest', List.append_nil,
    List.append_nil] at hcut
  subst hcut
  exact ⟨rfl, List.append_cancel_left h⟩

theorem takeWhile_ending (dangling : Bool) : (ending dangling).takeWhile isGap = [] := by
  cases dangling <;> rfl

theorem Word.exists_piece (word : Word) (rest : List Char) : ∃ p rest', word.text ++ rest = Piece.text p ++ rest' := by
  obtain ⟨p, pieces, hpieces⟩ := List.exists_cons_of_ne_nil word.ne_nil
  refine ⟨p, pieces.flatMap Piece.text ++ rest, ?_⟩
  rw [Word.text, hpieces, List.flatMap_cons, List.append_assoc]

theorem takeWhile_word (word : Word) (rest : List Char) : (word.text ++ rest).takeWhile isGap = [] := by
  obtain ⟨p, rest', hword⟩ := word.exists_piece rest
  rw [hword]
  cases p with
  | plain c hc => exact List.takeWhile_cons_of_neg (by simp [hc.1])
  | escaped c => rfl
  | quoted block => rfl

/-- The end of a line begins no word. -/
theorem ending_ne_word (dangling : Bool) (word : Word) (rest : List Char) : ending dangling ≠ word.text ++ rest := by
  obtain ⟨p, rest', hword⟩ := word.exists_piece rest
  rw [hword]
  exact stops_ending dangling p rest'

theorem ending_injective {dangling dangling' : Bool} (h : ending dangling = ending dangling') :
    dangling = dangling' := by
  cases dangling <;> cases dangling' <;> simp_all [ending]

/-- A word is told from what follows it if that goes on with no piece. -/
theorem word_append_inj {word word' : Word} (hrest : Stops Piece.text rest) (hrest' : Stops Piece.text rest')
    (h : word.text ++ rest = word'.text ++ rest') : word = word' ∧ rest = rest' := by
  obtain ⟨hpieces, rfl⟩ := isPrefixCode_piece.flatMap_append_inj hrest hrest' h
  exact ⟨Word.ext hpieces, rfl⟩

theorem restText_inj {later later' : List (Gap × Word)} {after after' : Blanks} {dangling dangling' : Bool}
    (h : restText later after dangling = restText later' after' dangling') :
    later = later' ∧ after = after' ∧ dangling = dangling' := by
  induction later generalizing later' with
  | nil =>
    rw [restText_nil] at h
    cases later' with
    | nil =>
      obtain ⟨hafter, hending⟩ := gaps_append_inj after.gaps after'.gaps (takeWhile_ending _) (takeWhile_ending _) h
      exact ⟨rfl, Blanks.ext hafter, ending_injective hending⟩
    | cons part later' =>
      obtain ⟨gap, word⟩ := part
      rw [restText_cons] at h
      obtain ⟨-, hend⟩ := gaps_append_inj after.gaps gap.gaps (takeWhile_ending _) (takeWhile_word word _) h
      exact absurd hend (ending_ne_word _ word _)
  | cons part later ih =>
    obtain ⟨gap, word⟩ := part
    rw [restText_cons] at h
    cases later' with
    | nil =>
      obtain ⟨-, hend⟩ := gaps_append_inj gap.gaps after'.gaps (takeWhile_word word _) (takeWhile_ending _) h
      exact absurd hend.symm (ending_ne_word _ word _)
    | cons part' later' =>
      obtain ⟨gap', word'⟩ := part'
      rw [restText_cons] at h
      obtain ⟨hgap, hword⟩ := gaps_append_inj gap.gaps gap'.gaps (takeWhile_word word _) (takeWhile_word word' _) h
      obtain ⟨rfl, hrest⟩ := word_append_inj (stops_restText _ _ _) (stops_restText _ _ _) hword
      obtain ⟨rfl, rfl, rfl⟩ := ih hrest
      obtain rfl : gap = gap' := Gap.ext hgap
      exact ⟨rfl, rfl, rfl⟩

/-- **No text has two layouts.** -/
theorem Layout.text_injective : Function.Injective Layout.text := by
  rintro ⟨before, first, later, after, dangling⟩ ⟨before', first', later', after', dangling'⟩ h
  obtain ⟨hbefore, hword⟩ :=
    gaps_append_inj before.gaps before'.gaps (takeWhile_word first _) (takeWhile_word first' _) h
  obtain ⟨rfl, hrest⟩ := word_append_inj (stops_restText _ _ _) (stops_restText _ _ _) hword
  obtain ⟨rfl, rfl, rfl⟩ := restText_inj hrest
  obtain rfl : before = before' := Blanks.ext hbefore
  rfl

end PathOwners.Rule
