import Mathlib.Data.List.TakeWhile
import PathOwners.Proofs.Glob.Escape
import PathOwners.Proofs.Rule.Layout
import PathOwners.Proofs.Rule.LineEndings
import PathOwners.Proofs.RuleSet.LineByLine

/-!
# Protected patterns

A pattern can be written on a line whatever characters it has but a line feed: with a backslash before each of them it
is one word of the line, no quote, gap or comment begins in it, and the rule on the line has the pattern back
(`ofChars_protectedLine`). Together with the escapes of the pattern itself this gives any one path an owner: the file
with this single line has a rule for the path and for no other (`findBestMatch_protectedLine`).
-/

namespace PathOwners

namespace Rule

/-! ## Protected and plain words -/

/-- A word with a backslash before every character. -/
def protect (word : List Char) : List Char := word.flatMap fun c => ['\\', c]

/-- A character that stands for itself in a line, wherever it is. -/
structure IsPlain (c : Char) : Prop where
  blank : Text.isBlank c = false
  backslash : c ≠ '\\'
  quote : c ≠ '"'
  hash : c ≠ '#'

instance (c : Char) : Decidable (IsPlain c) :=
  decidable_of_iff (Text.isBlank c = false ∧ c ≠ '\\' ∧ c ≠ '"' ∧ c ≠ '#')
    ⟨fun ⟨h₁, h₂, h₃, h₄⟩ => ⟨h₁, h₂, h₃, h₄⟩, fun ⟨h₁, h₂, h₃, h₄⟩ => ⟨h₁, h₂, h₃, h₄⟩⟩

variable {word rest : List Char}

theorem protect_cons (c : Char) (word : List Char) : protect (c :: word) = '\\' :: c :: protect word := rfl

/-- Protecting a word adds nothing but backslashes. -/
theorem mem_of_mem_protect {c : Char} (hc : c ≠ '\\') (hmem : c ∈ protect word) : c ∈ word := by
  obtain ⟨d, hd, hmem⟩ := List.mem_flatMap.mp hmem
  obtain rfl : c = d := by simpa [hc] using hmem
  exact hd

theorem IsPlain.not_gap {c : Char} (h : IsPlain c) : isGap c = false := by
  rw [← Bool.not_eq_true]
  intro hgap
  rcases (by simpa [isGap] using hgap : c = ' ' ∨ c = '\t') with rfl | rfl
  · exact absurd h.blank (by decide)
  · exact absurd h.blank (by decide)

/-! ## Words -/

/-- A word with a backslash before every character. -/
def Word.ofProtected (word : List Char) (hne : word ≠ []) : Word := ⟨word.map .escaped, by simpa using hne⟩

theorem Word.text_ofProtected (hne : word ≠ []) : (Word.ofProtected word hne).text = protect word := by
  simp [Word.text, Word.ofProtected, Piece.text, protect, List.flatMap_map]

theorem Word.value_ofProtected (hne : word ≠ []) : (Word.ofProtected word hne).value = word := by
  simp [Word.value, Word.ofProtected, Piece.value, List.flatMap_map]

/-- A word of characters that stand for themselves. -/
def Word.ofPlain (word : List Char) (hne : word ≠ []) (hplain : ∀ c ∈ word, IsPlain c) : Word :=
  ⟨word.pmap (fun c hc => .plain c ⟨IsPlain.not_gap hc, hc.quote, hc.backslash⟩) hplain, by simpa using hne⟩

theorem Word.text_ofPlain (hne : word ≠ []) (hplain : ∀ c ∈ word, IsPlain c) :
    (Word.ofPlain word hne hplain).text = word := by
  rw [Word.text, Word.ofPlain, List.flatMap_def, List.map_pmap]
  simp only [Piece.text, List.pmap_eq_map]
  exact List.flatMap_singleton' word

theorem Word.value_ofPlain (hne : word ≠ []) (hplain : ∀ c ∈ word, IsPlain c) :
    (Word.ofPlain word hne hplain).value = word := by
  rw [Word.value, Word.ofPlain, List.flatMap_def, List.map_pmap]
  simp only [Piece.value, List.pmap_eq_map]
  exact List.flatMap_singleton' word

/-! ## Comments -/

/-- No comment begins right after the first character of a text, unless that is a gap and a `#` follows. -/
theorem beforeComment_cons {b : Char} (h : isGap b = true → rest.head? ≠ some '#') :
    beforeComment (b :: rest) = b :: beforeComment rest := by
  cases rest with
  | nil => rfl
  | cons c cs =>
    rw [beforeComment, if_neg]
    intro hcomment
    obtain ⟨hgap, hhash⟩ := Bool.and_eq_true_iff.mp hcomment
    exact h hgap (congrArg some (beq_iff_eq.mp hhash))

theorem beforeComment_of_not_mem : ∀ {text : List Char}, '#' ∉ text → beforeComment text = text
  | [], _ => rfl
  | b :: text, h => by
    have htext : '#' ∉ text := fun hmem => h (List.mem_cons_of_mem b hmem)
    rw [beforeComment_cons, beforeComment_of_not_mem htext]
    exact fun _ hhead => htext (List.mem_of_head? hhead)

theorem head_protect_append (h : rest.head? ≠ some '#') : (protect word ++ rest).head? ≠ some '#' := by
  cases word with
  | nil => exact h
  | cons c word => simp [protect_cons]

/-- No comment begins in a protected word. -/
theorem beforeComment_protect (h : rest.head? ≠ some '#') :
    beforeComment (protect word ++ rest) = protect word ++ beforeComment rest := by
  induction word with
  | nil => rfl
  | cons c word ih =>
    rw [protect_cons, List.cons_append, List.cons_append, beforeComment_cons (fun hgap => absurd hgap (by decide)),
      beforeComment_cons (fun _ => head_protect_append h), ih]
    rfl

/-- A line that begins with a protected word is no comment. -/
theorem not_isComment_protect (hne : word ≠ []) : ¬IsComment (protect word ++ rest) := by
  obtain ⟨c, word, rfl⟩ := List.exists_cons_of_ne_nil hne
  intro hcomment
  have hfirst : (protect (c :: word) ++ rest).find? (fun c => !Text.isBlank c) = some '\\' := rfl
  exact absurd (hfirst.symm.trans hcomment) (by decide)

/-! ## Lines of a protected pattern and an owner -/

/-- The line that gives a protected pattern to an owner. -/
def protectedLine (pattern owner : List Char) : List Char := protect pattern ++ ' ' :: owner

section ProtectedLine

variable {pattern owner : List Char}

/-- A line with a protected pattern and a plain owner is its own content. -/
theorem content_protectedLine (hpattern : pattern ≠ []) (howner : owner ≠ []) (hplain : ∀ c ∈ owner, IsPlain c) :
    content? (protectedLine pattern owner) = some (protectedLine pattern owner) := by
  have hhash : '#' ∉ ' ' :: owner := by
    rw [List.mem_cons, not_or]
    exact ⟨by decide, fun hmem => (hplain _ hmem).hash rfl⟩
  refine content_eq_self (not_isComment_protect hpattern) ?_ fun c hc => ?_
  · rw [protectedLine, beforeComment_protect (by simp), beforeComment_of_not_mem hhash]
  · rw [protectedLine, ← List.singleton_append, ← List.append_assoc, List.getLast?_append_of_ne_nil _ howner] at hc
    exact (hplain c (List.mem_of_getLast? hc)).blank

/-- The layout of a protected line: two words, and a blank between them. -/
def protectedLayout (hpattern : pattern ≠ []) (howner : owner ≠ []) (hplain : ∀ c ∈ owner, IsPlain c) : Layout where
  before := .empty
  first := .ofProtected pattern hpattern
  later := [(.space, .ofPlain owner howner hplain)]
  after := .empty
  dangling := false

theorem words_protectedLine (hpattern : pattern ≠ []) (howner : owner ≠ []) (hplain : ∀ c ∈ owner, IsPlain c) :
    words? (protectedLine pattern owner) = some [pattern, owner] := by
  have htext : (protectedLayout hpattern howner hplain).text = protectedLine pattern owner := by
    simp [Layout.text, protectedLayout, restText, ending, protectedLine, Word.text_ofProtected, Word.text_ofPlain]
  have hvalues : (protectedLayout hpattern howner hplain).values = [pattern, owner] := by
    simp [Layout.values, protectedLayout, Word.value_ofProtected, Word.value_ofPlain]
  rw [← htext, words_text, hvalues]

/-- An owner without a `#` is its own name. -/
theorem ownerName_of_not_mem (hhash : '#' ∉ owner) : ownerName owner = owner := by
  rw [ownerName, List.takeWhile_eq_self_iff]
  intro c hc
  have hne : c ≠ '#' := fun heq => hhash (heq ▸ hc)
  simpa using hne

/-- **The rule on the line has the pattern and the owner as they were.** -/
theorem ofChars_protectedLine (hpattern : pattern ≠ []) (howner : owner ≠ []) (hplain : ∀ c ∈ owner, IsPlain c) :
    ofChars? (protectedLine pattern owner) = some ⟨String.ofList pattern, [String.ofList owner]⟩ := by
  have hhash : '#' ∉ owner := fun hmem => (hplain _ hmem).hash rfl
  rw [ofChars?, content_protectedLine hpattern howner hplain]
  simp only [Option.bind_eq_bind, Option.bind_some, words_protectedLine hpattern howner hplain]
  simp [ofWords?, ownerNames, ownerName_of_not_mem hhash, hpattern, howner]

theorem newline_not_mem_protectedLine (hnewline : '\n' ∉ pattern) (hplain : ∀ c ∈ owner, IsPlain c) :
    '\n' ∉ protectedLine pattern owner := by
  intro hmem
  rcases List.mem_append.mp hmem with hmem | hmem
  · exact hnewline (mem_of_mem_protect (by decide) hmem)
  · obtain hmem : '\n' ∈ owner := by simpa using hmem
    exact absurd (hplain _ hmem).blank (by decide)

/-- The file with this one line has this one rule. -/
theorem ofText_protectedLine (hpattern : pattern ≠ []) (hnewline : '\n' ∉ pattern) (howner : owner ≠ [])
    (hplain : ∀ c ∈ owner, IsPlain c) :
    ofText (String.ofList (protectedLine pattern owner)) = [⟨String.ofList pattern, [String.ofList owner]⟩] := by
  have hline := newline_not_mem_protectedLine hnewline hplain
  rw [ofText_of_not_mem (by rwa [String.toList_ofList]), ofLine?, String.toList_ofList,
    ofChars_protectedLine hpattern howner hplain]
  rfl

end ProtectedLine

end Rule

open Glob

/-- **Any path can be given an owner of its own.** Escape what can be escaped in the path, and protect every character
of this pattern: the file with this one line has a rule for the path, and none for any other. -/
theorem findBestMatch_protectedLine {text : List Char} (hne : text ≠ []) (hnewline : '\n' ∉ text)
    (hhead : text.head? ≠ some '/') (hlast : text.getLast? ≠ some '/') (path : String) :
    findBestMatch path (String.ofList (Rule.protectedLine (escape text) "@o".toList)) =
      if normalizePath path.toList = text then some ⟨String.ofList (escape text), ["@o"]⟩ else none := by
  have hplain : ∀ c ∈ "@o".toList, Rule.IsPlain c := by
    intro c hc
    rcases (by simpa using hc : c = '@' ∨ c = 'o') with rfl | rfl
    · decide
    · decide
  have hnewline' : '\n' ∉ escape text := fun hmem => hnewline (mem_of_mem_escape (by decide) hmem)
  rw [findBestMatch, RuleSet.ofText,
    Rule.ofText_protectedLine (escape_ne_nil hne) hnewline' (by decide) hplain, RuleSet.bestMatch_singleton]
  simp only [pathMatches_escape hhead hlast, String.ofList_toList]

/-- The line for the file `"#1"` in a directory whose name has brackets and a blank. -/
theorem findBestMatch_protectedLine_brackets :
    let line := "\\\\\\[\\é\\\\\\]\\\\\\ \\x\\/\\\\\\\"\\\\\\#\\1\\\\\\\" @o"
    let rule : Rule := ⟨"\\[é\\]\\ x/\\\"\\#1\\\"", ["@o"]⟩
    findBestMatch "[é] x\\\"#1\"" line = some rule ∧ findBestMatch "é x/#1" line = none := by
  intro line rule
  have hslash : "[é] x/\"#1\"".toList.head? ≠ some '/' ∧ "[é] x/\"#1\"".toList.getLast? ≠ some '/' := by decide
  have hcases (path : String) : findBestMatch path line =
      if normalizePath path.toList = "[é] x/\"#1\"".toList then some rule else none :=
    findBestMatch_protectedLine (by decide) (by decide) hslash.1 hslash.2 path
  have hother : normalizePath "é x/#1".toList ≠ "[é] x/\"#1\"".toList := by decide
  exact ⟨(hcases _).trans (if_pos (by decide)), (hcases _).trans (if_neg hother)⟩

end PathOwners
