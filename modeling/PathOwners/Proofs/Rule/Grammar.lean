import PathOwners.Proofs.Rule.Content
import PathOwners.Proofs.Rule.Layout

/-!
# The grammar of lines

Which lines hold a rule, and which rule it is (`ofLine_grammar`): a line does that is no comment and whose content has a
layout with a pattern and an owner. The content of a line and the layout of a content are unique, so the line is read in
the only way there is.
-/

namespace PathOwners.Rule

/-- What a layout says: its first word is the pattern, and its later words name the owners, each up to its first `#`. A
later word that names nothing is passed over; the pattern is not empty, and at least one owner is named. -/
structure Layout.Says (layout : Layout) (rule : Rule) : Prop where
  pattern : rule.pattern.toList = layout.first.value
  owners : rule.owners.map String.toList =
    (layout.later.map fun part => part.2.value.takeWhile (· != '#')).filter (· ≠ [])
  pattern_ne : rule.pattern ≠ ""
  owners_ne : rule.owners ≠ []

variable {layout : Layout} {rule : Rule}

theorem map_ofList_eq_iff {names : List (List Char)} {owners : List String} :
    names.map String.ofList = owners ↔ owners.map String.toList = names := by
  constructor
  · rintro rfl
    simp [Function.comp_def]
  · rintro rfl
    simp [Function.comp_def]

/-- The rule that the words of a layout stand for is the one that the layout says. -/
theorem ofWords_values : ofWords? layout.values = some rule ↔ layout.Says rule := by
  have hnames : ownerNames (layout.later.map fun part => part.2.value) =
      (layout.later.map fun part => part.2.value.takeWhile (· != '#')).filter (· ≠ []) := by
    rw [ownerNames, List.map_map]
    rfl
  rw [Layout.values, ofWords?, hnames, Option.ite_none_left_eq_some, not_or, Option.some.injEq]
  constructor
  · rintro ⟨⟨hpattern, howners⟩, rfl⟩
    exact ⟨String.toList_ofList, map_ofList_eq_iff.mp rfl, by simpa using hpattern, by simpa using howners⟩
  · rintro ⟨hpattern, howners, hpattern_ne, howners_ne⟩
    refine ⟨⟨?_, ?_⟩, ?_⟩
    · rw [← hpattern]
      simpa using hpattern_ne
    · rw [← howners]
      simpa using howners_ne
    · rw [map_ofList_eq_iff.mpr howners, ← hpattern, String.ofList_toList]

/-- The words of a text stand for a rule exactly if the text has a layout that says the rule. -/
theorem ofWords_iff_layout {text : List Char} :
    (words? text).bind ofWords? = some rule ↔ ∃ layout : Layout, layout.text = text ∧ layout.Says rule := by
  constructor
  · intro h
    obtain ⟨words, hwords, hrule⟩ := Option.bind_eq_some_iff.mp h
    have hne : words ≠ [] := by
      rintro rfl
      cases hrule
    obtain ⟨layout, rfl⟩ := exists_layout hwords hne
    obtain rfl : layout.values = words := Option.some.inj ((words_text layout).symm.trans hwords)
    exact ⟨layout, rfl, ofWords_values.mp hrule⟩
  · rintro ⟨layout, rfl, hsays⟩
    rw [words_text, Option.bind_some, ofWords_values]
    exact hsays

/-- **The grammar of lines.** A line whose first character but for white space is a `#` holds no rule. Any other line
has one content, which is what stands before its comment without the white space at its end; it holds a rule exactly if
its content has a layout that says the rule, and there is only one layout for it. -/
theorem ofLine_grammar (line : String) :
    (IsComment line.toList → ofLine? line = none) ∧
    (∃! content, IsContent line.toList content) ∧
    (∀ rule, ofLine? line = some rule ↔
      ¬IsComment line.toList ∧ ∃ layout : Layout, IsContent line.toList layout.text ∧ layout.Says rule) ∧
    Function.Injective Layout.text := by
  have hread (rule : Rule) : ofLine? line = some rule ↔
      ∃ content, content? line.toList = some content ∧ (words? content).bind ofWords? = some rule :=
    Option.bind_eq_some_iff
  have hrule (rule : Rule) : ofLine? line = some rule ↔
      ¬IsComment line.toList ∧ ∃ layout : Layout, IsContent line.toList layout.text ∧ layout.Says rule := by
    rw [hread]
    constructor
    · rintro ⟨content, hcontent, h⟩
      obtain ⟨hcomment, hcontent⟩ := content_eq_some_iff.mp hcontent
      obtain ⟨layout, rfl, hsays⟩ := ofWords_iff_layout.mp h
      exact ⟨hcomment, layout, hcontent, hsays⟩
    · rintro ⟨hcomment, layout, hcontent, hsays⟩
      exact ⟨layout.text, content_eq_some_iff.mpr ⟨hcomment, hcontent⟩, ofWords_iff_layout.mpr ⟨layout, rfl, hsays⟩⟩
  refine ⟨fun hcomment => ?_, ?_, hrule, Layout.text_injective⟩
  · rw [Option.eq_none_iff_forall_ne_some]
    exact fun rule h => ((hrule rule).mp h).1 hcomment
  · refine ⟨Text.trimEnd (beforeComment line.toList), isContent_iff.mpr rfl, fun content h => ?_⟩
    exact (isContent_iff.mp h).symm

end PathOwners.Rule
