import PathOwners.Proofs.Rule.LineEndings

/-!
# The characters of a rule

A rule is spelled with the characters of its line: its pattern and its owners, one after the other, are what is left of
the line without some of its characters (`sublist_of_ofChars`). A line has no line feed, so the rules of a text have
none in their patterns and owners (`newline_not_mem_of_ofText`).
-/

namespace PathOwners.Rule

open List (Sublist)

/-! ## Words -/

namespace Words

variable (words : Words)

theorem flatten_addChar (c : Char) : (words.addChar c).toList.flatten = c :: words.toList.flatten := by
  cases h : words.current <;> simp [addChar, toList, h]

theorem flatten_addQuote : words.addQuote.toList.flatten = words.toList.flatten := by
  cases h : words.current <;> simp [addQuote, toList, h]

theorem flatten_addGap : words.addGap.toList.flatten = words.toList.flatten := rfl

end Words

/-- Reading words leaves out characters and changes none. -/
theorem sublist_of_readWords {inQuotes : Bool} {text : List Char} {words : Words}
    (h : readWords inQuotes text = some words) : Sublist words.toList.flatten text := by
  fun_induction readWords inQuotes text generalizing words with
  | case1 => cases h
  | case2 => exact Option.some.inj h ▸ List.nil_sublist _
  | case3 => cases h
  | case4 => exact Option.some.inj h ▸ List.nil_sublist _
  | case5 inQuotes c cs ih =>
    obtain ⟨rest, hrest, rfl⟩ := Option.map_eq_some_iff.mp h
    rw [Words.flatten_addChar]
    exact ((ih hrest).cons_cons c).cons '\\'
  | case6 inQuotes cs _ _ ih =>
    obtain ⟨rest, hrest, rfl⟩ := Option.map_eq_some_iff.mp h
    rw [Words.flatten_addQuote]
    exact (ih hrest).cons '"'
  | case7 inQuotes c cs _ _ _ _ ih =>
    obtain ⟨rest, hrest, rfl⟩ := Option.map_eq_some_iff.mp h
    rw [Words.flatten_addGap]
    exact (ih hrest).cons c
  | case8 inQuotes c cs _ _ _ _ ih =>
    obtain ⟨rest, hrest, rfl⟩ := Option.map_eq_some_iff.mp h
    rw [Words.flatten_addChar]
    exact (ih hrest).cons_cons c

/-! ## Rules -/

theorem sublist_of_content {line content : List Char} (h : content? line = some content) : Sublist content line := by
  obtain ⟨comment, hline, -⟩ := (isUpToComment_beforeComment line).cut
  obtain ⟨-, hcontent⟩ := content_eq_some_iff.mp h
  rw [isContent_iff] at hcontent
  have htrimmed : Sublist content (beforeComment line) :=
    hcontent ▸ (List.rdropWhile_prefix Text.isBlank (beforeComment line)).sublist
  have hkept : Sublist (beforeComment line) (beforeComment line ++ comment) := List.sublist_append_left _ _
  exact hline ▸ htrimmed.trans hkept

theorem flatten_ownerNames_sublist (words : List (List Char)) : Sublist (ownerNames words).flatten words.flatten := by
  rw [ownerNames, List.flatten_filter_ne_nil]
  induction words with
  | nil => exact List.nil_sublist _
  | cons word words ih => exact (List.takeWhile_prefix _).sublist.append ih

/-- **A rule is spelled with the characters of its line** -/
theorem sublist_of_ofChars {line : List Char} {rule : Rule} (h : ofChars? line = some rule) :
    Sublist (rule.pattern.toList ++ rule.owners.flatMap String.toList) line := by
  obtain ⟨content, hcontent, h⟩ := Option.bind_eq_some_iff.mp h
  obtain ⟨words, hwords, h⟩ := Option.bind_eq_some_iff.mp h
  obtain ⟨read, hread, rfl⟩ := Option.map_eq_some_iff.mp hwords
  refine Sublist.trans ?_ ((sublist_of_readWords hread).trans (sublist_of_content hcontent))
  cases hlist : read.toList with
  | nil => simp [hlist, ofWords?] at h
  | cons pattern rest =>
    simp only [hlist, ofWords?] at h
    split_ifs at h
    obtain rfl := Option.some.inj h
    have howners : ((ownerNames rest).map String.ofList).flatMap String.toList = (ownerNames rest).flatten := by
      simp [List.flatMap_map]
    rw [String.toList_ofList, howners, List.flatten_cons]
    exact (flatten_ownerNames_sublist rest).append_left pattern

/-- **No rule of a text has a line feed in it** -/
theorem newline_not_mem_of_ofText {text : String} {rule : Rule} (h : rule ∈ ofText text) :
    '\n' ∉ rule.pattern.toList ∧ ∀ owner ∈ rule.owners, '\n' ∉ owner.toList := by
  rw [ofText_eq_pieces] at h
  obtain ⟨line, hline, hrule⟩ := List.mem_filterMap.mp h
  have hsublist := sublist_of_ofChars hrule
  have hnewline : '\n' ∉ line := Text.not_mem_of_mem_pieces hline
  refine ⟨fun hmem => hnewline (hsublist.subset (List.mem_append_left _ hmem)), fun owner howner hmem => ?_⟩
  exact hnewline (hsublist.subset (List.mem_append_right _ (List.mem_flatMap.mpr ⟨owner, howner, hmem⟩)))

end PathOwners.Rule
