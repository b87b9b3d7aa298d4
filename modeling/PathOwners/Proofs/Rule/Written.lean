import PathOwners.Proofs.Rule.Protected

/-!
# Rules written on lines

Every rule can be written on a line and read back, whatever characters it has (`ofLine_writtenLine`): its pattern and
its owners are the words of the line, with gaps between them and a backslash before every character. The owners have to
be names, since an owner ends at a `#` on every line, and the last one must not end in white space, which is cut from
the end of a line before backslashes are read.
-/

namespace PathOwners.Rule

variable {word rest gaps : List Char} {pattern : List Char} {owners : List (Gap × List Char)}

/-! ## Written lines -/

/-- Owners behind a pattern: each one behind a gap, with a backslash before every character. -/
def writtenOwners (owners : List (Gap × List Char)) : List Char :=
  owners.flatMap fun part => part.1.chars ++ protect part.2

/-- The line that a rule is written on. -/
def writtenLine (pattern : List Char) (owners : List (Gap × List Char)) : List Char :=
  protect pattern ++ writtenOwners owners

theorem writtenOwners_cons (gap : Gap) (owner : List Char) (owners : List (Gap × List Char)) :
    writtenOwners ((gap, owner) :: owners) = gap.chars ++ (protect owner ++ writtenOwners owners) := by
  simp [writtenOwners]

/-! ## The content of a written line -/

/-- No comment begins in a gap, unless a `#` follows. -/
theorem beforeComment_gaps (hgaps : ∀ c ∈ gaps, isGap c = true) (hrest : rest.head? ≠ some '#') :
    beforeComment (gaps ++ rest) = gaps ++ beforeComment rest := by
  induction gaps with
  | nil => rfl
  | cons c gaps ih =>
    obtain ⟨-, hgaps⟩ := List.forall_mem_cons.mp hgaps
    have hnext : (gaps ++ rest).head? ≠ some '#' := by
      cases gaps with
      | nil => exact hrest
      | cons d gaps =>
        intro hhash
        exact ne_of_isGap (hgaps d List.mem_cons_self) (by decide) (Option.some.inj hhash)
    rw [List.cons_append, beforeComment_cons fun _ => hnext, ih hgaps, List.cons_append]

theorem head_writtenOwners (owners : List (Gap × List Char)) : (writtenOwners owners).head? ≠ some '#' := by
  cases owners with
  | nil => simp [writtenOwners]
  | cons part owners =>
    obtain ⟨gap, owner⟩ := part
    obtain ⟨c, cs, hgap⟩ := List.exists_cons_of_ne_nil gap.ne_nil
    rw [writtenOwners_cons, hgap]
    intro hhash
    exact ne_of_isGap (gap.gaps c (by simp [hgap])) (by decide) (Option.some.inj hhash)

theorem beforeComment_writtenOwners (owners : List (Gap × List Char)) :
    beforeComment (writtenOwners owners) = writtenOwners owners := by
  induction owners with
  | nil => rfl
  | cons part owners ih =>
    obtain ⟨gap, owner⟩ := part
    have hrest := head_writtenOwners owners
    rw [writtenOwners_cons, beforeComment_gaps gap.gaps (head_protect_append hrest), beforeComment_protect hrest, ih]

theorem getLast_protect (word : List Char) : (protect word).getLast? = word.getLast? := by
  rcases List.eq_nil_or_concat word with rfl | ⟨front, c, rfl⟩
  · rfl
  · simp [protect]

/-- A written line ends as its last owner does. -/
theorem getLast_writtenLine (howners : owners ≠ []) (hne : ∀ part ∈ owners, part.2 ≠ []) {c : Char}
    (hc : (writtenLine pattern owners).getLast? = some c) : ∃ part ∈ owners.getLast?, part.2.getLast? = some c := by
  obtain ⟨front, ⟨gap, owner⟩, rfl⟩ := (List.eq_nil_or_concat owners).resolve_left howners
  refine ⟨(gap, owner), by simp, ?_⟩
  have howner : protect owner ≠ [] := by
    obtain ⟨d, owner, rfl⟩ := List.exists_cons_of_ne_nil (hne (gap, owner) (by simp))
    simp [protect_cons]
  have hsplit : writtenLine pattern (front.concat (gap, owner)) =
      (protect pattern ++ (writtenOwners front ++ gap.chars)) ++ protect owner := by
    simp [writtenLine, writtenOwners]
  rwa [hsplit, List.getLast?_append_of_ne_nil _ howner, getLast_protect] at hc

/-- A written line is its own content. -/
theorem content_writtenLine (hpattern : pattern ≠ []) (howners : owners ≠ []) (hne : ∀ part ∈ owners, part.2 ≠ [])
    (hlast : ∀ part ∈ owners.getLast?, ∀ c ∈ part.2.getLast?, Text.isBlank c = false) :
    content? (writtenLine pattern owners) = some (writtenLine pattern owners) := by
  refine content_eq_self (not_isComment_protect hpattern) ?_ fun c hc => ?_
  · rw [writtenLine, beforeComment_protect (head_writtenOwners owners), beforeComment_writtenOwners]
  · obtain ⟨part, hpart, hc⟩ := getLast_writtenLine howners hne hc
    exact hlast part hpart c hc

/-! ## The words of a written line -/

/-- The layout of a written line. -/
def writtenLayout (hpattern : pattern ≠ []) (hne : ∀ part ∈ owners, part.2 ≠ []) : Layout where
  before := .empty
  first := .ofProtected pattern hpattern
  later := owners.pmap (fun part hpart => (part.1, .ofProtected part.2 hpart)) hne
  after := .empty
  dangling := false

theorem text_writtenLayout (hpattern : pattern ≠ []) (hne : ∀ part ∈ owners, part.2 ≠ []) :
    (writtenLayout hpattern hne).text = writtenLine pattern owners := by
  have hlater : (writtenLayout hpattern hne).later.flatMap (fun part => part.1.chars ++ part.2.text) =
      writtenOwners owners := by
    rw [writtenLayout, List.flatMap_def, List.map_pmap]
    simp only [Word.text_ofProtected, List.pmap_eq_map]
    rfl
  rw [Layout.text, restText, hlater]
  simp [writtenLayout, ending, writtenLine, Word.text_ofProtected]

theorem words_writtenLine (hpattern : pattern ≠ []) (hne : ∀ part ∈ owners, part.2 ≠ []) :
    words? (writtenLine pattern owners) = some (pattern :: owners.map Prod.snd) := by
  have hvalues : (writtenLayout hpattern hne).values = pattern :: owners.map Prod.snd := by
    simp [Layout.values, writtenLayout, List.map_pmap, Word.value_ofProtected]
  rw [← text_writtenLayout hpattern hne, words_text, hvalues]

theorem ownerNames_of_not_mem {names : List (List Char)} (hnames : ∀ name ∈ names, name ≠ [] ∧ '#' ∉ name) :
    ownerNames names = names := by
  have hmap : names.map ownerName = names.map id :=
    List.map_congr_left fun name hname => ownerName_of_not_mem (hnames name hname).2
  rw [ownerNames, hmap, List.map_id, List.filter_eq_self]
  intro name hname
  simpa using (hnames name hname).1

theorem ofWords_of_not_mem {names : List (List Char)} (hpattern : pattern ≠ []) (hne : names ≠ [])
    (hnames : ∀ name ∈ names, name ≠ [] ∧ '#' ∉ name) :
    ofWords? (pattern :: names) = some ⟨String.ofList pattern, names.map String.ofList⟩ := by
  rw [ofWords?, ownerNames_of_not_mem hnames]
  exact if_neg (not_or.mpr ⟨hpattern, hne⟩)

/-- A written line as characters. -/
theorem ofChars_writtenLine (hpattern : pattern ≠ []) (howners : owners ≠ [])
    (hnames : ∀ part ∈ owners, part.2 ≠ [] ∧ '#' ∉ part.2)
    (hlast : ∀ part ∈ owners.getLast?, ∀ c ∈ part.2.getLast?, Text.isBlank c = false) :
    ofChars? (writtenLine pattern owners) =
      some ⟨String.ofList pattern, owners.map fun part => String.ofList part.2⟩ := by
  have hne : ∀ part ∈ owners, part.2 ≠ [] := fun part hpart => (hnames part hpart).1
  have hnames' : ∀ name ∈ owners.map Prod.snd, name ≠ [] ∧ '#' ∉ name := List.forall_mem_map.mpr hnames
  rw [ofChars?, content_writtenLine hpattern howners hne hlast]
  simp only [Option.bind_eq_bind, Option.bind_some, words_writtenLine hpattern hne]
  rw [ofWords_of_not_mem hpattern (by simpa using howners) hnames', List.map_map]
  rfl

/-- **Rules are read back from the lines they are written on.** A rule whose pattern and owners are not empty, whose
owners have no `#`, and whose last owner does not end in white space, is the rule on its written line, whatever gaps the
line has. -/
theorem ofLine_writtenLine {pattern : String} {owners : List (Gap × String)} (hpattern : pattern ≠ "")
    (howners : owners ≠ []) (hnames : ∀ part ∈ owners, part.2 ≠ "" ∧ '#' ∉ part.2.toList)
    (hlast : ∀ part ∈ owners.getLast?, ∀ c ∈ part.2.toList.getLast?, Text.isBlank c = false) :
    ofLine? (String.ofList (writtenLine pattern.toList (owners.map fun part => (part.1, part.2.toList)))) =
      some ⟨pattern, owners.map Prod.snd⟩ := by
  have hpattern' : pattern.toList ≠ [] := by simpa using hpattern
  have hnames' : ∀ part ∈ owners.map fun part => (part.1, part.2.toList), part.2 ≠ [] ∧ '#' ∉ part.2 := by
    rw [List.forall_mem_map]
    intro part hpart
    exact ⟨by simpa using (hnames part hpart).1, (hnames part hpart).2⟩
  have hlast' : ∀ part ∈ (owners.map fun part => (part.1, part.2.toList)).getLast?,
      ∀ c ∈ part.2.getLast?, Text.isBlank c = false := by
    intro part hpart
    rw [List.getLast?_map] at hpart
    obtain ⟨owner, howner, rfl⟩ := Option.mem_map.mp hpart
    exact hlast owner howner
  rw [ofLine?, String.toList_ofList, ofChars_writtenLine hpattern' (by simpa using howners) hnames' hlast',
    List.map_map, String.ofList_toList]
  simp only [Function.comp_def, String.ofList_toList]

/-- A pattern and two owners with quotes, blanks, a backslash and a `#`, and gaps of one and three characters. -/
theorem ofLine_writtenLine_syntax :
    let wide : Gap := ⟨⟨['\t', ' ', '\t'], by simp [isGap]⟩, by simp⟩
    let owners : List (Gap × String) := [(wide, "@x "), (.space, "\"")]
    let line := String.ofList (writtenLine "# \"\\é".toList (owners.map fun part => (part.1, part.2.toList)))
    line = "\\#\\ \\\"\\\\\\é\t \t\\@\\x\\  \\\"" ∧ ofLine? line = some ⟨"# \"\\é", ["@x ", "\""]⟩ := by
  intro wide owners line
  have hnames : ∀ part ∈ owners, part.2 ≠ "" ∧ '#' ∉ part.2.toList := by decide
  have hlast : ∀ part ∈ owners.getLast?, ∀ c ∈ part.2.toList.getLast?, Text.isBlank c = false := by
    intro part hpart c hc
    obtain rfl : part = (.space, "\"") := (Option.some.inj hpart).symm
    obtain rfl : '"' = c := by simpa using hc
    decide
  exact ⟨by decide, ofLine_writtenLine (by decide) (by simp [owners]) hnames hlast⟩

end PathOwners.Rule
