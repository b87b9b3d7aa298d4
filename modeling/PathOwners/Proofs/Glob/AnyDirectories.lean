import PathOwners.Proofs.Glob.Behind
import PathOwners.Proofs.Glob.Compiling

/-!
# Two stars as a whole segment

Two stars that are a whole segment stand for any number of directories: what they match is matched by as many single
stars, each a segment of its own (`pathMatches_anyDirectories`). A text ends in a separator exactly if it is made up of
names with a separator behind each (`mem_anyDirectories_iff`), and the parts of a pattern before and behind the stars
give the same tokens whatever segments stand between them (`exists_between`).
-/

namespace PathOwners

open Glob

namespace Glob

/-! ## Directories -/

section Language

variable {w : List Char} {count : Nat}

/-- The name of a directory, with a separator behind it. -/
def directoryLanguage : Language Char := Token.star.language * Token.separator.language

/-- The tokens of several single stars, each a segment of its own. -/
def directoryTokens (count : Nat) : List Token := (List.replicate count [Token.star, .separator]).flatten

theorem directoryTokens_succ (count : Nat) :
    directoryTokens (count + 1) = [.star, .separator] ++ directoryTokens count := rfl

theorem sequenceLanguage_directoryTokens (count : Nat) :
    sequenceLanguage (directoryTokens count) = directoryLanguage ^ count := by
  induction count with
  | zero => rfl
  | succ count ih =>
    have hone : sequenceLanguage [.star, .separator] = directoryLanguage := by
      simp only [sequenceLanguage, directoryLanguage, mul_one]
    rw [directoryTokens_succ, sequenceLanguage_append, ih, hone, pow_succ']

theorem mem_directoryLanguage_pow_succ : w ∈ directoryLanguage ^ (count + 1) ↔
    ∃ name rest, '/' ∉ name ∧ rest ∈ directoryLanguage ^ count ∧ w = name ++ '/' :: rest := by
  rw [pow_succ', Language.mem_mul]
  constructor
  · rintro ⟨_, ⟨name, hname, _, rfl, rfl⟩, rest, hrest, rfl⟩
    exact ⟨name, rest, hname, hrest, by simp⟩
  · rintro ⟨name, rest, hname, hrest, rfl⟩
    exact ⟨name ++ ['/'], Language.append_mem_mul hname rfl, rest, hrest, by simp⟩

/-- **Any number of directories are so many names with a separator behind each** -/
theorem mem_anyDirectories_iff : w ∈ Token.anyDirectories.language ↔ ∃ count, w ∈ directoryLanguage ^ count := by
  constructor
  · intro h
    -- A character goes to the first name, unless it is a separator: then it ends an empty name before all others.
    induction w with
    | nil => exact ⟨0, rfl⟩
    | cons c w ih =>
      have hlast : (c :: w).getLast? = some '/' := h.resolve_left (List.cons_ne_nil c w)
      by_cases hc : c = '/'
      · have hw : w ∈ Token.anyDirectories.language := by
          cases w with
          | nil => exact .inl rfl
          | cons d w => exact .inr (by rwa [List.getLast?_cons_cons] at hlast)
        obtain ⟨count, hcount⟩ := ih hw
        exact ⟨count + 1, mem_directoryLanguage_pow_succ.mpr ⟨[], w, List.not_mem_nil, hcount, by rw [hc]; rfl⟩⟩
      · obtain ⟨d, w, rfl⟩ : ∃ d w', w = d :: w' := by
          cases w with
          | nil => exact absurd (Option.some.inj hlast) hc
          | cons d w => exact ⟨d, w, rfl⟩
        rw [List.getLast?_cons_cons] at hlast
        obtain ⟨count, hcount⟩ := ih (.inr hlast)
        cases count with
        | zero => exact absurd hcount (List.cons_ne_nil d w)
        | succ count =>
          obtain ⟨name, rest, hname, hrest, hw⟩ := mem_directoryLanguage_pow_succ.mp hcount
          have hname' : '/' ∉ c :: name := by simp [Ne.symm hc, hname]
          exact ⟨count + 1, mem_directoryLanguage_pow_succ.mpr ⟨c :: name, rest, hname', hrest, by rw [hw]; rfl⟩⟩
  · rintro ⟨count, h⟩
    induction count generalizing w with
    | zero => exact .inl h
    | succ count ih =>
      obtain ⟨name, rest, -, hrest, rfl⟩ := mem_directoryLanguage_pow_succ.mp h
      right
      rcases ih hrest with rfl | hlast
      · exact List.getLast?_concat
      · have hne : rest ≠ [] := by
          rintro rfl
          cases hlast
        rw [List.getLast?_append_of_ne_nil _ (List.cons_ne_nil '/' rest), List.getLast?_cons_of_ne_nil hne, hlast]

theorem mem_sequenceLanguage_anyDirectories {left right : List Token} :
    w ∈ sequenceLanguage (left ++ ([.anyDirectories] ++ right)) ↔
      ∃ count, w ∈ sequenceLanguage (left ++ (directoryTokens count ++ right)) := by
  simp only [sequenceLanguage_append, sequenceLanguage_directoryTokens, sequenceLanguage_singleton, Language.mem_mul,
    mem_anyDirectories_iff]
  constructor
  · rintro ⟨u, hu, _, ⟨v, ⟨count, hv⟩, x, hx, rfl⟩, rfl⟩
    exact ⟨count, u, hu, _, ⟨v, hv, x, hx, rfl⟩, rfl⟩
  · rintro ⟨count, u, hu, _, ⟨v, hv, x, hx, rfl⟩, rfl⟩
    exact ⟨u, hu, _, ⟨v, ⟨count, hv⟩, x, hx, rfl⟩, rfl⟩

/-- **Any number of directories in a body are some number of single stars.** -/
theorem mem_bodyLanguage_anyDirectories {directory : Bool} {left right : List Token} :
    w ∈ bodyLanguage directory (left ++ ([.anyDirectories] ++ right)) ↔
      ∃ count, w ∈ bodyLanguage directory (left ++ (directoryTokens count ++ right)) := by
  cases directory with
  | false => exact mem_sequenceLanguage_anyDirectories
  | true =>
    constructor
    · rintro (hw | ⟨u, hu, hv⟩)
      · obtain ⟨count, hcount⟩ := mem_sequenceLanguage_anyDirectories.mp hw
        exact ⟨count, .inl hcount⟩
      · obtain ⟨count, hcount⟩ := mem_sequenceLanguage_anyDirectories.mp hu
        exact ⟨count, .inr ⟨u, hcount, hv⟩⟩
    · rintro ⟨count, hw | ⟨u, hu, hv⟩⟩
      · exact .inl (mem_sequenceLanguage_anyDirectories.mpr ⟨count, hw⟩)
      · exact .inr ⟨u, mem_sequenceLanguage_anyDirectories.mpr ⟨count, hu⟩, hv⟩

end Language

/-! ## Segments between two parts -/

section Segments

/-- A text that is some whole segments, wherever it begins one: it gives the same tokens in every scan. -/
structure WholeSegments (text : List Char) (tokens : List Token) : Prop where
  settled : Settled text
  run : ∀ s : ScanState, s.AtSegment →
    ∃ t, s.run text = .ok t ∧ t.AtSegment ∧ t.tokens.reverse = s.tokens.reverse ++ tokens

namespace WholeSegments

variable {text text' : List Char} {tokens tokens' : List Token}

theorem nil : WholeSegments [] [] := ⟨settled_nil, fun s hs => ⟨s, rfl, hs, by simp⟩⟩

theorem append (h : WholeSegments text tokens) (h' : WholeSegments text' tokens') :
    WholeSegments (text ++ text') (tokens ++ tokens') := by
  refine ⟨h.settled.append h'.settled, fun s hs => ?_⟩
  obtain ⟨t, hrun, ht, htokens⟩ := h.run s hs
  obtain ⟨u, hrun', hu, htokens'⟩ := h'.run t ht
  exact ⟨u, ScanState.run_append_eq_ok_iff.mpr ⟨t, hrun, hrun'⟩, hu, by rw [htokens', htokens, List.append_assoc]⟩

/-- Lexemes without groups that end where they began, at the start of a segment. -/
theorem lexemes (ls : List Lexeme) (hgenuine : ∀ l ∈ ls, l.Genuine) (hopening : .plain '\x7b' ∉ ls)
    (hafter : Stance.initial.after (ls.map .lexeme) = Stance.initial) (hsettled : Settled (ls.flatMap Lexeme.text)) :
    WholeSegments (ls.flatMap Lexeme.text) (Stance.initial.read (ls.map .lexeme)) :=
  ⟨hsettled, fun _ hs => hs.run_lexemes hgenuine hopening hafter⟩

theorem directory : WholeSegments ['*', '/'] [.star, .separator] :=
  lexemes [.plain '*', .plain '/'] (by simp [Lexeme.Genuine]) (by decide) rfl
    ((settled_singleton (by decide)).append (settled_singleton (by decide)))

theorem directories (count : Nat) :
    WholeSegments (List.replicate count ['*', '/']).flatten (directoryTokens count) := by
  induction count with
  | zero => exact nil
  | succ count ih => exact directory.append ih

theorem anyDirectories : WholeSegments ['*', '*', '/'] [.anyDirectories] :=
  lexemes [.plain '*', .plain '*', .plain '/'] (by simp [Lexeme.Genuine]) (by decide) rfl
    ((settled_singleton (by decide)).append directory.settled)

end WholeSegments

/-- What stands between two parts of a pattern does not change whether it is for a directory. -/
theorem directory_between {front rest text : List Char} {tokens : List Token} (h : WholeSegments text tokens)
    (hrest : rest ≠ []) : (Body.ofPattern (front ++ '/' :: (text ++ rest))).directory =
      decide ((normalize rest).getLast? = some '/') := by
  rw [ofPattern_append_separator front h.settled hrest]

/-- **Whole segments between two parts of a pattern leave the tokens of these parts as they are.** -/
theorem exists_between {front rest text : List Char} {tokens : List Token} {scanned all : Scanned}
    (hfront : scan (Body.ofPattern front).text = .ok scanned) (hrest : rest ≠ []) (h : WholeSegments text tokens)
    (hall : scan (Body.ofPattern (front ++ '/' :: (text ++ rest))).text = .ok all) :
    ∃ left right, all.tokens = left ++ (tokens ++ right) ∧ ∀ text' tokens', WholeSegments text' tokens' →
      ∃ all', scan (Body.ofPattern (front ++ '/' :: (text' ++ rest))).text = .ok all' ∧
        all'.tokens = left ++ (tokens' ++ right) := by
  obtain ⟨s, hrun, hs⟩ := exists_run_frontText hfront
  have hscan : ∀ text' tokens', WholeSegments text' tokens' → ∃ t : ScanState,
      t.tokens.reverse = s.tokens.reverse ++ tokens' ∧
        scan (Body.ofPattern (front ++ '/' :: (text' ++ rest))).text =
          ((scan (dropTrailingSlash (normalize rest))).mapError (Error.behind t.offset)).map (Scanned.behind t) := by
    intro text' tokens' h'
    obtain ⟨t, hrun', ht, htokens⟩ := h'.run s hs
    refine ⟨t, htokens, ?_⟩
    rw [ofPattern_append_separator front h'.settled hrest, ← List.append_assoc]
    exact scan_append (ScanState.run_append_eq_ok_iff.mpr ⟨s, hrun, hrun'⟩) ht _
  obtain ⟨t, htokens, ht⟩ := hscan text tokens h
  rw [ht] at hall
  cases hright : scan (dropTrailingSlash (normalize rest)) with
  | error e => rw [hright] at hall; cases hall
  | ok right =>
    rw [hright] at hall
    obtain rfl : Scanned.behind t right = all := Except.ok.inj hall
    refine ⟨s.tokens.reverse, right.tokens, ?_, fun text' tokens' h' => ?_⟩
    · rw [Scanned.behind, htokens, List.append_assoc]
    · obtain ⟨t', htokens', ht'⟩ := hscan text' tokens' h'
      refine ⟨Scanned.behind t' right, by rw [ht', hright]; rfl, ?_⟩
      rw [Scanned.behind, htokens', List.append_assoc]

end Segments

/-! ## Patterns with segments between two parts -/

section Patterns

variable {front rest : String} {count : Nat}

/-- A pattern with two stars as a segment. -/
theorem toList_anyDirectories (front rest : String) :
    (front ++ "/**/" ++ rest).toList = front.toList ++ '/' :: (['*', '*', '/'] ++ rest.toList) := by
  simp

/-- A pattern with several single stars, each a segment. -/
theorem toList_directories (front rest : String) (count : Nat) :
    (front ++ "/" ++ String.join (List.replicate count "*/") ++ rest).toList =
      front.toList ++ '/' :: ((List.replicate count ['*', '/']).flatten ++ rest.toList) := by
  have hjoin : (String.join (List.replicate count "*/")).toList = (List.replicate count ['*', '/']).flatten := by
    rw [String.toList_join, List.flatMap_def, List.map_replicate]
    rfl
  simp [hjoin]

theorem isCatchAll_of_mem {pattern : List Char} (h : '/' ∈ pattern) : isCatchAll pattern = false := by
  rw [← Bool.not_eq_true, isCatchAll_iff]
  rintro rfl
  simp at h

theorem depth_of_mem_directoryTokens {t : Token} (h : t ∈ directoryTokens count) : (Expr.ofToken t).depth ≤ 2 := by
  obtain ⟨tokens, htokens, ht⟩ := List.mem_flatten.mp h
  rw [List.eq_of_mem_replicate htokens] at ht
  rcases List.mem_pair.mp ht with rfl | rfl
  · exact depth_star.le
  · exact Nat.zero_le 2

/-- Single stars in place of any number of directories make no pattern too deep. -/
theorem wrapDepth_directories {directory : Bool} {left right : List Token}
    (h : ∀ t ∈ left ++ ([.anyDirectories] ++ right),
      wrapDepth directory (left ++ ([Token.anyDirectories] ++ right)).length + (Expr.ofToken t).depth < depthLimit) :
    ∀ t ∈ left ++ (directoryTokens count ++ right),
      wrapDepth directory (left ++ (directoryTokens count ++ right)).length + (Expr.ofToken t).depth < depthLimit := by
  intro t ht
  -- A token of the two parts that is next to the stars has them next to it, too.
  have houter : t ∈ left ∨ t ∈ right → 2 ≤ (left ++ ([Token.anyDirectories] ++ right)).length := by
    rintro (ht | ht)
    all_goals
      have hlength := List.length_pos_of_mem ht
      simp only [List.length_append, List.length_singleton]
      omega
  have hpart : t ∈ left ∨ t ∈ right →
      wrapDepth directory (left ++ (directoryTokens count ++ right)).length + (Expr.ofToken t).depth < depthLimit := by
    intro ht
    have hle := wrapDepth_le_of_two_le (m := (left ++ (directoryTokens count ++ right)).length) directory (houter ht)
    have hlt := h t (by simp only [List.mem_append]; tauto)
    omega
  simp only [List.mem_append] at ht
  rcases ht with ht | ht | ht
  · exact hpart (.inl ht)
  · have hlimit : depthLimit = 250 := rfl
    have hdepth := depth_of_mem_directoryTokens ht
    have hwrap := wrapDepth_le_two directory (left ++ (directoryTokens count ++ right)).length
    omega
  · exact hpart (.inr ht)

end Patterns

end Glob

/-- **A whole segment of two stars is any number of directories** -/
theorem pathMatches_anyDirectories {front rest : String}
    (hfront : ∃ scanned, scan (Body.ofPattern front.toList).text = .ok scanned) (hrest : rest ≠ "")
    (hcompile : ∃ glob, Glob.compile (front ++ "/**/" ++ rest) = .ok glob) (path : String) :
    pathMatches path (front ++ "/**/" ++ rest) = true ↔
      ∃ count, pathMatches path (front ++ "/" ++ String.join (List.replicate count "*/") ++ rest) = true := by
  obtain ⟨scanned, hfront⟩ := hfront
  have hrest' : rest.toList ≠ [] := by simpa using hrest
  have hmany := WholeSegments.anyDirectories
  have hpattern : isCatchAll (front ++ "/**/" ++ rest).toList = false := isCatchAll_of_mem (by simp)
  obtain ⟨all, hall, hmatch⟩ := exists_scan_of_compile hpattern hcompile
  have hdepth := (compile_iff_depth hpattern hall).mp hcompile
  rw [toList_anyDirectories, directory_between hmany hrest'] at hmatch hdepth
  rw [toList_anyDirectories] at hall
  obtain ⟨left, right, htokens, hbetween⟩ := exists_between hfront hrest' hmany hall
  rw [hmatch, htokens, mem_bodyLanguage_anyDirectories]
  refine exists_congr fun count => ?_
  have hcount := WholeSegments.directories count
  obtain ⟨all', hall', htokens'⟩ := hbetween _ _ hcount
  have hpattern' : isCatchAll (front ++ "/" ++ String.join (List.replicate count "*/") ++ rest).toList = false :=
    isCatchAll_of_mem (by simp)
  have hcompile' : ∃ glob,
      Glob.compile (front ++ "/" ++ String.join (List.replicate count "*/") ++ rest) = .ok glob := by
    rw [compile_iff_depth hpattern' (by rwa [toList_directories]), toList_directories, directory_between hcount hrest',
      htokens']
    exact wrapDepth_directories (htokens ▸ hdepth)
  obtain ⟨all'', hall'', hmatch'⟩ := exists_scan_of_compile hpattern' hcompile'
  rw [toList_directories] at hall'' hmatch'
  obtain rfl : all' = all'' := Except.ok.inj (hall'.symm.trans hall'')
  rw [hmatch', directory_between hcount hrest', htokens']

/-- Two directories between a group and a directory of its own. -/
theorem pathMatches_anyDirectories_two : (∃ scanned, scan (Body.ofPattern "\x7ba,b*\x7d".toList).text = .ok scanned) ∧
    "[c-e]?/" ≠ "" ∧ (∃ glob, Glob.compile ("\x7ba,b*\x7d" ++ "/**/" ++ "[c-e]?/") = .ok glob) ∧
    ∃ count, pathMatches "b1/x/y/dz/w"
      ("\x7ba,b*\x7d" ++ "/" ++ String.join (List.replicate count "*/") ++ "[c-e]?/") = true := by
  have hfront : ∃ scanned, scan (Body.ofPattern "\x7ba,b*\x7d".toList).text = .ok scanned := ⟨_, rfl⟩
  have hcompile := (exists_compile_iff ("\x7ba,b*\x7d" ++ "/**/" ++ "[c-e]?/")).mpr (by decide +kernel)
  have hmatch : pathMatches "b1/x/y/dz/w" ("\x7ba,b*\x7d" ++ "/**/" ++ "[c-e]?/") = true := by decide +kernel
  exact ⟨hfront, by decide, hcompile, (pathMatches_anyDirectories hfront (by decide) hcompile "b1/x/y/dz/w").mp hmatch⟩

end PathOwners
