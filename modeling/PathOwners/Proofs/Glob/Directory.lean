import PathOwners.Proofs.Glob.Body

/-!
# Directory patterns

A pattern for a directory matches what is the directory or below it. The two patterns that a name is, with a separator
behind it and without, have the same body, so a path matches the directory exactly if some front part of it, up to its
end or to a separator, matches the name (`pathMatches_directory`).
-/

namespace PathOwners

open Glob

namespace Glob

/-- A text of a directory is a text of its name, and nothing or a separator behind it. -/
theorem mem_orBelow_iff {L : Language Char} {w : List Char} : w ∈ orBelow L ↔
    ∃ front rest, w = front ++ rest ∧ (rest = [] ∨ rest.head? = some '/') ∧ front ∈ L := by
  constructor
  · rintro (hw | ⟨u, hu, v, rfl⟩)
    · exact ⟨w, [], (List.append_nil w).symm, .inl rfl, hw⟩
    · exact ⟨u, '/' :: v, rfl, .inr rfl, hu⟩
  · rintro ⟨front, rest, rfl, rfl | hrest, hfront⟩
    · rw [List.append_nil]
      exact .inl hfront
    · obtain ⟨v, rfl⟩ := List.head?_eq_some_iff.mp hrest
      exact .inr ⟨front, hfront, v, rfl⟩

/-- The pattern for a directory has the body of the pattern for its name. -/
theorem ofPattern_directory {name : String} (hne : normalize name.toList ≠ [])
    (hlast : (normalize name.toList).getLast? ≠ some '/') :
    Body.ofPattern ("/" ++ name).toList = ⟨normalize name.toList, false⟩ ∧
      Body.ofPattern ("/" ++ name ++ "/").toList = ⟨normalize name.toList, true⟩ := by
  have hfile : ("/" ++ name).toList = [] ++ '/' :: name.toList := by simp
  have hdirectory : ("/" ++ name ++ "/").toList = [] ++ '/' :: (name.toList ++ '/' :: []) := by simp
  have hnormal := normalize_normalize name.toList
  have hnormal' : normalize (normalize name.toList ++ ['/']) = normalize name.toList ++ ['/'] := by
    rw [normalize_append_separator, hnormal]
    rfl
  constructor
  · rw [hfile, ← ofPattern_normalize, normalize_append_separator]
    exact ofPattern_rooted hnormal hne hlast
  · rw [hdirectory, ← ofPattern_normalize, normalize_append_separator, normalize_append_separator]
    exact ofPattern_rooted_directory hnormal'

end Glob

/-- **A directory pattern matches what its name matches a front part of** -/
theorem pathMatches_directory {name : String} (hne : normalize name.toList ≠ [])
    (hlast : (normalize name.toList).getLast? ≠ some '/') (hfile : ∃ glob, Glob.compile ("/" ++ name) = .ok glob)
    (hdirectory : ∃ glob, Glob.compile ("/" ++ name ++ "/") = .ok glob) (path : String) :
    pathMatches path ("/" ++ name ++ "/") = true ↔
      ∃ front rest, normalizePath path.toList = front ++ rest ∧ (rest = [] ∨ rest.head? = some '/') ∧
        pathMatches (String.ofList front) ("/" ++ name) = true := by
  obtain ⟨hbody, hbody'⟩ := ofPattern_directory hne hlast
  have hrooted : ∀ text : String, isCatchAll ("/" ++ text).toList = false := by
    intro text
    simpa using isCatchAll_rooted text.toList
  obtain ⟨scanned, hscan, hmatch⟩ := exists_scan_of_compile (hrooted name) hfile
  obtain ⟨scanned', hscan', hmatch'⟩ :=
    exists_scan_of_compile (String.append_assoc ▸ hrooted (name ++ "/")) hdirectory
  rw [hbody] at hscan hmatch
  rw [hbody'] at hscan' hmatch'
  obtain rfl : scanned = scanned' := Except.ok.inj (hscan.symm.trans hscan')
  have hlanguage : bodyLanguage true scanned.tokens = orBelow (bodyLanguage false scanned.tokens) := rfl
  rw [hmatch', hlanguage, mem_orBelow_iff]
  refine exists_congr fun front => exists_congr fun rest => and_congr_right fun hpath => and_congr_right fun _ => ?_
  have hsubset : front ⊆ normalizePath path.toList := by
    rw [hpath]
    exact List.subset_append_left front rest
  have hfront : normalizePath front = front := normalizePath_of_subset hsubset
  rw [hmatch, String.toList_ofList, hfront]

/-- A group that holds a separator: the directory is the second name of the path. -/
theorem pathMatches_directory_group : normalize "\x7ba,b/*\x7d".toList ≠ [] ∧
    (normalize "\x7ba,b/*\x7d".toList).getLast? ≠ some '/' ∧
    (∃ glob, Glob.compile ("/" ++ "\x7ba,b/*\x7d") = .ok glob) ∧
    (∃ glob, Glob.compile ("/" ++ "\x7ba,b/*\x7d" ++ "/") = .ok glob) ∧
    ∃ front rest, normalizePath "b\\c/d".toList = front ++ rest ∧ (rest = [] ∨ rest.head? = some '/') ∧
      pathMatches (String.ofList front) ("/" ++ "\x7ba,b/*\x7d") = true := by
  have hne : normalize "\x7ba,b/*\x7d".toList ≠ [] := by decide +kernel
  have hlast : (normalize "\x7ba,b/*\x7d".toList).getLast? ≠ some '/' := by decide +kernel
  have hfile := (exists_compile_iff ("/" ++ "\x7ba,b/*\x7d")).mpr (by decide +kernel)
  have hdirectory := (exists_compile_iff ("/" ++ "\x7ba,b/*\x7d" ++ "/")).mpr (by decide +kernel)
  have hmatch : pathMatches "b\\c/d" ("/" ++ "\x7ba,b/*\x7d" ++ "/") = true := by decide +kernel
  exact ⟨hne, hlast, hfile, hdirectory, (pathMatches_directory hne hlast hfile hdirectory "b\\c/d").mp hmatch⟩

end PathOwners
