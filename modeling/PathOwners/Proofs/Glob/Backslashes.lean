import Mathlib.Data.List.Chain
import PathOwners.Proofs.Glob.Body
import PathOwners.Specificity

/-!
# Backslashes for separators

A pattern may be written with backslashes for some of its separators. A pattern has the plan and the specificity of its
normal form (`planOf_normalize`, `Specificity.ofChars_normalize`), and in the normal form every backslash is a separator
exactly if none of them stands before a character that can be escaped (`normalize_eq_normalizePath_iff`). So a pattern
keeps its meaning if no backslash that is put for a separator comes to stand before such a character
(`compile_backslashed`). Among these are `^` and `-`: they mean something in a class only, but are escaped everywhere
(`pathMatches_backslashed_differ`).
-/

namespace PathOwners

namespace Glob

/-! ## What a pattern has of its normal form -/

theorem isCatchAll_normalize (pattern : List Char) : isCatchAll (normalize pattern) = isCatchAll pattern := by
  rw [isCatchAll, isCatchAll, normalize_normalize]

theorem planOf_normalize (pattern : List Char) : planOf (normalize pattern) = planOf pattern := by
  rw [planOf, planOf, isCatchAll_normalize, ofPattern_normalize]

end Glob

open Glob

theorem Specificity.ofChars_normalize (pattern : List Char) :
    Specificity.ofChars (normalize pattern) = Specificity.ofChars pattern := by
  rw [Specificity.ofChars, Specificity.ofChars, isCatchAll_normalize, ofPattern_normalize]

section SameNormalForm

variable {a b : String}

/-- Patterns of one normal form have one plan, or fail for one reason. -/
theorem planOf_of_normalize_eq (h : normalize a.toList = normalize b.toList) : planOf a.toList = planOf b.toList := by
  rw [← planOf_normalize, h, planOf_normalize]

theorem compile_eq_error_iff {pattern : String} {error : Error} :
    Glob.compile pattern = .error error ↔ planOf pattern.toList = .error error := by
  rw [Glob.compile]
  cases planOf pattern.toList <;> simp [Except.map]

theorem pathMatches_of_normalize_eq (h : normalize a.toList = normalize b.toList) (path : String) :
    pathMatches path a = pathMatches path b := by
  rw [Bool.eq_iff_iff, pathMatches_iff_planOf, pathMatches_iff_planOf, planOf_of_normalize_eq h]

theorem Specificity.ofPattern_of_normalize_eq (h : normalize a.toList = normalize b.toList) :
    Specificity.ofPattern a = Specificity.ofPattern b := by
  rw [ofPattern, ofPattern, ← ofChars_normalize, h, ofChars_normalize]

end SameNormalForm

namespace Glob

/-! ## Backslashes that escape nothing -/

/-- No backslash of a text stands directly before a character of the given kind. -/
def NoBackslashBefore (kind : Char → Bool) (text : List Char) : Prop :=
  text.IsChain fun b c => b = '\\' → kind c = false

instance (kind : Char → Bool) (text : List Char) : Decidable (NoBackslashBefore kind text) :=
  inferInstanceAs (Decidable (List.IsChain _ _))

/-- **A normal form makes every backslash a separator exactly if no backslash escapes a character.** The first one that
does stays a backslash. -/
theorem normalize_eq_normalizePath_iff (text : List Char) :
    normalize text = normalizePath text ↔ NoBackslashBefore isEscapable text := by
  fun_induction normalize text with
  | case1 => exact iff_of_true rfl .nil
  | case2 c cs hc ih =>
    refine iff_of_false (fun h => ?_) fun h => ?_
    · exact absurd (List.cons.inj h).1 (by decide)
    · have hc' : isEscapable c = false := (List.isChain_cons_cons.mp h).1 rfl
      exact Bool.false_ne_true (hc'.symm.trans hc)
  | case3 c cs hc ih =>
    have hpath : normalizePath ('\\' :: c :: cs) = '/' :: normalizePath (c :: cs) := rfl
    rw [hpath, List.cons.injEq, and_iff_right rfl, ih, NoBackslashBefore, NoBackslashBefore, List.isChain_cons_cons,
      and_iff_right fun _ => Bool.not_eq_true _ ▸ hc]
  | case4 c cs hcs ih =>
    -- a backslash that comes last stands before nothing
    have hfirst : ∀ d ∈ cs.head?, c = '\\' → isEscapable d = false := by
      intro d hd hc
      obtain ⟨ds, rfl⟩ := List.head?_eq_some_iff.mp hd
      exact absurd rfl (hcs d ds hc)
    have hpath : normalizePath (c :: cs) = (if c = '\\' then '/' else c) :: normalizePath cs := rfl
    rw [hpath, List.cons.injEq, and_iff_right rfl, ih, NoBackslashBefore, NoBackslashBefore, List.isChain_cons,
      and_iff_right hfirst]

theorem noBackslashBefore_of_not_mem {text : List Char} (h : '\\' ∉ text) (kind : Char → Bool) :
    NoBackslashBefore kind text := by
  refine List.Pairwise.isChain (List.pairwise_of_forall_mem_list fun b hb c _ hbackslash => ?_)
  exact absurd (hbackslash ▸ hb) h

/-! ## Backslashes put for separators -/

/-- A text with a backslash for each separator at a chosen place. -/
def backslashed (chosen : ℕ → Bool) (text : List Char) : List Char :=
  text.mapIdx fun i c => if c = '/' ∧ chosen i = true then '\\' else c

/-- Made separators again, the backslashes leave the text as it was. -/
theorem normalizePath_backslashed {text : List Char} (h : '\\' ∉ text) (chosen : ℕ → Bool) :
    normalizePath (backslashed chosen text) = text := by
  induction text generalizing chosen with
  | nil => rfl
  | cons c text ih =>
    obtain ⟨hc, htext⟩ := not_or.mp (List.mem_cons.not.mp h)
    rw [backslashed, List.mapIdx_cons, normalizePath, List.map_cons]
    refine congrArg₂ List.cons ?_ (ih htext fun i => chosen (i + 1))
    by_cases hchosen : c = '/' ∧ chosen 0 = true
    · rw [if_pos hchosen, if_pos rfl, hchosen.1]
    · rw [if_neg hchosen, if_neg (Ne.symm hc)]

/-- The normal form is that of the pattern exactly if no new backslash escapes a character. -/
theorem normalize_backslashed_iff {pattern : List Char} (h : '\\' ∉ pattern) (chosen : ℕ → Bool) :
    normalize (backslashed chosen pattern) = normalize pattern ↔
      NoBackslashBefore isEscapable (backslashed chosen pattern) := by
  have hnormal : normalize pattern = pattern := by
    rw [(normalize_eq_normalizePath_iff pattern).mpr (noBackslashBefore_of_not_mem h _), normalizePath_of_not_mem h]
  rw [hnormal, ← normalize_eq_normalizePath_iff, normalizePath_backslashed h]

/-- **A pattern may be written with backslashes for its separators.** Put for any separators of a pattern without
backslashes, they change neither what it matches nor its specificity, nor whether and why it fails to compile, as long
as none of them comes to stand before a character that can be escaped. -/
theorem compile_backslashed {pattern : String} (hpattern : '\\' ∉ pattern.toList) (chosen : ℕ → Bool)
    (hbefore : NoBackslashBefore isEscapable (backslashed chosen pattern.toList)) :
    (∀ error, Glob.compile (String.ofList (backslashed chosen pattern.toList)) = .error error ↔
      Glob.compile pattern = .error error) ∧
    (∀ path, pathMatches path (String.ofList (backslashed chosen pattern.toList)) = pathMatches path pattern) ∧
    Specificity.ofPattern (String.ofList (backslashed chosen pattern.toList)) = Specificity.ofPattern pattern := by
  have hnormal : normalize (String.ofList (backslashed chosen pattern.toList)).toList = normalize pattern.toList := by
    rw [String.toList_ofList, normalize_backslashed_iff hpattern chosen]
    exact hbefore
  refine ⟨fun error => ?_, pathMatches_of_normalize_eq hnormal, Specificity.ofPattern_of_normalize_eq hnormal⟩
  rw [compile_eq_error_iff, compile_eq_error_iff, planOf_of_normalize_eq hnormal]

/-- Separators in front and at the end, one of two next to each other, in a class and in a group, written as
backslashes; those before `[` and `\x7b` stay. -/
theorem compile_backslashed_everywhere :
    '\\' ∉ "/a//[b/c]/\x7bd/e,**/f\x7d/".toList ∧
    NoBackslashBefore isEscapable "\\a\\/[b\\c]/\x7bd\\e,**\\f\x7d\\".toList ∧
    (∀ error, Glob.compile "\\a\\/[b\\c]/\x7bd\\e,**\\f\x7d\\" = .error error ↔
      Glob.compile "/a//[b/c]/\x7bd/e,**/f\x7d/" = .error error) ∧
    (∀ path, pathMatches path "\\a\\/[b\\c]/\x7bd\\e,**\\f\x7d\\" =
      pathMatches path "/a//[b/c]/\x7bd/e,**/f\x7d/") ∧
    Specificity.ofPattern "\\a\\/[b\\c]/\x7bd\\e,**\\f\x7d\\" =
      Specificity.ofPattern "/a//[b/c]/\x7bd/e,**/f\x7d/" := by
  have hpattern : '\\' ∉ "/a//[b/c]/\x7bd/e,**/f\x7d/".toList := by decide
  have htext : backslashed (· ∉ [3, 9]) "/a//[b/c]/\x7bd/e,**/f\x7d/".toList =
      "\\a\\/[b\\c]/\x7bd\\e,**\\f\x7d\\".toList := by decide
  have hbefore : NoBackslashBefore isEscapable "\\a\\/[b\\c]/\x7bd\\e,**\\f\x7d\\".toList := by decide
  have h := compile_backslashed hpattern (· ∉ [3, 9]) (by rw [htext]; exact hbefore)
  rw [htext, String.ofList_toList] at h
  exact ⟨hpattern, hbefore, h⟩

/-- The characters that can be escaped, without `^` and `-`. -/
def isUsualEscape (c : Char) : Bool :=
  ['*', '?', '[', ']', '\x7b', '\x7d', ',', '!', ' ', '\t', '#', '"', '\\'].contains c

/-- Before a `-` and before a `^` a backslash is no separator, although neither is among the usual escapes. -/
theorem pathMatches_backslashed_differ :
    '\\' ∉ "a/-b".toList ∧ backslashed (· = 1) "a/-b".toList = "a\\-b".toList ∧
    NoBackslashBefore isUsualEscape "a\\-b".toList ∧
    pathMatches "a/-b" "a/-b" = true ∧ pathMatches "a/-b" "a\\-b" = false ∧
    '\\' ∉ "a/^b".toList ∧ backslashed (· = 1) "a/^b".toList = "a\\^b".toList ∧
    NoBackslashBefore isUsualEscape "a\\^b".toList ∧
    pathMatches "a/^b" "a/^b" = true ∧ pathMatches "a/^b" "a\\^b" = false := by
  decide +kernel

end Glob

end PathOwners
