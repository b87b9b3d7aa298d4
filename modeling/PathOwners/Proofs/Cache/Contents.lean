import Mathlib.Data.Finset.Card
import PathOwners.Cache

/-!
# What a cache holds

A cache holds the patterns it has been asked for, those that cannot be compiled among them, each with what compiling it
gives (`Cache.Holds`). Asking it for a pattern gives this very result and leaves a cache that holds the pattern as well.
So every answer is what it would be without a cache, and the size of a cache is the number of these patterns.
-/

namespace PathOwners.Cache

/-- The cache has these patterns, each with what compiling it gives, and no other pattern. -/
def Holds (cache : Cache) (patterns : Finset String) : Prop :=
  ∀ pattern, cache.compiled[pattern]? = if pattern ∈ patterns then some (Glob.compile pattern) else none

variable {cache : Cache} {patterns : Finset String}

theorem holds_empty : empty.Holds ∅ := fun pattern => by
  simp [empty]

/-- A cache gives what compiling a pattern gives, and has the pattern after that. -/
theorem Holds.lookup (h : cache.Holds patterns) (pattern : String) :
    ∃ cache', cache.lookup pattern = (Glob.compile pattern, cache') ∧ cache'.Holds (insert pattern patterns) := by
  have hget := h pattern
  by_cases hmem : pattern ∈ patterns
  · rw [if_pos hmem] at hget
    refine ⟨cache, ?_, ?_⟩
    · simp only [Cache.lookup, hget]
    · rwa [Finset.insert_eq_of_mem hmem]
  · rw [if_neg hmem] at hget
    refine ⟨⟨cache.compiled.insert pattern (Glob.compile pattern)⟩, ?_, ?_⟩
    · simp only [Cache.lookup, hget]
    · intro other
      rw [Std.HashMap.getElem?_insert]
      by_cases heq : pattern = other
      · simp [heq]
      · simp [heq, Ne.symm heq, h other]

/-- A path matches a pattern by a cache exactly if it does without one. -/
theorem Holds.pathMatches (h : cache.Holds patterns) (path pattern : String) :
    ∃ cache', cache.pathMatches path pattern = (PathOwners.pathMatches path pattern, cache') ∧
      cache'.Holds (insert pattern patterns) := by
  obtain ⟨cache', hlookup, hholds⟩ := h.lookup pattern
  refine ⟨cache', ?_, hholds⟩
  simp only [Cache.pathMatches, hlookup, PathOwners.pathMatches]

theorem Holds.entriesOf (h : cache.Holds patterns) (rules : List Rule) :
    ∃ cache', cache.entriesOf rules = ((RuleSet.ofRules rules).entries, cache') ∧
      cache'.Holds (patterns ∪ (rules.map Rule.pattern).toFinset) := by
  induction rules generalizing cache patterns with
  | nil => exact ⟨cache, rfl, by simpa using h⟩
  | cons rule rules ih =>
    obtain ⟨first, hlookup, hfirst⟩ := h.lookup rule.pattern
    obtain ⟨cache', hentries, hholds⟩ := ih hfirst
    refine ⟨cache', ?_, ?_⟩
    · simp only [Cache.entriesOf, hlookup, hentries, RuleSet.ofRules, List.map_cons]
    · rwa [List.map_cons, List.toFinset_cons, Finset.union_insert, ← Finset.insert_union]

/-- The rule set that is made with a cache is the one made without, and the cache has all its patterns then. -/
theorem Holds.ruleSetOf (h : cache.Holds patterns) (rules : List Rule) :
    ∃ cache', cache.ruleSetOf rules = (.ofRules rules, cache') ∧
      cache'.Holds (patterns ∪ (rules.map Rule.pattern).toFinset) := by
  obtain ⟨cache', hentries, hholds⟩ := h.entriesOf rules
  refine ⟨cache', ?_, hholds⟩
  simp only [Cache.ruleSetOf, hentries]

/-- **The size of a cache is the number of its patterns.** -/
theorem Holds.size (h : cache.Holds patterns) : cache.size = patterns.card := by
  have hkeys : cache.compiled.keys.toFinset = patterns := by
    ext pattern
    rw [List.mem_toFinset, Std.HashMap.mem_keys, Std.HashMap.mem_iff_isSome_getElem?, h pattern]
    split <;> simp_all
  have hnodup : cache.compiled.keys.Nodup := Std.HashMap.nodup_keys
  calc cache.size
      = cache.compiled.keys.length := Std.HashMap.length_keys.symm
    _ = cache.compiled.keys.toFinset.card := (List.toFinset_card_of_nodup hnodup).symm
    _ = patterns.card := by rw [hkeys]

theorem Holds.isEmpty (h : cache.Holds patterns) : cache.isEmpty = true ↔ patterns = ∅ := by
  rw [Cache.isEmpty, h.size, beq_iff_eq, Finset.card_eq_zero]

end PathOwners.Cache
