import Mathlib.Data.Prod.Lex
import PathOwners.Specificity

/-!
# The ladder as a standing and two last criteria

All criteria of the ladder before the wildcards compare a value of each pattern, its `standing`, so they are one
comparison in a linear order. Between patterns of equal standing the wildcards decide, and then the depth:

- `rank_gt_iff` and `rank_eq_iff`: when a pattern ranks above another, and when two tie;
- `SameRung`, for statements about the ladder: the criteria before the wildcards leave two patterns undecided
  (`sameRung_iff`).

The comparison of the wildcards is no comparison of values: a `?` goes above a `*`, but a pattern with neither is level
with both.
-/

namespace PathOwners.Specificity

/-! ## Standings -/

/-- What the ladder asks before the wildcards: the kind of the pattern (`*`, a plain path above all others), then
whether it is for files, without `**`, and with a literal extension, then its alternatives, fewer first, and its literal
characters. -/
abbrev Standing := Nat ×ₗ Bool ×ₗ Bool ×ₗ Bool ×ₗ Natᵒᵈ ×ₗ Nat

/-- The standing of a pattern. Of `*` and of a plain path nothing but the kind is asked. -/
def standing (s : Specificity) : Standing :=
  if s.catchAll then toLex (0, toLex (false, toLex (false, toLex (false, toLex (.toDual 0, 0)))))
  else if s.exact then toLex (2, toLex (false, toLex (false, toLex (false, toLex (.toDual 0, 0)))))
  else
    toLex (1, toLex (!s.directory, toLex (!s.recursive, toLex (s.literalExtension,
      toLex (.toDual s.alternatives, s.literals)))))

/-- The wildcards that the ladder tells apart: a `?`, only `*`, or neither of them. -/
inductive Wildcards where
  | question
  | star
  | neither
  deriving DecidableEq, Repr

/-- A `?` goes above a `*`. -/
def Wildcards.compare : Wildcards → Wildcards → Ordering
  | .question, .star => .gt
  | .star, .question => .lt
  | _, _ => .eq

theorem Wildcards.compare_eq_gt {x y : Wildcards} : x.compare y = .gt ↔ x = .question ∧ y = .star := by
  cases x <;> cases y <;> decide

theorem Wildcards.compare_eq_eq {x y : Wildcards} :
    x.compare y = .eq ↔ ¬(x = .question ∧ y = .star) ∧ ¬(x = .star ∧ y = .question) := by
  cases x <;> cases y <;> decide

/-- Which wildcards a pattern has. -/
def wildcards (s : Specificity) : Wildcards :=
  if 0 < s.questionMarks then .question else if 0 < s.stars then .star else .neither

/-- Neither `*` nor a plain path. -/
def IsWild (s : Specificity) : Prop := s.catchAll = false ∧ s.exact = false

instance (s : Specificity) : Decidable s.IsWild := inferInstanceAs (Decidable (_ ∧ _))

/-- The wildcards as far as the ladder asks for them: not of `*`, and not of a plain path. -/
def askedWildcards (s : Specificity) : Wildcards := if s.IsWild then s.wildcards else .neither

/-- The depth as far as the ladder asks for it: not of `*`. -/
def askedDepth (s : Specificity) : Nat := if s.catchAll then 0 else s.depth

theorem askedWildcards_of_wild {s : Specificity} (h : s.IsWild) : s.askedWildcards = s.wildcards := if_pos h

theorem askedWildcards_of_not_wild {s : Specificity} (h : ¬s.IsWild) : s.askedWildcards = .neither := if_neg h

theorem askedDepth_of_wild {s : Specificity} (h : s.IsWild) : s.askedDepth = s.depth := by simp [askedDepth, h.1]

/-- The standing tells which patterns are wild. -/
theorem isWild_iff (s : Specificity) : s.IsWild ↔ (ofLex s.standing).1 = 1 := by
  unfold IsWild standing
  cases s.catchAll <;> cases s.exact <;> simp

theorem isWild_of_standing_eq {a b : Specificity} (h : a.standing = b.standing) (ha : a.IsWild) : b.IsWild := by
  rw [isWild_iff] at ha ⊢
  rw [← h, ha]

/-! ## The ladder -/

theorem prefersWildcards_iff (a b : Specificity) :
    prefersWildcards a b = true ↔ a.wildcards = .question ∧ b.wildcards = .star := by
  unfold prefersWildcards wildcards
  split <;> split <;> simp_all <;> omega

/-- The order of the wildcards depends on nothing but which ones there are. -/
theorem compareWildcards_eq (a b : Specificity) : compareWildcards a b = a.wildcards.compare b.wildcards := by
  unfold compareWildcards
  simp only [prefersWildcards_iff]
  cases a.wildcards <;> cases b.wildcards <;> rfl

theorem compare_bool_gt {x y : Bool} : compare x y = .gt ↔ y < x := by cases x <;> cases y <;> decide

theorem compare_bool_eq {x y : Bool} : compare x y = .eq ↔ x = y := by cases x <;> cases y <;> decide

theorem not_lt_not {x y : Bool} : (!x) < (!y) ↔ y < x := by cases x <;> cases y <;> decide

/-- Comparing the standings of two patterns neither of which is `*` or a plain path. -/
theorem standing_lt_iff {a b : Specificity} (hac : a.catchAll = false) (hbc : b.catchAll = false)
    (hae : a.exact = false) (hbe : b.exact = false) :
    b.standing < a.standing ↔
      a.directory < b.directory ∨ a.directory = b.directory ∧ (a.recursive < b.recursive ∨
        a.recursive = b.recursive ∧ (b.literalExtension < a.literalExtension ∨
          a.literalExtension = b.literalExtension ∧ (a.alternatives < b.alternatives ∨
            a.alternatives = b.alternatives ∧ b.literals < a.literals))) := by
  simp only [standing, hac, hbc, hae, hbe, Bool.false_eq_true, if_false, Prod.Lex.toLex_lt_toLex, not_lt_not,
    OrderDual.toDual_lt_toDual, Bool.not_inj_iff, OrderDual.toDual_inj, lt_irrefl, false_or, true_and]
  simp only [eq_comm (a := b.directory), eq_comm (a := b.recursive), eq_comm (a := b.literalExtension),
    eq_comm (a := b.alternatives)]

/-- Two patterns neither of which is `*` or a plain path have one standing if they agree on all it asks for. -/
theorem standing_eq_iff {a b : Specificity} (hac : a.catchAll = false) (hbc : b.catchAll = false)
    (hae : a.exact = false) (hbe : b.exact = false) :
    a.standing = b.standing ↔
      a.directory = b.directory ∧ a.recursive = b.recursive ∧ a.literalExtension = b.literalExtension ∧
        a.alternatives = b.alternatives ∧ a.literals = b.literals := by
  simp [standing, hac, hbc, hae, hbe]

/-- **When a pattern ranks above another**: by its standing, or else by the wildcards, or else by its depth. -/
theorem rank_gt_iff (a b : Specificity) :
    rank a b = .gt ↔ b.standing < a.standing ∨ a.standing = b.standing ∧
      (a.askedWildcards.compare b.askedWildcards = .gt ∨
        a.askedWildcards.compare b.askedWildcards = .eq ∧ b.askedDepth < a.askedDepth) := by
  cases hac : a.catchAll <;> cases hbc : b.catchAll <;> cases hae : a.exact <;> cases hbe : b.exact
  case false.false.false.false =>
    rw [standing_lt_iff hac hbc hae hbe, standing_eq_iff hac hbc hae hbe]
    simp only [rank, hac, hbc, hae, hbe, askedWildcards, IsWild, askedDepth, compareWild, compareWildcards_eq,
      Ordering.then_eq_gt, Ordering.then_eq_eq, compare_bool_gt, compare_bool_eq, Nat.compare_eq_gt, Nat.compare_eq_eq]
    simp only [and_self, if_true, Bool.false_eq_true, if_false]
    grind
  all_goals simp [rank, standing, askedWildcards, IsWild, askedDepth, hac, hbc, hae, hbe, Prod.Lex.toLex_lt_toLex,
    Wildcards.compare, Nat.compare_eq_gt]

/-- **When two patterns tie.** -/
theorem rank_eq_iff (a b : Specificity) :
    rank a b = .eq ↔ a.standing = b.standing ∧ a.askedWildcards.compare b.askedWildcards = .eq ∧
      a.askedDepth = b.askedDepth := by
  cases hac : a.catchAll <;> cases hbc : b.catchAll <;> cases hae : a.exact <;> cases hbe : b.exact
  case false.false.false.false =>
    rw [standing_eq_iff hac hbc hae hbe]
    simp only [rank, hac, hbc, hae, hbe, askedWildcards, IsWild, askedDepth, compareWild, compareWildcards_eq,
      Ordering.then_eq_eq, compare_bool_eq, Nat.compare_eq_eq]
    simp only [and_self, if_true, Bool.false_eq_true, if_false]
    grind
  all_goals simp [rank, standing, askedWildcards, IsWild, askedDepth, hac, hbc, hae, hbe, Wildcards.compare]

/-! ## Patterns that the standing leaves undecided -/

/-- Two patterns, neither of them `*` or a plain path, that the criteria before the wildcards leave undecided. -/
structure SameRung (a b : Specificity) : Prop where
  left : a.IsWild
  right : b.IsWild
  directory : a.directory = b.directory
  recursive : a.recursive = b.recursive
  literalExtension : a.literalExtension = b.literalExtension
  alternatives : a.alternatives = b.alternatives
  literals : a.literals = b.literals

theorem sameRung_iff {a b : Specificity} : SameRung a b ↔ a.IsWild ∧ a.standing = b.standing := by
  constructor
  · rintro ⟨ha, hb, hd, hr, hl, hn, hm⟩
    exact ⟨ha, (standing_eq_iff ha.1 hb.1 ha.2 hb.2).2 ⟨hd, hr, hl, hn, hm⟩⟩
  · rintro ⟨ha, hs⟩
    have hb := isWild_of_standing_eq hs ha
    obtain ⟨hd, hr, hl, hn, hm⟩ := (standing_eq_iff ha.1 hb.1 ha.2 hb.2).1 hs
    exact ⟨ha, hb, hd, hr, hl, hn, hm⟩

/-- Where the standings are equal, the wildcards decide, or else the depths. -/
theorem rank_gt_of_standing_eq {a b : Specificity} (h : a.standing = b.standing) :
    rank a b = .gt ↔ a.askedWildcards.compare b.askedWildcards = .gt ∨
      a.askedWildcards.compare b.askedWildcards = .eq ∧ b.askedDepth < a.askedDepth := by
  rw [rank_gt_iff, h]
  simp

theorem rank_eq_of_standing_eq {a b : Specificity} (h : a.standing = b.standing) :
    rank a b = .eq ↔ a.askedWildcards.compare b.askedWildcards = .eq ∧ a.askedDepth = b.askedDepth := by
  rw [rank_eq_iff, h]
  simp

theorem rank_ne_gt_of_standing_lt {a b : Specificity} (h : a.standing < b.standing) : rank a b ≠ .gt := by
  rw [Ne, rank_gt_iff]
  rintro (h' | ⟨h', -⟩)
  · exact lt_asymm h h'
  · exact h.ne h'

/-- On one rung it is the wildcards themselves that decide, or else the depths themselves. -/
theorem rank_gt_of_sameRung {a b : Specificity} (h : SameRung a b) :
    rank a b = .gt ↔ a.wildcards.compare b.wildcards = .gt ∨
      a.wildcards.compare b.wildcards = .eq ∧ b.depth < a.depth := by
  rw [rank_gt_of_standing_eq (sameRung_iff.1 h).2, askedWildcards_of_wild h.left, askedWildcards_of_wild h.right,
    askedDepth_of_wild h.left, askedDepth_of_wild h.right]

theorem rank_eq_of_sameRung {a b : Specificity} (h : SameRung a b) :
    rank a b = .eq ↔ a.wildcards.compare b.wildcards = .eq ∧ a.depth = b.depth := by
  rw [rank_eq_of_standing_eq (sameRung_iff.1 h).2, askedWildcards_of_wild h.left, askedWildcards_of_wild h.right,
    askedDepth_of_wild h.left, askedDepth_of_wild h.right]

/-- Plain paths, and `*`, are told apart by the depth alone. -/
theorem rank_gt_of_not_wild {a b : Specificity} (ha : ¬a.IsWild) (h : a.standing = b.standing) :
    rank a b = .gt ↔ b.askedDepth < a.askedDepth := by
  have hb : ¬b.IsWild := fun hb => ha (isWild_of_standing_eq h.symm hb)
  rw [rank_gt_of_standing_eq h, askedWildcards_of_not_wild ha, askedWildcards_of_not_wild hb]
  simp [Wildcards.compare]

theorem rank_eq_of_not_wild {a b : Specificity} (ha : ¬a.IsWild) (h : a.standing = b.standing) :
    rank a b = .eq ↔ a.askedDepth = b.askedDepth := by
  have hb : ¬b.IsWild := fun hb => ha (isWild_of_standing_eq h.symm hb)
  rw [rank_eq_of_standing_eq h, askedWildcards_of_not_wild ha, askedWildcards_of_not_wild hb]
  simp [Wildcards.compare]

/-- A wildcard that is asked for belongs to a wild pattern. -/
theorem isWild_of_askedWildcards {s : Specificity} (h : s.askedWildcards ≠ .neither) : s.IsWild := by
  by_contra hs
  exact h (askedWildcards_of_not_wild hs)

end PathOwners.Specificity
