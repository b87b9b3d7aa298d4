import Mathlib.Tactic.SplitIfs
import PathOwners.Glob.Scan

/-!
# Classes by themselves

What a scan does with a character of a class depends on the class alone: it goes on or it ends (`OpenClass.next`,
`OpenClass.classStep_eq_ok_iff`), wherever it began (`OpenClass.next_startAt`). A backslash escapes the next character
of a class (`OpenClass.pending_of_next`), and an unescaped bracket closes it (`OpenClass.eq_bracket_of_next`).
-/

namespace PathOwners.Glob

/-! ## Moves -/

/-- What a character does to an open class: the class goes on, or it ends. -/
inductive ClassMove where
  | stay (k : OpenClass)
  | close (negated : Bool) (items : List ClassItem)

/-- The same move of a class that began at another place. -/
def ClassMove.startAt (start : Nat) : ClassMove → ClassMove
  | .stay k => .stay { k with start := start }
  | .close negated items => .close negated items

/-- What a move of its class does to a scan. -/
def ClassMove.apply (s : ScanState) : ClassMove → ScanState
  | .stay k => s.stayInClass k
  | .close negated items => s.push (.charClass negated items)

namespace OpenClass

/-- The move at a character where a member may begin. -/
def memberMove (k : OpenClass) (c : Char) : ClassMove :=
  if c = ']' ∧ k.items ≠ [] then .close k.negated k.items.reverse
  else .stay { k with phase := if c = '\\' then .escaped else .after c }

/-- The move at the end of a range, unless the range is invalid. -/
def rangeMove (k : OpenClass) (first last : Char) : Option ClassMove :=
  if last < first then none else some (.stay { k with items := .range first last :: k.items, phase := .member })

/-- The move of an open class at a character, unless that makes an invalid range. -/
def next (k : OpenClass) (c : Char) : Option ClassMove :=
  match k.phase with
  | .opening => some (if c = '!' ∨ c = '^' then .stay { k with negated := true, phase := .member } else k.memberMove c)
  | .member => some (k.memberMove c)
  | .escaped => some (.stay { k with phase := .after c })
  | .after m =>
    some (if c = '-' then .stay { k with phase := .dash m } else { k with items := .single m :: k.items }.memberMove c)
  | .dash m =>
    if c = ']' then some ({ k with items := .single '-' :: .single m :: k.items }.memberMove c)
    else if c = '\\' then some (.stay { k with phase := .escapedEnd m })
    else k.rangeMove m c
  | .escapedEnd m => k.rangeMove m c

/-- An open class after a backslash: the next character is taken as it is. -/
def pending (k : OpenClass) : Bool :=
  match k.phase with
  | .escaped | .escapedEnd _ => true
  | _ => false

variable {k k' : OpenClass} {c : Char} {s t : ScanState}

theorem memberStep_eq (s : ScanState) (k : OpenClass) (c : Char) :
    s.memberStep k c = (k.memberMove c).apply s := by
  unfold ScanState.memberStep memberMove
  split_ifs <;> rfl

theorem rangeStep_eq_ok_iff {first last : Char} :
    s.rangeStep k first last = .ok t ↔ ∃ move, k.rangeMove first last = some move ∧ t = move.apply s := by
  unfold ScanState.rangeStep rangeMove
  split_ifs <;> simp [ClassMove.apply, eq_comm]

/-- The scan takes a class from move to move, and the moves depend on the class alone. -/
theorem classStep_eq_ok_iff : s.classStep k c = .ok t ↔ ∃ move, k.next c = some move ∧ t = move.apply s := by
  obtain ⟨start, negated, items, phase⟩ := k
  cases phase <;> simp only [ScanState.classStep, next]
  case opening => split_ifs <;> simp [memberStep_eq, ClassMove.apply, eq_comm]
  case member => simp [memberStep_eq, eq_comm]
  case escaped => simp [ClassMove.apply, eq_comm]
  case after m => split_ifs <;> simp [memberStep_eq, ClassMove.apply, eq_comm]
  case dash m =>
    split_ifs
    · simp [memberStep_eq, eq_comm]
    · simp [ClassMove.apply, eq_comm]
    · exact rangeStep_eq_ok_iff
  case escapedEnd m => exact rangeStep_eq_ok_iff

theorem memberMove_eq_stay (h : k.memberMove c = .stay k') : k'.pending = true ↔ c = '\\' := by
  unfold memberMove at h
  split_ifs at h <;> simp only [ClassMove.stay.injEq] at h <;> subst h <;> simp [pending, *]

theorem rangeMove_eq_stay {first last : Char} (h : k.rangeMove first last = some (.stay k')) : k'.pending = false := by
  unfold rangeMove at h
  split_ifs at h
  simp only [Option.some_inj, ClassMove.stay.injEq] at h
  subst h
  rfl

/-- An unescaped backslash in a class escapes the next character, and nothing else does. -/
theorem pending_of_next (h : k.next c = some (.stay k')) : k'.pending = true ↔ k.pending = false ∧ c = '\\' := by
  obtain ⟨start, negated, items, phase⟩ := k
  cases phase <;> simp only [next] at h
  case opening =>
    split_ifs at h with hc
    · simp only [Option.some_inj, ClassMove.stay.injEq] at h
      subst h
      rcases hc with rfl | rfl <;> simp [pending]
    · rw [memberMove_eq_stay (Option.some.inj h)]
      simp [pending]
  case member =>
    rw [memberMove_eq_stay (Option.some.inj h)]
    simp [pending]
  case escaped =>
    simp only [Option.some_inj, ClassMove.stay.injEq] at h
    subst h
    simp [pending]
  case after m =>
    split_ifs at h with hc
    · simp only [Option.some_inj, ClassMove.stay.injEq] at h
      subst h
      simp [pending, hc]
    · rw [memberMove_eq_stay (Option.some.inj h)]
      simp [pending]
  case dash m =>
    split_ifs at h with hbracket hbackslash
    · rw [memberMove_eq_stay (Option.some.inj h)]
      simp [pending]
    · simp only [Option.some_inj, ClassMove.stay.injEq] at h
      subst h
      simp [pending, hbackslash]
    · simp [rangeMove_eq_stay h, hbackslash]
  case escapedEnd m =>
    rw [rangeMove_eq_stay h]
    simp [pending]

theorem memberMove_eq_close {negated : Bool} {items : List ClassItem} (h : k.memberMove c = .close negated items) :
    c = ']' := by
  unfold memberMove at h
  split_ifs at h with hc
  exact hc.1

theorem rangeMove_ne_close {first last : Char} {negated : Bool} {items : List ClassItem} :
    k.rangeMove first last ≠ some (.close negated items) := by
  unfold rangeMove
  split_ifs <;> simp

/-- Only an unescaped bracket closes a class. -/
theorem eq_bracket_of_next {negated : Bool} {items : List ClassItem} (h : k.next c = some (.close negated items)) :
    k.pending = false ∧ c = ']' := by
  obtain ⟨start, _, _, phase⟩ := k
  cases phase <;> simp only [next] at h
  case opening =>
    split_ifs at h
    · simp at h
    · exact ⟨rfl, memberMove_eq_close (Option.some.inj h)⟩
  case member => exact ⟨rfl, memberMove_eq_close (Option.some.inj h)⟩
  case escaped => simp at h
  case after m =>
    split_ifs at h
    · simp at h
    · exact ⟨rfl, memberMove_eq_close (Option.some.inj h)⟩
  case dash m =>
    split_ifs at h with hbracket
    · exact ⟨rfl, hbracket⟩
    · simp at h
    · exact absurd h rangeMove_ne_close
  case escapedEnd m => exact absurd h rangeMove_ne_close

/-- The same class, begun at another place. -/
def startAt (start : Nat) (k : OpenClass) : OpenClass := { k with start := start }

theorem memberMove_startAt (start : Nat) (k : OpenClass) (c : Char) :
    (k.startAt start).memberMove c = (k.memberMove c).startAt start := by
  unfold memberMove startAt
  split_ifs <;> rfl

theorem rangeMove_startAt (start : Nat) (k : OpenClass) (first last : Char) :
    (k.startAt start).rangeMove first last = (k.rangeMove first last).map (ClassMove.startAt start) := by
  unfold rangeMove startAt
  split_ifs <;> rfl

/-- The moves of a class do not depend on where it began. -/
theorem next_startAt (start : Nat) (k : OpenClass) (c : Char) :
    (k.startAt start).next c = (k.next c).map (ClassMove.startAt start) := by
  obtain ⟨begun, negated, items, phase⟩ := k
  cases phase <;> simp only [next, startAt, Option.map_some, Option.some_inj]
  case opening =>
    split_ifs
    · rfl
    · exact memberMove_startAt start ⟨begun, negated, items, .opening⟩ c
  case member => exact memberMove_startAt start ⟨begun, negated, items, .member⟩ c
  case escaped => rfl
  case after m =>
    split_ifs
    · rfl
    · exact memberMove_startAt start ⟨begun, negated, .single m :: items, .after m⟩ c
  case dash m =>
    split_ifs
    · exact congrArg some (memberMove_startAt start ⟨begun, negated, .single '-' :: .single m :: items, .dash m⟩ c)
    · rfl
    · exact rangeMove_startAt start ⟨begun, negated, items, .dash m⟩ m c
  case escapedEnd m => exact rangeMove_startAt start ⟨begun, negated, items, .escapedEnd m⟩ m c

end OpenClass

end PathOwners.Glob
