import Mathlib.Computability.Language
import PathOwners.Glob.Expr

/-!
# Matching by marks

The language of an expression (`Expr.language`), and the reason why marks decide membership in it. An operation on the
marks of a path `Carries` a language if it marks the places that a text of the language reaches from a marked place.
Every expression carries its language (`Expr.carries_advance`), so the path is in the language exactly if the mark
before its first character reaches the place after its last one (`Expr.isMatch_iff`).
-/

namespace PathOwners.Glob

/-! ## Languages of expressions -/

/-- The characters that an atom accepts, as texts. -/
def Atom.language (a : Atom) : Language Char := {w | ∃ c, a.accepts c = true ∧ w = [c]}

/-- The texts of characters that an atom accepts. -/
def Atom.runs (a : Atom) : Language Char := {w | ∀ c ∈ w, a.accepts c = true}

mutual

/-- The texts that an expression stands for. -/
def Expr.language : Expr → Language Char
  | .atom a => a.language
  | .many a => a.runs
  | .optional e => 1 + e.language
  | .group e => e.language
  | .concat es => Expr.languageAll es
  | .alt es => Expr.languageAny es

/-- The texts that a sequence of expressions stands for. -/
def Expr.languageAll : List Expr → Language Char
  | [] => 1
  | e :: es => e.language * Expr.languageAll es

/-- The texts that several expressions stand for. -/
def Expr.languageAny : List Expr → Language Char
  | [] => 0
  | e :: es => e.language + Expr.languageAny es

end

/-! ## Places of a path -/

/-- The part of a path between two places. -/
def between (path : List Char) (i j : Nat) : List Char := (path.take j).drop i

section Between

variable {path : List Char} {i j k : Nat}

theorem between_zero_length (path : List Char) : between path 0 path.length = path := by simp [between]

theorem between_cons_succ (c : Char) (path : List Char) (i j : Nat) :
    between (c :: path) (i + 1) (j + 1) = between path i j := by simp [between]

theorem between_cons_zero (c : Char) (path : List Char) (j : Nat) :
    between (c :: path) 0 (j + 1) = c :: between path 0 j := by simp [between]

theorem between_self (path : List Char) (i : Nat) : between path i i = [] := by simp [between]

theorem length_between (hj : j ≤ path.length) : (between path i j).length = j - i := by
  simp [between, Nat.min_eq_left hj]

theorem between_eq_nil_iff (hij : i ≤ j) (hj : j ≤ path.length) : between path i j = [] ↔ i = j := by
  rw [← List.length_eq_zero_iff, length_between hj]
  omega

theorem between_append (hij : i ≤ j) (hjk : j ≤ k) : between path i j ++ between path j k = between path i k := by
  have htake : path.take j = (path.take k).take j := by rw [List.take_take, Nat.min_eq_left hjk]
  have hdrop : (path.take k).drop j = ((path.take k).drop i).drop (j - i) := by
    rw [List.drop_drop, Nat.add_sub_cancel' hij]
  unfold between
  rw [htake, hdrop, List.drop_take, List.take_append_drop]

theorem between_succ (hj : j < path.length) : between path j (j + 1) = [path[j]] := by
  rw [between, List.drop_take, Nat.add_sub_cancel_left, List.drop_eq_getElem_cons hj, List.take_succ_cons,
    List.take_zero]

/-- A part of a path that is made of two texts is divided at some place. -/
theorem exists_of_between_eq_append {u v : List Char} (hik : i ≤ k) (hk : k ≤ path.length)
    (h : between path i k = u ++ v) : ∃ j, i ≤ j ∧ j ≤ k ∧ between path i j = u ∧ between path j k = v := by
  have hlength : u.length + v.length = k - i := by rw [← List.length_append, ← h, length_between hk]
  have happend : between path i (i + u.length) ++ between path (i + u.length) k = u ++ v := by
    rw [between_append (by omega) (by omega), h]
  obtain ⟨hu, hv⟩ := List.append_inj happend (by rw [length_between (by omega)]; omega)
  exact ⟨i + u.length, by omega, by omega, hu, hv⟩

end Between

/-! ## Marks that carry a language -/

/-- Whether a place is marked. -/
def Marked (marks : List Bool) (i : Nat) : Prop := marks[i]? = some true

/-- An operation on the marks of a path marks the places that a text of the language reaches from a marked place. -/
def Carries (path : List Char) (f : List Bool → List Bool) (L : Language Char) : Prop :=
  ∀ marks, marks.length = path.length + 1 → (f marks).length = path.length + 1 ∧
    ∀ j, Marked (f marks) j ↔ j ≤ path.length ∧ ∃ i ≤ j, Marked marks i ∧ between path i j ∈ L

section Marked

variable {path : List Char} {marks : List Bool} {i j : Nat}

theorem marked_cons_zero (mark : Bool) (marks : List Bool) : Marked (mark :: marks) 0 ↔ mark = true := by
  simp [Marked]

theorem marked_cons_succ (mark : Bool) (marks : List Bool) (i : Nat) :
    Marked (mark :: marks) (i + 1) ↔ Marked marks i := by simp [Marked]

theorem not_marked_map_false (path : List Char) (i : Nat) : ¬ Marked (path.map fun _ => false) i := by
  simp [Marked, List.getElem?_replicate]

theorem lt_of_marked (h : Marked marks i) : i < marks.length := (List.getElem?_eq_some_iff.mp h).1

theorem marked_move_succ (a : Atom) :
    Marked (a.move path marks) (j + 1) ↔ ∃ c, path[j]? = some c ∧ Marked marks j ∧ a.accepts c = true := by
  rw [Atom.move, marked_cons_succ]
  unfold Marked
  rw [List.getElem?_zipWith]
  cases path[j]? <;> cases marks[j]? <;> simp

theorem marked_joinMarks {left right : List Bool} (h : left.length = right.length) :
    Marked (joinMarks left right) j ↔ Marked left j ∨ Marked right j := by
  by_cases hj : j < left.length
  · simp [Marked, joinMarks, hj, h ▸ hj]
  · simp [Marked, joinMarks, hj, h ▸ hj]

end Marked

/-! ## The operations on marks -/

section Carries

variable {path : List Char} {f g : List Bool → List Bool} {L M : Language Char}

theorem carries_one : Carries path id 1 := by
  intro marks hmarks
  refine ⟨hmarks, fun j => ⟨fun h => ?_, ?_⟩⟩
  · have hj : j < marks.length := lt_of_marked h
    exact ⟨by omega, j, le_refl j, h, between_self path j⟩
  · rintro ⟨hj, i, hij, hi, hnil⟩
    exact (between_eq_nil_iff hij hj).mp hnil ▸ hi

theorem carries_zero : Carries path (fun marks => marks.map fun _ => false) 0 := by
  intro marks hmarks
  refine ⟨by simpa using hmarks, fun j => ⟨fun h => ?_, fun h => ?_⟩⟩
  · simp [Marked, List.getElem?_replicate] at h
  · obtain ⟨_, _, _, _, h⟩ := h
    exact absurd h (Language.notMem_zero _)

theorem Carries.join (hf : Carries path f L) (hg : Carries path g M) :
    Carries path (fun marks => joinMarks (f marks) (g marks)) (L + M) := by
  intro marks hmarks
  obtain ⟨hfLength, hfMarked⟩ := hf marks hmarks
  obtain ⟨hgLength, hgMarked⟩ := hg marks hmarks
  refine ⟨by simp [joinMarks, hfLength, hgLength], fun j => ?_⟩
  rw [marked_joinMarks (hfLength.trans hgLength.symm), hfMarked, hgMarked]
  constructor
  · rintro (⟨hj, i, hij, hi, h⟩ | ⟨hj, i, hij, hi, h⟩)
    · exact ⟨hj, i, hij, hi, .inl h⟩
    · exact ⟨hj, i, hij, hi, .inr h⟩
  · rintro ⟨hj, i, hij, hi, h | h⟩
    · exact .inl ⟨hj, i, hij, hi, h⟩
    · exact .inr ⟨hj, i, hij, hi, h⟩

theorem Carries.comp (hf : Carries path f L) (hg : Carries path g M) :
    Carries path (fun marks => g (f marks)) (L * M) := by
  intro marks hmarks
  obtain ⟨hfLength, hfMarked⟩ := hf marks hmarks
  obtain ⟨hgLength, hgMarked⟩ := hg (f marks) hfLength
  refine ⟨hgLength, fun k => ?_⟩
  rw [hgMarked]
  constructor
  · rintro ⟨hk, j, hjk, hj, hM⟩
    obtain ⟨-, i, hij, hi, hL⟩ := (hfMarked j).mp hj
    refine ⟨hk, i, hij.trans hjk, hi, ?_⟩
    rw [← between_append hij hjk]
    exact Language.append_mem_mul hL hM
  · rintro ⟨hk, i, hik, hi, h⟩
    obtain ⟨u, hu, v, hv, huv⟩ := Language.mem_mul.mp h
    obtain ⟨j, hij, hjk, rfl, rfl⟩ := exists_of_between_eq_append hik hk huv.symm
    exact ⟨hk, j, hjk, (hfMarked j).mpr ⟨hjk.trans hk, i, hij, hi, hu⟩, hv⟩

theorem carries_move (path : List Char) (a : Atom) : Carries path (a.move path) a.language := by
  intro marks hmarks
  refine ⟨by simp [Atom.move, hmarks], fun j => ?_⟩
  cases j with
  | zero =>
    refine ⟨fun h => absurd h (by simp [Atom.move, Marked]), ?_⟩
    rintro ⟨-, i, hi, -, c, -, hc⟩
    obtain rfl : i = 0 := by omega
    simp [between] at hc
  | succ j =>
    rw [marked_move_succ]
    constructor
    · rintro ⟨c, hpath, hmarked, hc⟩
      obtain ⟨hj, rfl⟩ := List.getElem?_eq_some_iff.mp hpath
      exact ⟨hj, j, Nat.le_succ j, hmarked, path[j], hc, between_succ hj⟩
    · rintro ⟨hj, i, hij, hmarked, c, hc, hw⟩
      have hlength := congrArg List.length hw
      rw [length_between hj, List.length_singleton] at hlength
      obtain rfl : i = j := by omega
      obtain rfl := List.singleton_injective ((between_succ hj).symm.trans hw)
      exact ⟨path[i], List.getElem?_eq_getElem hj, hmarked, hc⟩

/-- The marks that a run of characters leaves: a place is marked if a run reaches it from a marked place, or from before
the path. -/
theorem marked_spread (a : Atom) : ∀ (path : List Char) (carried : Bool) (marks : List Bool),
    marks.length = path.length + 1 → (a.spread carried path marks).length = path.length + 1 ∧
      ∀ j, Marked (a.spread carried path marks) j ↔ j ≤ path.length ∧
        ((∃ i ≤ j, Marked marks i ∧ ∀ c ∈ between path i j, a.accepts c = true) ∨
          carried = true ∧ ∀ c ∈ between path 0 j, a.accepts c = true)
  | _, _, [], hmarks => by simp at hmarks
  | [], carried, [mark], _ => by
    refine ⟨rfl, fun j => ?_⟩
    cases j with
    | zero => simp [Atom.spread, Marked, between]
    | succ j => simp [Atom.spread, Marked]
  | [], _, _ :: _ :: _, hmarks => by simp at hmarks
  | c :: path, carried, mark :: marks, hmarks => by
    obtain ⟨hlength, hmarked⟩ :=
      marked_spread a path ((mark || carried) && a.accepts c) marks (by simpa using hmarks)
    refine ⟨by simp [Atom.spread, hlength], fun j => ?_⟩
    cases j with
    | zero => simp [Atom.spread, marked_cons_zero, between_self, Bool.or_eq_true]
    | succ j =>
      rw [Atom.spread, marked_cons_succ, hmarked]
      simp only [List.length_cons, Nat.succ_le_succ_iff, between_cons_zero, List.forall_mem_cons, Bool.and_eq_true,
        Bool.or_eq_true]
      refine and_congr_right fun _ => ⟨?_, ?_⟩
      · rintro (⟨i, hij, hi, hrun⟩ | ⟨⟨rfl | hcarried, hc⟩, hrun⟩)
        · refine .inl ⟨i + 1, by omega, (marked_cons_succ ..).mpr hi, ?_⟩
          rwa [between_cons_succ]
        · refine .inl ⟨0, by omega, (marked_cons_zero ..).mpr rfl, ?_⟩
          rw [between_cons_zero]
          exact List.forall_mem_cons.mpr ⟨hc, hrun⟩
        · exact .inr ⟨hcarried, hc, hrun⟩
      · rintro (⟨i, hij, hi, hrun⟩ | ⟨hcarried, hc, hrun⟩)
        · cases i with
          | zero =>
            rw [between_cons_zero, List.forall_mem_cons] at hrun
            exact .inr ⟨⟨.inl ((marked_cons_zero ..).mp hi), hrun.1⟩, hrun.2⟩
          | succ i =>
            rw [between_cons_succ] at hrun
            exact .inl ⟨i, by omega, (marked_cons_succ ..).mp hi, hrun⟩
        · exact .inr ⟨⟨.inr hcarried, hc⟩, hrun⟩

theorem carries_spread (path : List Char) (a : Atom) : Carries path (a.spread false path) a.runs := by
  intro marks hmarks
  obtain ⟨hlength, hmarked⟩ := marked_spread a path false marks hmarks
  refine ⟨hlength, fun j => ?_⟩
  rw [hmarked]
  simp only [Bool.false_eq_true, false_and, or_false]
  rfl

end Carries

/-! ## Expressions -/

mutual

/-- **An expression carries its language** -/
theorem Expr.carries_advance (path : List Char) : ∀ e : Expr, Carries path (e.advance path) e.language
  | .atom a => carries_move path a
  | .many a => carries_spread path a
  | .optional e => carries_one.join (Expr.carries_advance path e)
  | .group e => Expr.carries_advance path e
  | .concat es => Expr.carries_advanceAll path es
  | .alt es => Expr.carries_advanceAny path es

theorem Expr.carries_advanceAll (path : List Char) :
    ∀ es : List Expr, Carries path (Expr.advanceAll path es) (Expr.languageAll es)
  | [] => carries_one
  | e :: es => (Expr.carries_advance path e).comp (Expr.carries_advanceAll path es)

theorem Expr.carries_advanceAny (path : List Char) :
    ∀ es : List Expr, Carries path (Expr.advanceAny path es) (Expr.languageAny es)
  | [] => carries_zero
  | e :: es => (Expr.carries_advance path e).join (Expr.carries_advanceAny path es)

end

/-- **A path matches an expression exactly if it is in its language** -/
theorem Expr.isMatch_iff (e : Expr) (path : List Char) : e.isMatch path = true ↔ path ∈ e.language := by
  obtain ⟨hlength, hmarked⟩ := Expr.carries_advance path e (true :: path.map fun _ => false) (by simp)
  have hlast : e.isMatch path = true ↔
      Marked (e.advance path (true :: path.map fun _ => false)) path.length := by
    rw [Expr.isMatch, beq_iff_eq, List.getLast?_eq_getElem?, hlength]
    rfl
  rw [hlast, hmarked]
  constructor
  · rintro ⟨-, i, -, hi, h⟩
    cases i with
    | zero => rwa [between_zero_length] at h
    | succ i => exact absurd ((marked_cons_succ ..).mp hi) (not_marked_map_false path i)
  · intro h
    exact ⟨le_refl _, 0, Nat.zero_le _, (marked_cons_zero ..).mpr rfl, (between_zero_length path).symm ▸ h⟩

end PathOwners.Glob
