import PathOwners.Proofs.Glob.Reading

/-!
# Runs of stars next to braces

A run of stars in an expansion has a role: a single star, any number of directories, or any path. The body gives it one,
by the braces and separators around it (`roleInBody`), and the text of the expansion gives it one, in which there are
no braces (`roleInText`). An expansion in which no two stars come together across a brace is read with its marks as it
is read without them exactly if every run keeps its role (`readAll_unmarked_iff`).
-/

namespace PathOwners.Glob

/-! ## Marks -/

/-- The piece of a star. -/
abbrev Piece.star : Piece := .lexeme (.plain '*')

/-- The piece of a separator. -/
abbrev Piece.separator : Piece := .lexeme (.plain '/')

/-- Whether a piece is the mark of a brace. -/
def Piece.isMark : Piece → Bool
  | .lexeme _ => false
  | .opening | .closing => true

/-- An expansion without the marks of its braces. -/
def unmarked (ps : List Piece) : List Piece := ps.filter fun p => !p.isMark

/-- Whether two stars that were on different sides of a brace come together. -/
def joinsStars : List Piece → Bool
  | [] => false
  | p :: ps => (p == .star && ps.head?.any Piece.isMark && (unmarked ps).head? == some .star) || joinsStars ps

/-! ## Roles -/

/-- What a run of stars stands for. -/
inductive StarRole where
  | star
  | anyDirectories
  | anyPath
  deriving DecidableEq, Repr

/-- The role of a run of stars: two or more that are a whole segment cross directories. -/
def starRole (start : Bool) (count : Nat) (next : Option Piece) : StarRole :=
  if start && decide (2 ≤ count) then
    match next with
    | none | some .closing => .anyPath
    | some (.lexeme (.plain '/')) => .anyDirectories
    | _ => .star
  else .star

/-- Whether a segment of the body starts after some pieces: only opening braces may part it from what it starts with. -/
def startsInBody (front : List Piece) : Bool :=
  (front.reverse.dropWhile (· == .opening)).head?.all (· == .separator)

/-- Whether a segment of the text starts after some pieces. -/
def startsInText (front : List Piece) : Bool := (unmarked front).getLast?.all (· == .separator)

/-- The length of the run of stars at the start of some pieces. -/
def starCount (rest : List Piece) : Nat := (rest.takeWhile (· == .star)).length

/-- What follows the run of stars at the start of some pieces. -/
def afterStars (rest : List Piece) : List Piece := rest.dropWhile (· == .star)

/-- The role that the body gives to the stars between two parts of an expansion. -/
def roleInBody (front rest : List Piece) : StarRole :=
  starRole (startsInBody front) (starCount rest) (afterStars rest).head?

/-- The role that the text gives to the stars between two parts of an expansion. -/
def roleInText (front rest : List Piece) : StarRole :=
  starRole (startsInText front) (starCount rest) (unmarked (afterStars rest)).head?

/-- Whether the runs of stars in the rest of an expansion have the same role in the body and in the text. -/
def keepsRoles (front : List Piece) : List Piece → Bool
  | [] => true
  | p :: ps => roleInBody front (p :: ps) == roleInText front (p :: ps) && keepsRoles (front ++ [p]) ps

section Roles

variable {front rest back ps : List Piece} {p : Piece}

theorem unmarked_cons_of_not_isMark (h : p.isMark = false) : unmarked (p :: ps) = p :: unmarked ps := by
  simp [unmarked, h]

theorem startsInBody_concat (front : List Piece) (p : Piece) :
    startsInBody (front ++ [p]) = if p = .opening then startsInBody front else p == .separator := by
  unfold startsInBody
  rw [List.reverse_append, List.reverse_singleton, List.singleton_append, List.dropWhile_cons]
  split_ifs <;> simp_all

theorem startsInText_concat (front : List Piece) (p : Piece) :
    startsInText (front ++ [p]) = if p.isMark then startsInText front else p == .separator := by
  unfold startsInText unmarked
  rw [List.filter_append]
  split_ifs <;> simp_all

theorem startsInBody_replicate (front : List Piece) (n : Nat) :
    startsInBody (front ++ List.replicate (n + 1) .star) = false := by
  rw [List.replicate_succ', ← List.append_assoc, startsInBody_concat]
  rfl

theorem startsInText_replicate (front : List Piece) (n : Nat) :
    startsInText (front ++ List.replicate (n + 1) .star) = false := by
  rw [List.replicate_succ', ← List.append_assoc, startsInText_concat]
  rfl

theorem takeWhile_star (n : Nat) (hback : back.head? ≠ some .star) :
    (List.replicate n Piece.star ++ back).takeWhile (· == .star) = List.replicate n .star := by
  induction n with
  | zero => cases back <;> simp_all
  | succ n ih => rw [List.replicate_succ, List.cons_append, List.takeWhile_cons_of_pos (by rfl), ih]

theorem afterStars_replicate (n : Nat) (hback : back.head? ≠ some .star) :
    afterStars (List.replicate n .star ++ back) = back := by
  induction n with
  | zero => cases back <;> simp_all [afterStars]
  | succ n ih =>
    rw [afterStars, List.replicate_succ, List.cons_append, List.dropWhile_cons_of_pos (by rfl), ← afterStars, ih]

theorem starCount_replicate (n : Nat) (hback : back.head? ≠ some .star) :
    starCount (List.replicate n .star ++ back) = n := by
  rw [starCount, takeWhile_star n hback, List.length_replicate]

theorem roleInBody_replicate (front : List Piece) (n : Nat) (hback : back.head? ≠ some .star) :
    roleInBody front (List.replicate n .star ++ back) = starRole (startsInBody front) n back.head? := by
  rw [roleInBody, starCount_replicate n hback, afterStars_replicate n hback]

theorem roleInText_replicate (front : List Piece) (n : Nat) (hback : back.head? ≠ some .star) :
    roleInText front (List.replicate n .star ++ back) = starRole (startsInText front) n (unmarked back).head? := by
  rw [roleInText, starCount_replicate n hback, afterStars_replicate n hback]

/-- Pieces begin with a run of stars, if only of none. -/
theorem exists_eq_replicate_append : ∀ ps : List Piece,
    ∃ n back, ps = List.replicate n .star ++ back ∧ back.head? ≠ some .star
  | [] => ⟨0, [], rfl, by simp⟩
  | p :: ps => by
    by_cases hp : p = .star
    · obtain ⟨n, back, rfl, hback⟩ := exists_eq_replicate_append ps
      exact ⟨n + 1, back, by rw [hp]; rfl, hback⟩
    · exact ⟨0, p :: ps, rfl, by simpa using hp⟩

theorem keepsRoles_within (n : Nat) (back : List Piece) : ∀ front : List Piece,
    keepsRoles (front ++ [.star]) (List.replicate n .star ++ back) =
      keepsRoles (front ++ List.replicate (n + 1) .star) back := by
  induction n with
  | zero => intro front; rfl
  | succ n ih =>
    intro front
    rw [List.replicate_succ, List.cons_append, keepsRoles, ih, roleInBody, roleInText, startsInBody_concat,
      startsInText_concat, List.append_assoc, List.replicate_succ (n := n + 1)]
    rfl

/-- Only the start of a run counts for its role. -/
theorem keepsRoles_run (front : List Piece) (n : Nat) (hback : back.head? ≠ some .star) :
    keepsRoles front (List.replicate (n + 1) .star ++ back) = true ↔
      starRole (startsInBody front) (n + 1) back.head? = starRole (startsInText front) (n + 1) (unmarked back).head? ∧
        keepsRoles (front ++ List.replicate (n + 1) .star) back = true := by
  have hrole := roleInBody_replicate front (n + 1) hback
  have hrole' := roleInText_replicate front (n + 1) hback
  rw [List.replicate_succ, List.cons_append] at hrole hrole' ⊢
  rw [keepsRoles, hrole, hrole', keepsRoles_within, Bool.and_eq_true, beq_iff_eq, List.replicate_succ]

theorem joinsStars_append (ps : List Piece) {qs : List Piece} (h : joinsStars (ps ++ qs) = false) :
    joinsStars qs = false := by
  induction ps with
  | nil => exact h
  | cons p ps ih =>
    rw [List.cons_append, joinsStars, Bool.or_eq_false_iff] at h
    exact ih h.2

/-- A run of stars is followed by no star across a brace. -/
theorem head?_unmarked_of_joinsStars (n : Nat) (hback : back.head? ≠ some .star)
    (h : joinsStars (List.replicate (n + 1) .star ++ back) = false) : (unmarked back).head? ≠ some .star := by
  rw [List.replicate_succ', List.append_assoc] at h
  have hstar := (Bool.or_eq_false_iff.mp (joinsStars_append _ h)).1
  cases back with
  | nil => simp [unmarked]
  | cons p back =>
    cases hp : p.isMark with
    | true => simpa [hp] using hstar
    | false =>
      rw [unmarked_cons_of_not_isMark hp]
      exact hback

end Roles

/-! ## Reading a run -/

/-- The token of a run of stars. -/
def StarRole.token : StarRole → Token
  | .star => .star
  | .anyDirectories => .anyDirectories
  | .anyPath => .anyPath

theorem StarRole.eq_of_token_eq {role role' : StarRole} (h : role.token = role'.token) : role = role' := by
  cases role <;> cases role' <;> first | rfl | cases h

/-- What is read after a run of stars: a separator is part of a run that stands for directories. -/
def StarRole.readRest (back : List Piece) : StarRole → List Token
  | .anyDirectories => Stance.readAll ⟨none, true⟩ back.tail
  | .star | .anyPath => Stance.readAll ⟨none, false⟩ back

section Reading

variable {front rest back ps : List Piece} {p : Piece}

theorem readAll_star (st : Stance) (ps : List Piece) :
    st.readAll (.star :: ps) = Stance.readAll ⟨some st.stars.isSome, st.start⟩ ps := rfl

theorem readAll_stars (start : Bool) (back : List Piece) : ∀ (n : Nat) (stars : Option Bool),
    Stance.readAll ⟨stars, start⟩ (List.replicate (n + 1) .star ++ back) =
      Stance.readAll ⟨some (stars.isSome || decide (1 ≤ n)), start⟩ back
  | 0, stars => by
    rw [List.replicate_succ, List.cons_append, readAll_star]
    simp
  | n + 1, stars => by
    rw [List.replicate_succ, List.cons_append, readAll_star, readAll_stars]
    simp

theorem starRole_lexeme {l : Lexeme} (start : Bool) (count : Nat) (hl : l ≠ .plain '/') :
    starRole start count (some (.lexeme l)) = .star := by
  unfold starRole
  split_ifs
  · split <;> simp_all
  · rfl

/-- A run of stars is read by its role. -/
theorem readAll_run (start : Bool) (n : Nat) (hback : back.head? ≠ some .star) :
    Stance.readAll ⟨none, start⟩ (List.replicate (n + 1) .star ++ back) =
      (starRole start (n + 1) back.head?).token :: (starRole start (n + 1) back.head?).readRest back := by
  rw [readAll_stars]
  have hcount : decide (2 ≤ n + 1) = decide (1 ≤ n) := by simp
  cases back with
  | nil =>
    unfold starRole
    rw [hcount]
    cases start <;> cases decide (1 ≤ n) <;> rfl
  | cons p back =>
    cases p with
    | opening =>
      unfold starRole
      rw [hcount]
      cases start <;> cases decide (1 ≤ n) <;> rfl
    | closing =>
      unfold starRole
      rw [hcount]
      cases start <;> cases decide (1 ≤ n) <;> rfl
    | lexeme l =>
      by_cases hl : l = .plain '/'
      · subst hl
        unfold starRole
        rw [hcount]
        cases start <;> cases decide (1 ≤ n) <;> rfl
      · have hstar : l ≠ .plain '*' := by simpa using hback
        rw [List.head?_cons, starRole_lexeme _ _ hl, StarRole.readRest, Stance.readAll_cons, Stance.readAll_cons,
          Stance.tokens_of_ne _ hstar hl, Stance.tokens_of_ne _ hstar hl, Stance.next_of_ne _ hstar hl,
          Stance.next_of_ne _ hstar hl]
        rfl

theorem starRole_eq_anyDirectories {start : Bool} {count : Nat} {next : Option Piece}
    (h : starRole start count next = .anyDirectories) : next = some .separator := by
  unfold starRole at h
  split at h
  · split at h <;> simp_all
  · cases h

/-- Away from stars, a piece keeps the roles of the runs after it. -/
theorem keepsRoles_cons (front : List Piece) (hp : p ≠ .star) :
    keepsRoles front (p :: ps) = keepsRoles (front ++ [p]) ps := by
  have hhead : (p :: ps).head? ≠ some .star := by simpa using hp
  have hrole : roleInBody front (p :: ps) = .star := by
    simpa [starRole] using roleInBody_replicate front 0 hhead
  have hrole' : roleInText front (p :: ps) = .star := by
    simpa [starRole] using roleInText_replicate front 0 hhead
  rw [keepsRoles, hrole, hrole', beq_self_eq_true, Bool.true_and]

theorem unmarked_run (n : Nat) (back : List Piece) :
    unmarked (List.replicate n .star ++ back) = List.replicate n .star ++ unmarked back := by
  simp [unmarked, Piece.isMark]

/-- Away from stars, a piece is read the same way with and without marks. -/
theorem readAll_piece (front : List Piece) (hp : p ≠ .star) :
    (Stance.readAll ⟨none, startsInBody front⟩ (p :: ps) =
        Stance.readAll ⟨none, startsInText front⟩ (unmarked (p :: ps)) ↔
      Stance.readAll ⟨none, startsInBody (front ++ [p])⟩ ps =
        Stance.readAll ⟨none, startsInText (front ++ [p])⟩ (unmarked ps)) := by
  rw [startsInBody_concat, startsInText_concat]
  cases p with
  | opening => rfl
  | closing => rfl
  | lexeme l =>
    rw [unmarked_cons_of_not_isMark rfl, Stance.readAll_cons, Stance.readAll_cons]
    by_cases hl : l = .plain '/'
    · subst hl
      exact List.append_right_inj [Token.separator]
    · have hstar : l ≠ .plain '*' := by simpa using hp
      have hseparator : (Piece.lexeme l == .separator) = false := by simpa using hl
      rw [Stance.tokens_of_ne _ hstar hl, Stance.tokens_of_ne _ hstar hl, Stance.next_of_ne _ hstar hl,
        Stance.next_of_ne _ hstar hl, hseparator]
      exact List.append_right_inj [l.token]

/-- **An expansion is read without its marks as it is read with them exactly if its runs of stars keep their roles** -/
theorem readAll_unmarked_iff (front rest : List Piece) (hjoins : joinsStars rest = false) :
    Stance.readAll ⟨none, startsInBody front⟩ rest = Stance.readAll ⟨none, startsInText front⟩ (unmarked rest) ↔
      keepsRoles front rest = true := by
  obtain ⟨n, back, rfl, hback⟩ := exists_eq_replicate_append rest
  cases n with
  | zero =>
    rw [List.replicate_zero, List.nil_append] at hjoins ⊢
    cases back with
    | nil => exact iff_of_true rfl rfl
    | cons p ps =>
      have hp : p ≠ .star := by simpa using hback
      rw [keepsRoles_cons front hp, readAll_piece front hp]
      exact readAll_unmarked_iff (front ++ [p]) ps (joinsStars_append [p] hjoins)
  | succ n =>
    have hback' := head?_unmarked_of_joinsStars n hback hjoins
    have hrun := readAll_unmarked_iff (front ++ List.replicate (n + 1) .star) back (joinsStars_append _ hjoins)
    rw [startsInBody_replicate, startsInText_replicate] at hrun
    rw [keepsRoles_run front n hback, unmarked_run, readAll_run _ _ hback, readAll_run _ _ hback', List.cons.injEq]
    by_cases hrole : starRole (startsInBody front) (n + 1) back.head? =
        starRole (startsInText front) (n + 1) (unmarked back).head?
    · rw [← hrole]
      simp only [true_and]
      cases hbody : starRole (startsInBody front) (n + 1) back.head? with
      | star => exact hrun
      | anyPath => exact hrun
      | anyDirectories =>
        obtain ⟨ps, rfl⟩ := List.head?_eq_some_iff.mp (starRole_eq_anyDirectories hbody)
        rw [← List.singleton_append, ← List.append_assoc] at hjoins
        have hps := joinsStars_append (List.replicate (n + 1) .star ++ [.separator]) hjoins
        have hrest := readAll_unmarked_iff (front ++ List.replicate (n + 1) .star ++ [.separator]) ps hps
        rw [startsInBody_concat, startsInText_concat] at hrest
        rw [keepsRoles_cons _ (by simp)]
        exact hrest
    · exact iff_of_false (fun h => hrole (StarRole.eq_of_token_eq h.1)) fun h => hrole h.1
termination_by rest.length
decreasing_by all_goals simp_all <;> omega

end Reading

end PathOwners.Glob
