import PathOwners.Proofs.Glob.ClassMembers

/-!
# Reading a body by descent

The other usual way to read a body: a function for each construct, which calls itself for what is nested
(`readSequence`, `readAlternatives`), where a scan keeps what is open in its state. Each function is given a place in
the body and finds something there, and the place behind it.

Both ways find the same tokens and fail with the same errors (`scan_eq_descend`).
-/

namespace PathOwners.Glob

/-! ## Places in a body -/

/-- A place in a body: the bytes before it, whether two stars in a row have been met, and the characters behind it. -/
structure Place where
  offset : Nat
  doubleStar : Bool
  rest : List Char

/-- What is found at a place, and the place behind it. -/
structure Found (α : Type) (place : Place) where
  value : α
  next : Place
  lt : next.rest.length < place.rest.length

/-- The tokens that are found at a place, and the place behind them: the end of the body or, in braces, a place before a
comma or a closing brace. -/
structure FoundTokens (inBraces : Bool) (place : Place) where
  value : List Token
  next : Place
  le : next.rest.length ≤ place.rest.length
  stops : ∀ c ∈ next.rest.head?, inBraces = true ∧ (c = ',' ∨ c = '\x7d')

theorem Found.le {α : Type} {place : Place} (found : Found α place) :
    found.next.rest.length ≤ place.rest.length := Nat.le_of_lt found.lt

/-- What is found at one place, taken from a place before it. -/
def Found.from {α : Type} {place place' : Place} (found : Found α place) (h : place.rest.length ≤ place'.rest.length) :
    Found α place' :=
  ⟨found.value, found.next, Nat.lt_of_lt_of_le found.lt h⟩

/-- Something else in the place of what is found. -/
def Found.as {α β : Type} {place : Place} (value : β) (found : Found α place) : Found β place :=
  ⟨value, found.next, found.lt⟩

/-- A token in front of those that are found. -/
def FoundTokens.cons {inBraces : Bool} {place place' : Place} (token : Token) (found : FoundTokens inBraces place)
    (h : place.rest.length ≤ place'.rest.length) : FoundTokens inBraces place' :=
  ⟨token :: found.value, found.next, Nat.le_trans found.le h, found.stops⟩

namespace Place

/-- The character at a place. -/
def next? : (place : Place) → Option (Found Char place)
  | ⟨_, _, []⟩ => none
  | ⟨offset, doubleStar, c :: cs⟩ => some ⟨c, ⟨offset + c.utf8Size, doubleStar, cs⟩, Nat.lt_succ_self _⟩

/-- The place behind all stars, where at least two stars have been met. -/
def behindStars (offset : Nat) : List Char → Place
  | '*' :: cs => behindStars (offset + '*'.utf8Size) cs
  | cs => ⟨offset, true, cs⟩

theorem length_behindStars (offset : Nat) (cs : List Char) : (behindStars offset cs).rest.length ≤ cs.length := by
  fun_induction behindStars offset cs with
  | case1 offset cs ih => exact Nat.le_trans ih (Nat.le_succ _)
  | case2 => exact Nat.le_refl _

end Place

/-! ## Classes -/

/-- A character of a class: by itself, or behind a backslash. -/
def readChar? (place : Place) : Option (Found Char place) :=
  place.next?.bind fun c =>
    if c.value = '\\' then c.next.next?.map (·.from c.le) else some c

/-- Whether a dash at a place makes a range of the character before it. -/
def dashOfRange? (place : Place) : Option (Found Char place) :=
  match place.next? with
  | none => none
  | some dash =>
    match dash.next.next? with
    | none => none
    | some c => if dash.value = '-' ∧ c.value ≠ ']' then some dash else none

/-- A member of the class that begins at `start`. -/
def readMember (start : Nat) (place : Place) : Except Error (Found ClassItem place) :=
  match readChar? place with
  | none => .error (.unclosedClass start)
  | some first =>
    match dashOfRange? first.next with
    | none => .ok (first.as (.single first.value))
    | some dash =>
      match readChar? dash.next with
      | none => .error (.unclosedClass start)
      | some last =>
        if last.value < first.value then .error (.invalidRange first.value last.value)
        else .ok ((last.as (.range first.value last.value)).from (Nat.le_trans dash.le first.le))

/-- The members of the class that begins at `start`, behind those that have been read, the latest one first. A `]` is
the end of a class that has members. -/
def readMembers (start : Nat) (items : List ClassItem) (place : Place) : Except Error (Found (List ClassItem) place) :=
  match place.next? with
  | none => .error (.unclosedClass start)
  | some c =>
    if c.value = ']' ∧ items ≠ [] then .ok (c.as items.reverse)
    else (readMember start place).bind fun item =>
      (readMembers start (item.value :: items) item.next).map (·.from item.le)
  termination_by place.rest.length
  decreasing_by exact item.lt

/-- The class whose `[` stands at `start`, from behind it. -/
def readClass (start : Nat) (place : Place) : Except Error (Found Token place) :=
  match place.next? with
  | none => .error (.unclosedClass start)
  | some c =>
    if c.value = '!' ∨ c.value = '^' then
      (readMembers start [] c.next).map fun items => (items.as (.charClass true items.value)).from c.le
    else (readMembers start [] place).map fun items => items.as (.charClass false items.value)

/-! ## Tokens -/

/-- A token, and whether what is behind it stands at the start of a segment. -/
structure Read where
  token : Token
  segmentStart : Bool

/-- Two stars or more, from behind them. They are a whole segment if they stand at the start of one and nothing of it
is behind them. -/
def readManyStars (segmentStart inBraces : Bool) {place : Place} (stars : Found Unit place) : Found Read place :=
  if segmentStart then
    match stars.next.next? with
    | none => stars.as ⟨.anyPath, true⟩
    | some c =>
      if c.value = '/' then (c.as ⟨.anyDirectories, true⟩).from stars.le
      else if inBraces ∧ (c.value = ',' ∨ c.value = '\x7d') then stars.as ⟨.anyPath, true⟩
      else stars.as ⟨.star, false⟩
  else stars.as ⟨.star, false⟩

/-- Stars, from behind the first one. -/
def readStars (segmentStart inBraces : Bool) {place : Place} (star : Found Char place) : Found Read place :=
  if star.next.rest.head? = some '*' then
    readManyStars segmentStart inBraces ⟨(), .behindStars star.next.offset star.next.rest,
      Nat.lt_of_le_of_lt (Place.length_behindStars _ _) star.lt⟩
  else star.as ⟨.star, false⟩

/-- A token that is no group. -/
def readToken (segmentStart inBraces : Bool) {place : Place} (c : Found Char place) : Except Error (Found Read place) :=
  match c.value with
  | '\\' =>
    match c.next.next? with
    | none => .ok (c.as ⟨.literal '\\', false⟩)
    | some d => .ok ((d.as ⟨.literal d.value, false⟩).from c.le)
  | '/' => .ok (c.as ⟨.separator, true⟩)
  | '*' => .ok (readStars segmentStart inBraces c)
  | '?' => .ok (c.as ⟨.question, false⟩)
  | '[' => (readClass place.offset c.next).map fun token => (token.as ⟨token.value, false⟩).from c.le
  | d => .ok (c.as ⟨.literal d, false⟩)

/-! ## Sequences -/

mutual

/-- The tokens at a place, up to the end of the body or of the alternative. -/
def readSequence (segmentStart inBraces : Bool) : (place : Place) → Except Error (FoundTokens inBraces place)
  | ⟨offset, doubleStar, []⟩ => .ok ⟨[], ⟨offset, doubleStar, []⟩, Nat.le_refl _, by simp⟩
  | ⟨offset, doubleStar, c :: cs⟩ =>
    if h : inBraces = true ∧ (c = ',' ∨ c = '\x7d') then
      .ok ⟨[], ⟨offset, doubleStar, c :: cs⟩, Nat.le_refl _, by simpa using h⟩
    else
      let place : Place := ⟨offset, doubleStar, c :: cs⟩
      let here : Found Char place := ⟨c, ⟨offset + c.utf8Size, doubleStar, cs⟩, Nat.lt_succ_self _⟩
      if c = '\x7b' then
        (readAlternatives offset segmentStart here.next).bind fun group =>
          (readSequence false inBraces group.next).map
            (·.cons (.alternation group.value) (Nat.le_trans group.le here.le))
      else
        (readToken segmentStart inBraces here).bind fun read =>
          (readSequence read.value.segmentStart inBraces read.next).map (·.cons read.value.token read.le)
  termination_by place => (place.rest.length, 0)
  decreasing_by
  · exact Prod.Lex.left _ _ (Nat.lt_succ_self _)
  · exact Prod.Lex.left _ _ (Nat.lt_trans group.lt (Nat.lt_succ_self _))
  · exact Prod.Lex.left _ _ read.lt

/-- The alternatives of the group whose opening brace stands at `start`, up to its end. -/
def readAlternatives (start : Nat) (segmentStart : Bool) (place : Place) :
    Except Error (Found (List (List Token)) place) :=
  (readSequence segmentStart true place).bind fun branch =>
    match branch.next.next? with
    | none => .error (.unclosedBrace start)
    | some c =>
      if c.value = ',' then
        (readAlternatives start segmentStart c.next).map fun later =>
          (later.as (branch.value :: later.value)).from (Nat.le_trans c.le branch.le)
      else if c.value = '\x7d' then .ok ((c.as [branch.value]).from branch.le)
      else .error (.unclosedBrace start)
  termination_by (place.rest.length, 1)
  decreasing_by
  · exact Prod.Lex.right _ Nat.zero_lt_one
  · exact Prod.Lex.left _ _ (Nat.lt_of_lt_of_le c.lt branch.le)

end

/-- Reads a text into tokens by descent. -/
def descend (text : List Char) : Except Error Scanned :=
  (readSequence true false ⟨0, false, text⟩).map fun tokens => ⟨tokens.value, tokens.next.doubleStar⟩

/-! ## What a scan comes to at a place -/

open Text

namespace Place

/-- A scan that stands at a place. -/
def state (place : Place) (segmentStart : Bool) (tokens : List Token) (groups : List OpenGroup) : ScanState :=
  ⟨place.offset, .text, segmentStart, tokens, groups, place.doubleStar⟩

/-- What a scan comes to that stands at a place. -/
def outcome (place : Place) (segmentStart : Bool) (tokens : List Token) (groups : List OpenGroup) :
    Except Error Scanned := (place.state segmentStart tokens groups).outcome place.rest

/-- What a scan comes to that stands at a place in a class. -/
def outcomeWithin (place : Place) (s : ScanState) (k : OpenClass) : Except Error Scanned :=
  (({ s with doubleStar := place.doubleStar } : ScanState).within k place.offset).outcome place.rest

/-- What a scan comes to that stands at a place behind stars. -/
def outcomeBehindStars (place : Place) (many segmentStart : Bool) (tokens : List Token) (groups : List OpenGroup) :
    Except Error Scanned := ({ place.state segmentStart tokens groups with mode := .stars many }).outcome place.rest

end Place

/-- What a scan comes to that has read a token. -/
def Found.outcome {place : Place} (read : Found Read place) (tokens : List Token) (groups : List OpenGroup) :
    Except Error Scanned := read.next.outcome read.value.segmentStart (read.value.token :: tokens) groups

/-! ### Classes -/

section Classes

variable {s : ScanState} {place : Place} {offset start : Nat} {doubleStar negated : Bool} {items : List ClassItem}
  {cs : List Char}

theorem readChar?_eq_none (h : readChar? ⟨offset, doubleStar, cs⟩ = none) : cs = [] ∨ cs = ['\\'] := by
  cases cs with
  | nil => exact .inl rfl
  | cons c cs =>
    simp only [readChar?, Place.next?, Option.bind_some] at h
    split_ifs at h with hc
    cases cs with
    | nil => exact .inr (by rw [hc])
    | cons d cs => cases h

theorem readChar?_eq_some {c : Found Char ⟨offset, doubleStar, cs⟩} (h : readChar? ⟨offset, doubleStar, cs⟩ = some c) :
    ∃ (d : ClassChar) (rest : List Char), cs = d.text ++ rest ∧ (d.IsBracket ↔ cs.head? = some ']') ∧
      c.value = d.value ∧ c.next = ⟨offset + byteLength d.text, doubleStar, rest⟩ := by
  cases cs with
  | nil => cases h
  | cons e cs =>
    simp only [readChar?, Place.next?, Option.bind_some] at h
    split_ifs at h with he
    · subst he
      cases cs with
      | nil => cases h
      | cons d cs =>
        cases h
        refine ⟨.escaped d, cs, rfl, iff_of_false (ClassChar.not_isBracket_escaped d) (by simp), rfl, ?_⟩
        rw [ClassChar.text, byteLength_cons, byteLength_singleton, ← Nat.add_assoc]
        rfl
    · cases h
      refine ⟨.plain e he, cs, rfl, ?_, rfl, ?_⟩
      · rw [ClassChar.isBracket_plain, List.head?_cons, Option.some.injEq]
      · rw [ClassChar.text, byteLength_singleton]

theorem dashOfRange?_eq_none (h : dashOfRange? ⟨offset, doubleStar, cs⟩ = none) : ¬BeginsRange cs := by
  rintro ⟨c, rest, rfl, hc⟩
  simp [dashOfRange?, Place.next?, hc] at h

theorem dashOfRange?_eq_some {dash : Found Char ⟨offset, doubleStar, cs⟩}
    (h : dashOfRange? ⟨offset, doubleStar, cs⟩ = some dash) : ∃ rest, rest ≠ [] ∧ rest.head? ≠ some ']' ∧
      cs = '-' :: rest ∧ dash.next = ⟨offset + '-'.utf8Size, doubleStar, rest⟩ := by
  match cs with
  | [] => cases h
  | [_] => cases h
  | d :: c :: rest =>
    simp only [dashOfRange?, Place.next?] at h
    split_ifs at h with hdash
    obtain ⟨rfl, hc⟩ := hdash
    cases h
    exact ⟨c :: rest, List.cons_ne_nil _ _, fun hbracket => hc (Option.some.inj hbracket), rfl, rfl⟩

/-- A scan reads a member of a class as `readMember` does. -/
theorem outcome_readMember (hopen : items ≠ [] → place.rest.head? ≠ some ']') :
    place.outcomeWithin s ⟨start, negated, items, .member⟩ = (readMember start place).bind fun item =>
      item.next.outcomeWithin s ⟨start, negated, item.value :: items, .member⟩ := by
  obtain ⟨offset, doubleStar, cs⟩ := place
  unfold readMember Place.outcomeWithin
  cases hfirst : readChar? ⟨offset, doubleStar, cs⟩ with
  | none =>
    rcases readChar?_eq_none hfirst with rfl | rfl
    · rfl
    · exact ScanState.outcome_of_stay OpenClass.next_backslash
  | some first =>
    obtain ⟨d, rest, rfl, hbracket, hvalue, hnext⟩ := readChar?_eq_some hfirst
    have hd : items ≠ [] → ¬d.IsBracket := fun hitems hd => hopen hitems (hbracket.mp hd)
    obtain ⟨value, next, hlt⟩ := first
    subst hvalue hnext
    dsimp only
    cases hdash : dashOfRange? ⟨offset + byteLength d.text, doubleStar, rest⟩ with
    | none =>
      dsimp only
      rw [ScanState.outcome_classChar d hd, ScanState.outcome_after (dashOfRange?_eq_none hdash)]
      rfl
    | some dash =>
      obtain ⟨rest, hne, hhead, rfl, hnext⟩ := dashOfRange?_eq_some hdash
      obtain ⟨value, next, hlt'⟩ := dash
      subst hnext
      dsimp only
      cases hlast : readChar? ⟨offset + byteLength d.text + '-'.utf8Size, doubleStar, rest⟩ with
      | none =>
        rcases readChar?_eq_none hlast with rfl | rfl
        · exact absurd rfl hne
        · rw [ScanState.outcome_classChar d hd, ScanState.outcome_of_stay OpenClass.next_dash]
          exact ScanState.outcome_of_stay OpenClass.next_dash_backslash
      | some last =>
        obtain ⟨e, rest, rfl, hbracket, hvalue, hnext⟩ := readChar?_eq_some hlast
        obtain ⟨value', next, hlt''⟩ := last
        subst hvalue hnext
        dsimp only
        rw [ScanState.outcome_range d e hd (mt hbracket.mp hhead), byteLength_append, byteLength_cons]
        split_ifs with hlt
        · rfl
        · rw [← Nat.add_assoc, ← Nat.add_assoc]
          rfl

/-- A scan reads the members of a class as `readMembers` does. -/
theorem outcome_readMembers : ∀ (items : List ClassItem) (place : Place),
    place.outcomeWithin s ⟨start, negated, items, .member⟩ = (readMembers start items place).bind fun found =>
      found.next.outcome false (.charClass negated found.value :: s.tokens) s.groups
  | items, ⟨offset, doubleStar, []⟩ => by
    rw [readMembers]
    rfl
  | items, ⟨offset, doubleStar, c :: cs⟩ => by
    rw [readMembers]
    simp only [Place.next?]
    split_ifs with hbracket
    · obtain ⟨rfl, hitems⟩ := hbracket
      exact ScanState.outcome_of_close (OpenClass.next_bracket hitems)
    · have hopen : items ≠ [] → (c :: cs).head? ≠ some ']' := fun hitems hc =>
        hbracket ⟨Option.some.inj hc, hitems⟩
      rw [outcome_readMember hopen, Except.bind_assoc]
      refine congrArg (Except.bind _) (funext fun item => ?_)
      rw [outcome_readMembers, Except.map_bind]
      rfl
  termination_by _ place => place.rest.length
  decreasing_by exact item.lt

/-- A scan reads a class as `readClass` does. -/
theorem outcome_readClass (s : ScanState) (start : Nat) (place : Place) :
    place.outcomeWithin s { start } = (readClass start place).bind fun found =>
      found.next.outcome false (found.value :: s.tokens) s.groups := by
  obtain ⟨offset, doubleStar, cs⟩ := place
  cases cs with
  | nil => rfl
  | cons c cs =>
    simp only [readClass, Place.next?]
    split_ifs with hc
    · rw [Except.map_bind]
      exact (ScanState.outcome_of_stay (OpenClass.next_negation hc)).trans
        (outcome_readMembers [] ⟨offset + c.utf8Size, doubleStar, cs⟩)
    · rw [Except.map_bind]
      exact (ScanState.outcome_congr (OpenClass.next_opening hc) rfl).trans (outcome_readMembers [] _)

end Classes

/-! ### Stars -/

section Stars

variable {segmentStart : Bool} {tokens : List Token} {groups : List OpenGroup} {place : Place} {offset : Nat}
  {cs : List Char}

theorem head_behindStars (offset : Nat) (cs : List Char) : (Place.behindStars offset cs).rest.head? ≠ some '*' := by
  fun_induction Place.behindStars offset cs with
  | case1 offset cs ih => exact ih
  | case2 offset cs hstar =>
    intro hhead
    obtain ⟨rest, rfl⟩ := List.head?_eq_some_iff.mp hhead
    exact hstar rest rfl

theorem outcome_behindStars (offset : Nat) (cs : List Char) :
    (⟨offset, true, cs⟩ : Place).outcomeBehindStars true segmentStart tokens groups =
      (Place.behindStars offset cs).outcomeBehindStars true segmentStart tokens groups := by
  fun_induction Place.behindStars offset cs with
  | case1 offset cs ih => exact (ScanState.outcome_of_step (ScanState.step_star_of_stars rfl)).trans ih
  | case2 => rfl

/-- Stars that are no segment of their own mean a single star. -/
theorem outcome_singleStar {many : Bool} (hmany : (many && segmentStart) = false)
    (hstar : place.rest.head? ≠ some '*') :
    place.outcomeBehindStars many segmentStart tokens groups = place.outcome false (.star :: tokens) groups := by
  obtain ⟨offset, doubleStar, cs⟩ := place
  cases cs with
  | nil =>
    unfold Place.outcomeBehindStars Place.outcome
    cases groups with
    | nil => simp [ScanState.outcome_nil, ScanState.finish, ScanState.finalTokens, Place.state, hmany]
    | cons => rfl
  | cons c cs =>
    refine ScanState.outcome_congr_step ?_
    by_cases hslash : c = '/'
    · subst hslash
      rw [ScanState.step_separator_of_stars rfl, if_neg (by simp [Place.state, hmany])]
      rfl
    · have hended : ¬c = '*' := fun hc => hstar (congrArg some hc)
      rw [ScanState.step_of_stars_ended rfl hended hslash, ScanState.endStars, if_neg (by simp [Place.state, hmany])]
      rfl

theorem outcome_readManyStars (stars : Found Unit place) (hstar : stars.next.rest.head? ≠ some '*') :
    stars.next.outcomeBehindStars true segmentStart tokens groups =
      (readManyStars segmentStart (!groups.isEmpty) stars).outcome tokens groups := by
  unfold readManyStars
  split_ifs with hstart
  · obtain ⟨_, ⟨offset, doubleStar, cs⟩, hlt⟩ := stars
    subst hstart
    cases cs with
    | nil => cases groups <;> rfl
    | cons c cs =>
      simp only [Place.next?]
      have hended : ¬c = '*' := fun hc => hstar (congrArg some hc)
      split_ifs with hslash hends
      · subst hslash
        exact ScanState.outcome_of_step ((ScanState.step_separator_of_stars rfl).trans (if_pos rfl))
      · refine ScanState.outcome_congr_step ?_
        rw [ScanState.step_of_stars_ended rfl hended hslash, ScanState.endStars,
          if_pos (by simpa [Place.state, ScanState.endsAlternative, and_comm] using hends)]
        rfl
      · refine ScanState.outcome_congr_step ?_
        rw [ScanState.step_of_stars_ended rfl hended hslash, ScanState.endStars,
          if_neg (by simpa [Place.state, ScanState.endsAlternative, and_comm] using hends)]
        rfl
  · exact outcome_singleStar (by simpa using hstart) hstar

/-- A scan reads stars as `readStars` does. -/
theorem outcome_readStars (star : Found Char place) :
    star.next.outcomeBehindStars false segmentStart tokens groups =
      (readStars segmentStart (!groups.isEmpty) star).outcome tokens groups := by
  unfold readStars
  split_ifs with hstar
  · rw [← outcome_readManyStars _ (head_behindStars _ _)]
    obtain ⟨_, ⟨offset, doubleStar, cs⟩, hlt⟩ := star
    obtain ⟨rest, rfl⟩ := List.head?_eq_some_iff.mp hstar
    calc
      _ = (⟨offset + '*'.utf8Size, true, rest⟩ : Place).outcomeBehindStars true segmentStart tokens groups :=
        ScanState.outcome_of_step (ScanState.step_star_of_stars rfl)
      _ = (Place.behindStars offset ('*' :: rest)).outcomeBehindStars true segmentStart tokens groups :=
        outcome_behindStars _ _
  · exact outcome_singleStar rfl hstar

end Stars

/-! ### Sequences -/

section Sequences

variable {segmentStart : Bool} {tokens : List Token} {groups : List OpenGroup} {offset : Nat} {doubleStar : Bool}
  {c : Char} {cs : List Char}

/-- A scan reads a token as `readToken` does. -/
theorem outcome_readToken (hbrace : c ≠ '\x7b') (hend : ¬((!groups.isEmpty) = true ∧ (c = ',' ∨ c = '\x7d')))
    {here : Found Char ⟨offset, doubleStar, c :: cs⟩} (hhere : Place.next? ⟨offset, doubleStar, c :: cs⟩ = some here) :
    (⟨offset, doubleStar, c :: cs⟩ : Place).outcome segmentStart tokens groups =
      (readToken segmentStart (!groups.isEmpty) here).bind (·.outcome tokens groups) := by
  cases hhere
  refine (ScanState.outcome_of_step (ScanState.step_of_text rfl)).trans ?_
  unfold readToken
  split
  · next hc =>
    obtain rfl : c = '\\' := hc
    cases cs with
    | nil => cases groups <;> rfl
    | cons d cs => exact ScanState.outcome_of_step (ScanState.step_of_escaped rfl)
  · next hc =>
    obtain rfl : c = '/' := hc
    rfl
  · next hc =>
    obtain rfl : c = '*' := hc
    exact outcome_readStars
      (⟨'*', ⟨offset + '*'.utf8Size, doubleStar, cs⟩, Nat.lt_succ_self _⟩ : Found Char ⟨offset, doubleStar, '*' :: cs⟩)
  · next hc =>
    obtain rfl : c = '?' := hc
    rfl
  · next hc =>
    obtain rfl : c = '[' := hc
    rw [Except.map_bind]
    exact outcome_readClass (Place.state ⟨offset, doubleStar, '[' :: cs⟩ segmentStart tokens groups) offset
      ⟨offset + '['.utf8Size, doubleStar, cs⟩
  · next hbackslash hslash hstar hquestion hbracket =>
    have hgroups : c = ',' ∨ c = '\x7d' → groups = [] := fun hc => by
      by_contra hopen
      exact hend ⟨by simpa using hopen, hc⟩
    rw [ScanState.textStep_literal (by simp_all) hgroups]
    rfl

/-- At the end of a text it does not matter whether a segment starts there. -/
theorem Place.outcome_nil (segmentStart : Bool) (tokens : List Token) (groups : List OpenGroup) :
    (⟨offset, doubleStar, []⟩ : Place).outcome segmentStart tokens groups =
      (⟨offset, doubleStar, []⟩ : Place).outcome true tokens groups := by cases groups <;> rfl

/-- Where a group is open, its start tells whether what is behind a comma or a closing brace starts a segment. -/
theorem Place.outcome_end (hend : (!groups.isEmpty) = true ∧ (c = ',' ∨ c = '\x7d')) :
    (⟨offset, doubleStar, c :: cs⟩ : Place).outcome segmentStart tokens groups =
      (⟨offset, doubleStar, c :: cs⟩ : Place).outcome true tokens groups := by
  refine ScanState.outcome_congr_step ?_
  obtain ⟨hgroups, rfl | rfl⟩ := hend <;> cases groups with
  | nil => cases hgroups
  | cons => rfl

mutual

-- Behind the tokens the text or the alternative is over, so that it does not matter whether a segment starts there.
-- The statement says that one does.
/-- A scan reads the tokens at a place as `readSequence` does. -/
theorem outcome_readSequence (tokens : List Token) (groups : List OpenGroup) : ∀ (segmentStart : Bool) (place : Place),
    place.outcome segmentStart tokens groups = (readSequence segmentStart (!groups.isEmpty) place).bind fun found =>
      found.next.outcome true (found.value.reverse ++ tokens) groups
  | segmentStart, ⟨offset, doubleStar, []⟩ => by
    rw [readSequence]
    exact Place.outcome_nil ..
  | segmentStart, ⟨offset, doubleStar, c :: cs⟩ => by
    rw [readSequence]
    by_cases hend : (!groups.isEmpty) = true ∧ (c = ',' ∨ c = '\x7d')
    · rw [dif_pos hend]
      exact Place.outcome_end hend
    rw [dif_neg hend]
    dsimp only
    by_cases hbrace : c = '\x7b'
    · subst hbrace
      rw [if_pos rfl, Except.bind_assoc]
      refine (ScanState.outcome_of_step (ScanState.step_of_text rfl)).trans ?_
      refine (outcome_readAlternatives offset segmentStart tokens [] groups
        ⟨offset + '\x7b'.utf8Size, doubleStar, cs⟩).trans ?_
      refine congrArg (Except.bind _) (funext fun group => ?_)
      rw [outcome_readSequence, Except.map_bind]
      simp [FoundTokens.cons]
    · rw [if_neg hbrace, outcome_readToken hbrace hend rfl, Except.bind_assoc]
      refine congrArg (Except.bind _) (funext fun read => ?_)
      rw [Found.outcome, outcome_readSequence, Except.map_bind]
      simp [FoundTokens.cons]
  termination_by _ place => (place.rest.length, 0)
  decreasing_by
  · exact Prod.Lex.left _ _ (Nat.lt_succ_self _)
  · exact Prod.Lex.left _ _ (Nat.lt_trans group.lt (Nat.lt_succ_self _))
  · exact Prod.Lex.left _ _ read.lt

/-- A scan reads the alternatives of a group as `readAlternatives` does. -/
theorem outcome_readAlternatives (start : Nat) (segmentStart : Bool) (before : List Token)
    (alternatives : List (List Token)) (groups : List OpenGroup) (place : Place) :
    place.outcome segmentStart [] (⟨start, segmentStart, before, alternatives⟩ :: groups) =
      (readAlternatives start segmentStart place).bind fun found =>
        found.next.outcome false (.alternation (alternatives.reverse ++ found.value) :: before) groups := by
  rw [readAlternatives, outcome_readSequence, Except.bind_assoc]
  refine congrArg (Except.bind _) (funext fun branch => ?_)
  obtain ⟨value, ⟨offset, doubleStar, cs⟩, hle, hstops⟩ := branch
  cases cs with
  | nil => rfl
  | cons c cs =>
    simp only [Place.next?]
    rcases (hstops c rfl).2 with rfl | rfl
    · refine (ScanState.outcome_of_step (ScanState.step_of_text rfl)).trans ?_
      refine (outcome_readAlternatives start segmentStart before
        ((value.reverse ++ []).reverse :: alternatives) groups ⟨offset + ','.utf8Size, doubleStar, cs⟩).trans ?_
      rw [if_pos rfl, Except.map_bind]
      simp [Found.as, Found.from]
    · have hall : ((value.reverse ++ []).reverse :: alternatives).reverse = alternatives.reverse ++ [value] := by simp
      refine (ScanState.outcome_of_step (ScanState.step_of_text rfl)).trans ?_
      rw [if_neg (by decide), if_pos rfl]
      exact congrArg (fun all => Place.outcome ⟨offset + '\x7d'.utf8Size, doubleStar, cs⟩ false
        (.alternation all :: before) groups) hall
  termination_by (place.rest.length, 1)
  decreasing_by
  · exact Prod.Lex.right _ Nat.zero_lt_one
  · exact Prod.Lex.left _ _ hle

end

end Sequences

/-- **A scan and a descent read every text alike**, with the same tokens or the same error. -/
theorem scan_eq_descend (text : List Char) : scan text = descend text := by
  have hscan : scan text = (readSequence true false ⟨0, false, text⟩).bind fun found =>
      found.next.outcome true (found.value.reverse ++ []) [] := outcome_readSequence [] [] true ⟨0, false, text⟩
  rw [hscan, descend]
  cases readSequence true false ⟨0, false, text⟩ with
  | error e => rfl
  | ok found =>
    obtain ⟨tokens, ⟨offset, doubleStar, rest⟩, -, hstops⟩ := found
    cases rest with
    | cons c cs => exact absurd (hstops c rfl).1 Bool.false_ne_true
    | nil =>
      have htokens : (tokens.reverse ++ []).reverse = tokens := by rw [List.append_nil, List.reverse_reverse]
      exact congrArg (fun tokens => Except.ok (Scanned.mk tokens doubleStar)) htokens

end PathOwners.Glob
