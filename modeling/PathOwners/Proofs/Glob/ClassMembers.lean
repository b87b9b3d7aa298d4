import PathOwners.Proofs.Glob.Steps

/-!
# Members of a class

What stands behind the `[` of a class is read from left to right, one member at a time. A member is a character, by
itself or behind a backslash, or a range of two of them with a dash between; an unescaped `]` closes the class, unless
it is the first member. `ReadsTo` says how far a class is read in this way, `Closes` that it is closed, and `MeetsRange`
that a range of it is met: reading does not get past a range that ends before it starts.

A scan does the same one character at a time, and learns whether a character begins a range only from what stands behind
it. It goes on behind a class that is closed (`outcome_of_closes`), and fails at the first range that ends before it
starts (`outcome_of_meetsRange`), or at the end of the text if it meets no such range and no closing bracket
(`outcome_of_unclosed`).
-/

namespace PathOwners

/-! ## Bytes -/

namespace Text

/-- The bytes of a text in UTF-8. -/
def byteLength (text : List Char) : Nat := (String.ofList text).utf8ByteSize

@[simp]
theorem byteLength_append (text rest : List Char) : byteLength (text ++ rest) = byteLength text + byteLength rest := by
  rw [byteLength, String.ofList_append, String.utf8ByteSize_append]
  rfl

theorem byteLength_singleton (c : Char) : byteLength [c] = c.utf8Size := by
  rw [byteLength, ← String.singleton_eq_ofList, String.utf8ByteSize_singleton]

@[simp]
theorem byteLength_cons (c : Char) (text : List Char) : byteLength (c :: text) = c.utf8Size + byteLength text := by
  rw [← List.singleton_append, byteLength_append, byteLength_singleton]

end Text

namespace Glob

open Text

/-! ## Members as they are written -/

/-- A character of a class as it is written: by itself, or behind a backslash. -/
inductive ClassChar where
  | plain (c : Char) (notBackslash : c ≠ '\\')
  | escaped (c : Char)

namespace ClassChar

/-- The text of a character. -/
def text : ClassChar → List Char
  | plain c _ => [c]
  | escaped c => ['\\', c]

/-- The character that is meant. -/
def value : ClassChar → Char
  | plain c _ => c
  | escaped c => c

/-- The bracket that closes a class, which is not escaped. -/
def IsBracket (c : ClassChar) : Prop := c.text = [']']

theorem isBracket_plain {c : Char} (hc : c ≠ '\\') : (plain c hc).IsBracket ↔ c = ']' := by
  simp [IsBracket, text]

theorem not_isBracket_escaped (c : Char) : ¬(escaped c).IsBracket := by
  simp [IsBracket, text]

end ClassChar

/-- A dash at the front of a text makes a range of the character before it: something stands behind the dash, and it is
not the closing bracket. -/
def BeginsRange (text : List Char) : Prop := ∃ c rest, text = '-' :: c :: rest ∧ c ≠ ']'

/-- A single character is the member at the front of a text, and `rest` is left behind it. Once there is `any` member,
it is not the closing bracket. -/
inductive SingleAt (any : Bool) : List Char → List Char → Prop
  | intro (c : ClassChar) (rest : List Char) : (any = true → ¬c.IsBracket) → ¬BeginsRange rest →
      SingleAt any (c.text ++ rest) rest

/-- A range is the member at the front of a text, and `rest` is left behind it. -/
inductive RangeAt (any : Bool) : List Char → Char → Char → List Char → Prop
  | intro (first last : ClassChar) (rest : List Char) : (any = true → ¬first.IsBracket) → ¬last.IsBracket →
      RangeAt any (first.text ++ '-' :: (last.text ++ rest)) first.value last.value rest

/-- What stands behind `[`, without the `!` or `^` that negates the class. -/
def dropNegation : List Char → List Char
  | [] => []
  | c :: cs => if c = '!' ∨ c = '^' then cs else c :: cs

/-- How far a class is read: `body` stands behind its `[`, `text` is left to read, and `any` tells whether there is a
member yet. -/
inductive ReadsTo (body : List Char) : Bool → List Char → Prop
  | start : ReadsTo body false (dropNegation body)
  | single {any : Bool} {text rest : List Char} : ReadsTo body any text →
      SingleAt any text rest → ReadsTo body true rest
  | range {any : Bool} {text rest : List Char} {first last : Char} : ReadsTo body any text →
      RangeAt any text first last rest → first ≤ last → ReadsTo body true rest

/-- A class is closed, by the bracket before `rest`, after one member or more. -/
def Closes (body rest : List Char) : Prop := ReadsTo body true (']' :: rest)

/-- Reading a class comes to a range. -/
def MeetsRange (body : List Char) (first last : Char) : Prop :=
  ∃ any text rest, ReadsTo body any text ∧ RangeAt any text first last rest

/-! ## What is left of a class -/

/-- A text that ends before its member does. -/
inductive IsCut (any : Bool) : List Char → Prop
  | nil : IsCut any []
  | backslash : IsCut any ['\\']
  | range (c : ClassChar) : (any = true → ¬c.IsBracket) → IsCut any (c.text ++ ['-', '\\'])

variable {any : Bool} {body text rest : List Char} {first last : Char}

theorem ClassChar.exists_text (c : Char) (cs : List Char) (hne : c :: cs ≠ ['\\']) :
    ∃ (d : ClassChar) (rest : List Char), c :: cs = d.text ++ rest ∧ (d.IsBracket ↔ c = ']') := by
  by_cases hc : c = '\\'
  · subst hc
    cases cs with
    | nil => exact absurd rfl hne
    | cons d rest => exact ⟨.escaped d, rest, rfl, iff_of_false (not_isBracket_escaped d) (by simp)⟩
  · exact ⟨.plain c hc, cs, rfl, isBracket_plain hc⟩

/-- The front of what is left: the closing bracket, a member, or one that is cut off. -/
theorem front_cases (any : Bool) (text : List Char) :
    (any = true ∧ ∃ rest, text = ']' :: rest) ∨ (∃ rest, SingleAt any text rest) ∨
      (∃ first last rest, RangeAt any text first last rest) ∨ IsCut any text := by
  cases text with
  | nil => exact .inr (.inr (.inr .nil))
  | cons c cs =>
    by_cases hclose : any = true ∧ c = ']'
    · exact .inl ⟨hclose.1, cs, by rw [hclose.2]⟩
    refine .inr ?_
    rcases eq_or_ne (c :: cs) ['\\'] with hcut | hne
    · rw [hcut]
      exact .inr (.inr .backslash)
    obtain ⟨member, rest, hmember, hbracket⟩ := ClassChar.exists_text c cs hne
    have hopen : any = true → ¬member.IsBracket := fun hany hb => hclose ⟨hany, hbracket.mp hb⟩
    rw [hmember]
    by_cases hrange : BeginsRange rest
    · obtain ⟨d, ds, rfl, hd⟩ := hrange
      rcases eq_or_ne (d :: ds) ['\\'] with hcut | hne
      · rw [hcut]
        exact .inr (.inr (.range member hopen))
      · obtain ⟨final, rest, hfinal, hbracket⟩ := ClassChar.exists_text d ds hne
        rw [hfinal]
        exact .inr (.inl ⟨_, _, rest, .intro member final rest hopen fun hb => hd (hbracket.mp hb)⟩)
    · exact .inl ⟨rest, .intro member rest hopen hrange⟩

theorem ClassChar.text_ne_nil (c : ClassChar) : c.text ≠ [] := by
  cases c <;> simp [text]

theorem SingleAt.suffix (h : SingleAt any text rest) : rest <:+ text ∧ rest.length < text.length := by
  obtain ⟨c, -, -, -⟩ := h
  have hlength := List.length_pos_iff.mpr c.text_ne_nil
  exact ⟨List.suffix_append _ _, by simp; omega⟩

theorem RangeAt.suffix (h : RangeAt any text first last rest) : rest <:+ text ∧ rest.length < text.length := by
  obtain ⟨member, final, -, -, -⟩ := h
  refine ⟨⟨member.text ++ '-' :: final.text, by simp⟩, by simp; omega⟩

theorem dropNegation_suffix (body : List Char) : dropNegation body <:+ body := by
  cases body with
  | nil => exact List.suffix_rfl
  | cons c cs =>
    rw [dropNegation]
    split_ifs
    · exact List.suffix_cons c cs
    · exact List.suffix_rfl

/-- What is left to read is the end of the class. -/
theorem ReadsTo.suffix (h : ReadsTo body any text) : text <:+ body := by
  induction h with
  | start => exact dropNegation_suffix body
  | single _ hsingle ih => exact hsingle.suffix.1.trans ih
  | range _ hrange _ ih => exact hrange.suffix.1.trans ih

/-- **Reading a class comes to an end**: it is closed, or a range ends before it starts, or the text ends first. -/
theorem ReadsTo.end_cases : ∀ {any : Bool} {text : List Char}, ReadsTo body any text →
    (∃ rest, Closes body rest) ∨ (∃ first last, MeetsRange body first last ∧ last < first) ∨
      ∃ any text, ReadsTo body any text ∧ IsCut any text
  | any, text, h => by
    rcases front_cases any text with ⟨rfl, rest, rfl⟩ | ⟨rest, hsingle⟩ | ⟨first, last, rest, hrange⟩ | hcut
    · exact .inl ⟨rest, h⟩
    · have := hsingle.suffix.2
      exact (h.single hsingle).end_cases
    · by_cases hle : first ≤ last
      · have := hrange.suffix.2
        exact (h.range hrange hle).end_cases
      · exact .inr (.inl ⟨first, last, ⟨any, text, rest, h, hrange⟩, Char.not_le.mp hle⟩)
    · exact .inr (.inr ⟨any, text, h, hcut⟩)
  termination_by _ text => text.length

/-! ## Scans of a class -/

namespace OpenClass

variable {start : Nat} {negated : Bool} {items : List ClassItem} {m c : Char}

/-- A character at the beginning of a member, unless it closes the class. -/
theorem next_member (hbracket : items ≠ [] → c ≠ ']') : next ⟨start, negated, items, .member⟩ c =
    some (.stay ⟨start, negated, items, if c = '\\' then .escaped else .after c⟩) :=
  congrArg some (if_neg fun h => hbracket h.2 h.1)

theorem next_bracket (hitems : items ≠ []) : next ⟨start, negated, items, .member⟩ ']' =
    some (.close negated items.reverse) :=
  congrArg some (if_pos ⟨rfl, hitems⟩)

theorem next_backslash : next ⟨start, negated, items, .member⟩ '\\' = some (.stay ⟨start, negated, items, .escaped⟩) :=
  next_member fun _ => by decide

theorem next_negation (hc : c = '!' ∨ c = '^') : next { start } c = some (.stay ⟨start, true, [], .member⟩) := by
  simp [next, hc]

/-- Without a negation the first member begins directly behind the bracket. -/
theorem next_opening (hc : ¬(c = '!' ∨ c = '^')) :
    next { start } c = next ⟨start, false, [], .member⟩ c := by
  simp [next, memberMove, hc]

theorem next_dash : next ⟨start, negated, items, .after m⟩ '-' = some (.stay ⟨start, negated, items, .dash m⟩) := rfl

theorem next_dash_backslash : next ⟨start, negated, items, .dash m⟩ '\\' =
    some (.stay ⟨start, negated, items, .escapedEnd m⟩) := rfl

end OpenClass

namespace ScanState

/-- A scan in a class. -/
def within (s : ScanState) (k : OpenClass) (offset : Nat) : ScanState := { s with mode := .inClass k, offset }

/-- A scan behind a class, which is a token now. -/
def closed (s : ScanState) (token : Token) (offset : Nat) : ScanState := { s.push token with offset }

variable {s : ScanState} {k k' : OpenClass} {start n : Nat} {negated : Bool} {items : List ClassItem} {m c : Char}
  {cs : List Char}

theorem outcome_within_nil (s : ScanState) (k : OpenClass) (n : Nat) :
    (s.within k n).outcome [] = .error (.unclosedClass k.start) := rfl

theorem outcome_of_stay (h : k.next c = some (.stay k')) :
    (s.within k n).outcome (c :: cs) = (s.within k' (n + c.utf8Size)).outcome cs :=
  outcome_of_step ((step_of_inClass rfl).mpr ⟨_, h, rfl⟩)

theorem outcome_of_close (h : k.next c = some (.close negated items)) :
    (s.within k n).outcome (c :: cs) = (s.closed (.charClass negated items) (n + c.utf8Size)).outcome cs :=
  outcome_of_step ((step_of_inClass rfl).mpr ⟨_, h, rfl⟩)

/-- Two classes that make the same move at a character have the same outcome. -/
theorem outcome_congr {move : ClassMove} (h : k.next c = some move) (h' : k'.next c = some move) :
    (s.within k n).outcome (c :: cs) = (s.within k' n).outcome (c :: cs) := by
  cases move with
  | stay k => rw [outcome_of_stay h, outcome_of_stay h']
  | close negated items => rw [outcome_of_close h, outcome_of_close h']

/-- At the end of a range a scan fails or goes on to the next member. -/
theorem outcome_of_rangeStep (h : ∀ s : ScanState, s.classStep k c = s.rangeStep k m c) :
    (s.within k n).outcome (c :: cs) = if c < m then .error (.invalidRange m c)
      else (s.within { k with items := .range m c :: k.items, phase := .member } (n + c.utf8Size)).outcome cs := by
  have hstep : (s.within k n).step c =
      ((s.within k n).rangeStep k m c).map fun t => { t with offset := n + c.utf8Size } := congrArg (Except.map _) (h _)
  split_ifs with hlt
  · rw [rangeStep, if_pos hlt] at hstep
    exact outcome_of_step_error hstep
  · rw [rangeStep, if_neg hlt] at hstep
    exact outcome_of_step hstep

/-- Directly behind the bracket a scan is at the first member, unless the class is negated. -/
theorem exists_outcome_opening (s : ScanState) (start n : Nat) (body : List Char) :
    ∃ negated m, m + byteLength (dropNegation body) = n + byteLength body ∧
      (s.within { start } n).outcome body = (s.within ⟨start, negated, [], .member⟩ m).outcome (dropNegation body) := by
  cases body with
  | nil => exact ⟨false, n, rfl, rfl⟩
  | cons c cs =>
    rw [dropNegation]
    split_ifs with hc
    · exact ⟨true, n + c.utf8Size, by rw [byteLength_cons, Nat.add_assoc],
        outcome_of_stay (OpenClass.next_negation hc)⟩
    · exact ⟨false, n, rfl, outcome_congr (OpenClass.next_opening hc) rfl⟩

/-- A character at the beginning of a member may begin a range. -/
theorem outcome_classChar (c : ClassChar) (hopen : items ≠ [] → ¬c.IsBracket) :
    (s.within ⟨start, negated, items, .member⟩ n).outcome (c.text ++ cs) =
      (s.within ⟨start, negated, items, .after c.value⟩ (n + byteLength c.text)).outcome cs := by
  cases c with
  | plain c hc =>
    have hbracket : items ≠ [] → c ≠ ']' := fun hitems => mt (ClassChar.isBracket_plain hc).mpr (hopen hitems)
    have hnext : OpenClass.next ⟨start, negated, items, .member⟩ c =
        some (.stay ⟨start, negated, items, .after c⟩) := by
      rw [OpenClass.next_member hbracket, if_neg hc]
    rw [ClassChar.text, List.singleton_append, outcome_of_stay hnext, byteLength_singleton, ClassChar.value]
  | escaped c =>
    have hchar : OpenClass.next ⟨start, negated, items, .escaped⟩ c =
        some (.stay ⟨start, negated, items, .after c⟩) := rfl
    rw [ClassChar.text, List.cons_append, outcome_of_stay OpenClass.next_backslash, List.singleton_append,
      outcome_of_stay hchar, byteLength_cons, byteLength_singleton, Nat.add_assoc, ClassChar.value]

/-- A character that does not begin a range is a member by itself. -/
theorem outcome_after (h : ¬BeginsRange cs) : (s.within ⟨start, negated, items, .after m⟩ n).outcome cs =
    (s.within ⟨start, negated, .single m :: items, .member⟩ n).outcome cs := by
  cases cs with
  | nil => rfl
  | cons c cs =>
    by_cases hc : c = '-'
    · subst hc
      have hmember : OpenClass.next ⟨start, negated, .single m :: items, .member⟩ '-' =
          some (.stay ⟨start, negated, .single m :: items, .after '-'⟩) := OpenClass.next_member fun _ => by decide
      rw [outcome_of_stay OpenClass.next_dash, outcome_of_stay hmember]
      cases cs with
      | nil => rfl
      | cons d ds =>
        obtain rfl : d = ']' := by
          by_contra hd
          exact h ⟨d, ds, rfl, hd⟩
        exact outcome_congr rfl rfl
    · have hnext : OpenClass.next ⟨start, negated, items, .after m⟩ c =
          some (OpenClass.memberMove ⟨start, negated, .single m :: items, .member⟩ c) := congrArg some (if_neg hc)
      exact outcome_congr hnext rfl

/-- The end of a range, which the scan compares with its start. -/
theorem outcome_rangeEnd (last : ClassChar) (hlast : ¬last.IsBracket) :
    (s.within ⟨start, negated, items, .dash m⟩ n).outcome (last.text ++ cs) =
      if last.value < m then .error (.invalidRange m last.value)
      else (s.within ⟨start, negated, .range m last.value :: items, .member⟩
        (n + byteLength last.text)).outcome cs := by
  cases last with
  | plain c hc =>
    have hbracket : c ≠ ']' := mt (ClassChar.isBracket_plain hc).mpr hlast
    have hstep : ∀ s : ScanState, s.classStep ⟨start, negated, items, .dash m⟩ c =
        s.rangeStep ⟨start, negated, items, .dash m⟩ m c := fun s => (if_neg hbracket).trans (if_neg hc)
    rw [ClassChar.text, List.singleton_append, outcome_of_rangeStep hstep, byteLength_singleton, ClassChar.value]
  | escaped c =>
    have hstep : ∀ s : ScanState, s.classStep ⟨start, negated, items, .escapedEnd m⟩ c =
        s.rangeStep ⟨start, negated, items, .escapedEnd m⟩ m c := fun _ => rfl
    rw [ClassChar.text, List.cons_append, outcome_of_stay OpenClass.next_dash_backslash, List.singleton_append,
      outcome_of_rangeStep hstep, byteLength_cons, byteLength_singleton, Nat.add_assoc, ClassChar.value]

/-- A range of a class, which the scan takes as a member if it does not end before it starts. -/
theorem outcome_range (first last : ClassChar) (hopen : items ≠ [] → ¬first.IsBracket) (hlast : ¬last.IsBracket) :
    (s.within ⟨start, negated, items, .member⟩ n).outcome (first.text ++ '-' :: (last.text ++ cs)) =
      if last.value < first.value then .error (.invalidRange first.value last.value)
      else (s.within ⟨start, negated, .range first.value last.value :: items, .member⟩
        (n + byteLength (first.text ++ '-' :: last.text))).outcome cs := by
  rw [outcome_classChar first hopen, outcome_of_stay OpenClass.next_dash, outcome_rangeEnd last hlast,
    byteLength_append, byteLength_cons, Nat.add_assoc, Nat.add_assoc]

end ScanState

/-! ## What a class comes to -/

section Outcomes

variable (s : ScanState) (start n : Nat)

/-- A scan reads a class member by member. -/
theorem ReadsTo.exists_outcome (h : ReadsTo body any text) : ∃ negated items m, (any = true ↔ items ≠ []) ∧
    m + byteLength text = n + byteLength body ∧
    (s.within { start } n).outcome body = (s.within ⟨start, negated, items, .member⟩ m).outcome text := by
  induction h with
  | start =>
    obtain ⟨negated, m, hm, houtcome⟩ := s.exists_outcome_opening start n body
    exact ⟨negated, [], m, by simp, hm, houtcome⟩
  | single _ hsingle ih =>
    obtain ⟨negated, items, m, hany, hm, houtcome⟩ := ih
    obtain ⟨c, rest, hopen, hrange⟩ := hsingle
    refine ⟨negated, .single c.value :: items, m + byteLength c.text, by simp, ?_, ?_⟩
    · rw [← hm, byteLength_append, Nat.add_assoc]
    · rw [houtcome, ScanState.outcome_classChar c fun hitems => hopen (hany.mpr hitems), ScanState.outcome_after hrange]
  | range _ hrange hle ih =>
    obtain ⟨negated, items, m, hany, hm, houtcome⟩ := ih
    obtain ⟨first, last, rest, hopen, hlast⟩ := hrange
    refine ⟨negated, .range first.value last.value :: items, m + byteLength (first.text ++ '-' :: last.text), by simp,
      ?_, ?_⟩
    · rw [← hm]
      simp only [byteLength_append, byteLength_cons, Nat.add_assoc]
    · rw [houtcome, ScanState.outcome_range first last (fun hitems => hopen (hany.mpr hitems)) hlast,
        if_neg (Char.not_lt.mpr hle)]

/-- **A scan goes on behind a class that is closed.** -/
theorem outcome_of_closes (h : Closes body rest) : ∃ negated items m, m + byteLength rest = n + byteLength body ∧
    (s.within { start } n).outcome body = (s.closed (.charClass negated items) m).outcome rest := by
  obtain ⟨negated, items, m, hany, hm, houtcome⟩ := ReadsTo.exists_outcome s start n h
  refine ⟨negated, items.reverse, m + ']'.utf8Size, ?_, ?_⟩
  · rw [← hm, byteLength_cons, Nat.add_assoc]
  · rw [houtcome, ScanState.outcome_of_close (OpenClass.next_bracket (hany.mp rfl))]

/-- **A scan fails at a range that ends before it starts.** -/
theorem outcome_of_meetsRange (h : MeetsRange body first last) (hlt : last < first) :
    (s.within { start } n).outcome body = .error (.invalidRange first last) := by
  obtain ⟨any, text, rest, hreads, hrange⟩ := h
  obtain ⟨negated, items, m, hany, -, houtcome⟩ := hreads.exists_outcome s start n
  obtain ⟨first, last, rest, hopen, hlast⟩ := hrange
  rw [houtcome, ScanState.outcome_range first last (fun hitems => hopen (hany.mpr hitems)) hlast, if_pos hlt]

/-- **A class that is not closed is an error**, unless a range of it is one. -/
theorem outcome_of_unclosed (hclosed : ¬∃ rest, Closes body rest)
    (hordered : ∀ first last, MeetsRange body first last → first ≤ last) :
    (s.within { start } n).outcome body = .error (.unclosedClass start) := by
  have hstart : ReadsTo body false (dropNegation body) := .start
  rcases hstart.end_cases with hclosed' | ⟨first, last, hmeets, hlt⟩ | ⟨any, text, hreads, hcut⟩
  · exact absurd hclosed' hclosed
  · exact absurd (hordered first last hmeets) (Char.not_le.mpr hlt)
  obtain ⟨negated, items, m, hany, -, houtcome⟩ := hreads.exists_outcome s start n
  rw [houtcome]
  cases hcut with
  | nil => exact ScanState.outcome_within_nil ..
  | backslash => rw [ScanState.outcome_of_stay OpenClass.next_backslash, ScanState.outcome_within_nil]
  | range c hopen =>
    rw [ScanState.outcome_classChar c fun hitems => hopen (hany.mpr hitems),
      ScanState.outcome_of_stay OpenClass.next_dash, ScanState.outcome_of_stay OpenClass.next_dash_backslash,
      ScanState.outcome_within_nil]

end Outcomes

end Glob

end PathOwners
