import Mathlib.Data.List.Basic
import PathOwners.Owner
import PathOwners.Proofs.Text.Pieces

/-!
# The shapes of names

What a name stands for, said of its shape: where it has a `/` and an `@`, and between which parts (`HasShape`). A text
has one shape at most (`HasShape.unique`). Cutting a name at its first `@` and its first `/` finds the shape if there is
one (`ofHandle_of_hasShape`, `ofBare_of_hasShape`) and finds no other (`hasShape_ofHandle`, `hasShape_ofBare`). So the
kind of a name is that of its shape, and a name without a shape is unknown (`classify_eq_iff_hasShape`).
-/

namespace PathOwners.OwnerKind

variable {text handle name : List Char} {kind kind' : OwnerKind}

/-! ## Shapes -/

/-- The name of an organisation, a team or a user. -/
structure IsPart (text : List Char) : Prop where
  ne_nil : text ≠ []
  noSlash : '/' ∉ text
  noAt : '@' ∉ text

/-- The shapes of names, each with what a name of this shape stands for. -/
inductive HasShape : OwnerKind → List Char → Prop
  | bareTeam {organisation team : List Char} (horganisation : IsPart organisation) (hteam : IsPart team) :
      HasShape .team (organisation ++ '/' :: team)
  | team {organisation team : List Char} (horganisation : IsPart organisation) (hteam : IsPart team) :
      HasShape .team ('@' :: (organisation ++ '/' :: team))
  | user {user : List Char} (huser : IsPart user) : HasShape .user ('@' :: user)
  | email {mailbox domain : List Char} (hmailbox : mailbox ≠ []) (hdomain : domain ≠ []) (hleft : '@' ∉ mailbox)
      (hright : '@' ∉ domain) : HasShape .email (mailbox ++ '@' :: domain)

/-- A text that has characters, none of them white space. -/
structure IsWord (text : List Char) : Prop where
  ne_nil : text ≠ []
  noBlank : ∀ c ∈ text, Text.isBlank c = false

theorem HasShape.ne_unknown (h : HasShape kind text) : kind ≠ .unknown := by
  cases h <;> decide

theorem head?_append_ne_at (hne : text ≠ []) (hat : '@' ∉ text) (rest : List Char) :
    (text ++ rest).head? ≠ some '@' := by
  rw [List.head?_append_of_ne_nil _ hne]
  exact fun h => hat (List.mem_of_head? h)

theorem noAt_append {organisation team : List Char} (horganisation : IsPart organisation) (hteam : IsPart team) :
    '@' ∉ organisation ++ '/' :: team := by
  simp [horganisation.noAt, hteam.noAt]

/-- A name without an `@` that is cut into an organisation and a team. -/
theorem namesTeam_iff {organisation team : List Char} (hat : '@' ∉ name) :
    Text.splitFirst? '/' name = some (organisation, team) ∧ namesTeam organisation team = true ↔
      name = organisation ++ '/' :: team ∧ IsPart organisation ∧ IsPart team := by
  have hnames : namesTeam organisation team = true ↔ organisation ≠ [] ∧ team ≠ [] ∧ '/' ∉ team := by
    simp [namesTeam, and_assoc]
  rw [Text.splitFirst?_eq_some_iff, hnames]
  constructor
  · rintro ⟨⟨rfl, hslash⟩, horganisation, hteam, hslash'⟩
    obtain ⟨hleft, hright⟩ : '@' ∉ organisation ∧ '@' ∉ team := by simpa using hat
    exact ⟨rfl, ⟨horganisation, hslash, hleft⟩, ⟨hteam, hslash', hright⟩⟩
  · rintro ⟨rfl, horganisation, hteam⟩
    exact ⟨⟨rfl, horganisation.noSlash⟩, horganisation.ne_nil, hteam.ne_nil, hteam.noSlash⟩

/-! ## Names that begin with an `@` -/

theorem ofHandle_of_noAt (hne : handle ≠ []) (hat : '@' ∉ handle) : ofHandle handle =
    match Text.splitFirst? '/' handle with
    | some (organisation, name) => if namesTeam organisation name then .team else .unknown
    | none => .user :=
  if_neg (by simp [hne, hat])

theorem ofHandle_of_hasShape (h : HasShape kind ('@' :: handle)) : ofHandle handle = kind := by
  generalize htext : '@' :: handle = text at h
  have hhead : text.head? = some '@' := htext ▸ rfl
  cases h with
  | bareTeam horganisation hteam =>
    exact absurd hhead (head?_append_ne_at horganisation.ne_nil horganisation.noAt _)
  | email hmailbox hdomain hleft hright => exact absurd hhead (head?_append_ne_at hmailbox hleft _)
  | team horganisation hteam =>
    cases htext
    have hat := noAt_append horganisation hteam
    obtain ⟨hsplit, hnames⟩ := (namesTeam_iff hat).mpr ⟨rfl, horganisation, hteam⟩
    rw [ofHandle_of_noAt (by simp) hat, hsplit]
    exact if_pos hnames
  | user huser =>
    cases htext
    rw [ofHandle_of_noAt huser.ne_nil huser.noAt, Text.splitFirst?_eq_none_iff.mpr huser.noSlash]

/-- The first `/` parts an organisation from a team; if there is none, all of the name is that of a user. -/
theorem hasShape_ofHandle (hkind : ofHandle handle ≠ .unknown) : HasShape (ofHandle handle) ('@' :: handle) := by
  obtain ⟨hne, hat⟩ : handle ≠ [] ∧ '@' ∉ handle := by
    by_contra h
    exact hkind (if_pos (by simpa [← not_and_or, or_iff_not_imp_left] using h))
  rw [ofHandle_of_noAt hne hat] at hkind ⊢
  cases hsplit : Text.splitFirst? '/' handle with
  | none => exact .user ⟨hne, Text.splitFirst?_eq_none_iff.mp hsplit, hat⟩
  | some parts =>
    simp only [hsplit] at hkind ⊢
    split_ifs at hkind ⊢ with hnames
    · obtain ⟨rfl, horganisation, hteam⟩ := (namesTeam_iff hat).mp ⟨hsplit, hnames⟩
      exact .team horganisation hteam
    · exact absurd rfl hkind

/-! ## Names that do not -/

theorem ofBare_of_noAt (hat : '@' ∉ name) : ofBare name =
    match Text.splitFirst? '/' name with
    | some (organisation, name) => if namesTeam organisation name then .team else .unknown
    | none => .unknown := by
  rw [ofBare, Text.splitFirst?_eq_none_iff.mpr hat]
  cases Text.splitFirst? '/' name <;> rfl

theorem ofBare_append {mailbox : List Char} (hat : '@' ∉ mailbox) (domain : List Char) :
    ofBare (mailbox ++ '@' :: domain) =
      if mailbox ≠ [] ∧ domain ≠ [] ∧ '@' ∉ domain then .email else .unknown := by
  rw [ofBare, Text.splitFirst?_append hat]
  simp [and_assoc]

theorem ofBare_of_hasShape (hhead : name.head? ≠ some '@') (h : HasShape kind name) : ofBare name = kind := by
  cases h with
  | team | user => exact absurd rfl hhead
  | bareTeam horganisation hteam =>
    have hat := noAt_append horganisation hteam
    obtain ⟨hsplit, hnames⟩ := (namesTeam_iff hat).mpr ⟨rfl, horganisation, hteam⟩
    rw [ofBare_of_noAt hat, hsplit]
    exact if_pos hnames
  | email hmailbox hdomain hleft hright => rw [ofBare_append hleft, if_pos ⟨hmailbox, hdomain, hright⟩]

/-- The first `@` parts a mailbox from a domain; if there is none, the first `/` parts an organisation from a team. -/
theorem hasShape_ofBare (hkind : ofBare name ≠ .unknown) : HasShape (ofBare name) name := by
  by_cases hat : '@' ∈ name
  · obtain ⟨mailbox, domain, rfl, hleft⟩ := List.eq_append_cons_of_mem hat
    rw [ofBare_append hleft] at hkind ⊢
    split_ifs at hkind ⊢ with hparts
    · exact .email hparts.1 hparts.2.1 hleft hparts.2.2
    · exact absurd rfl hkind
  · rw [ofBare_of_noAt hat] at hkind ⊢
    cases hsplit : Text.splitFirst? '/' name with
    | none =>
      rw [hsplit] at hkind
      exact absurd rfl hkind
    | some parts =>
      simp only [hsplit] at hkind ⊢
      split_ifs at hkind ⊢ with hnames
      · obtain ⟨rfl, horganisation, hteam⟩ := (namesTeam_iff hat).mp ⟨hsplit, hnames⟩
        exact .bareTeam horganisation hteam
      · exact absurd rfl hkind

/-! ## The kind of a name -/

/-- A text has one shape at most: it begins with an `@` or it does not, and either way the kind is found. -/
theorem HasShape.unique (h : HasShape kind text) (h' : HasShape kind' text) : kind = kind' := by
  by_cases hhead : text.head? = some '@'
  · obtain ⟨handle, rfl⟩ := List.head?_eq_some_iff.mp hhead
    exact (ofHandle_of_hasShape h).symm.trans (ofHandle_of_hasShape h')
  · exact (ofBare_of_hasShape hhead h).symm.trans (ofBare_of_hasShape hhead h')

theorem ofTrimmed_of_not_isWord (h : ¬IsWord text) : ofTrimmed text = .unknown := by
  refine if_pos ?_
  by_contra hword
  obtain ⟨hne, hblank⟩ : text ≠ [] ∧ ∀ c ∈ text, Text.isBlank c = false := by simpa using hword
  exact h ⟨hne, hblank⟩

theorem IsWord.ofTrimmed_cons (h : IsWord ('@' :: handle)) : ofTrimmed ('@' :: handle) = ofHandle handle :=
  if_neg (by simpa using h.noBlank)

theorem IsWord.ofTrimmed_of_head (h : IsWord text) (hhead : text.head? ≠ some '@') : ofTrimmed text = ofBare text := by
  rw [ofTrimmed, if_neg (by simpa [h.ne_nil] using h.noBlank)]
  rintro handle rfl
  exact hhead rfl

theorem ofTrimmed_eq_iff (hkind : kind ≠ .unknown) : ofTrimmed text = kind ↔ IsWord text ∧ HasShape kind text := by
  by_cases hword : IsWord text
  · by_cases hhead : text.head? = some '@'
    · obtain ⟨handle, rfl⟩ := List.head?_eq_some_iff.mp hhead
      rw [hword.ofTrimmed_cons, and_iff_right hword]
      exact ⟨fun h => h ▸ hasShape_ofHandle (h ▸ hkind), ofHandle_of_hasShape⟩
    · rw [hword.ofTrimmed_of_head hhead, and_iff_right hword]
      exact ⟨fun h => h ▸ hasShape_ofBare (h ▸ hkind), ofBare_of_hasShape hhead⟩
  · rw [ofTrimmed_of_not_isWord hword]
    exact iff_of_false hkind.symm fun h => hword h.1

theorem ofTrimmed_eq_unknown_iff : ofTrimmed text = .unknown ↔ ¬IsWord text ∨ ∀ kind, ¬HasShape kind text := by
  rw [← not_iff_not, not_or, not_not, not_forall_not]
  constructor
  · intro h
    obtain ⟨hword, hshape⟩ := (ofTrimmed_eq_iff h).mp rfl
    exact ⟨hword, _, hshape⟩
  · rintro ⟨hword, kind, hshape⟩
    rw [(ofTrimmed_eq_iff hshape.ne_unknown).mpr ⟨hword, hshape⟩]
    exact hshape.ne_unknown

/-- **The kind of a name is that of its shape.** The shape is that of the name without the white space around it. A name
with white space inside and a name of no shape are unknown; no text has two shapes. -/
theorem classify_eq_iff_hasShape (name : String) :
    (classify name = .team ↔ IsWord (Text.trim name.toList) ∧ HasShape .team (Text.trim name.toList)) ∧
    (classify name = .user ↔ IsWord (Text.trim name.toList) ∧ HasShape .user (Text.trim name.toList)) ∧
    (classify name = .email ↔ IsWord (Text.trim name.toList) ∧ HasShape .email (Text.trim name.toList)) ∧
    (classify name = .unknown ↔
      ¬IsWord (Text.trim name.toList) ∨ ∀ kind, ¬HasShape kind (Text.trim name.toList)) ∧
    ∀ text kind kind', HasShape kind text → HasShape kind' text → kind = kind' :=
  ⟨ofTrimmed_eq_iff (by decide), ofTrimmed_eq_iff (by decide), ofTrimmed_eq_iff (by decide), ofTrimmed_eq_unknown_iff,
    fun _ _ _ => HasShape.unique⟩

/-- A mailbox and a domain may have `/`s: with an `@` between them they are no team. -/
theorem classify_eq_iff_hasShape_address :
    HasShape .email "a/b@c/d".toList ∧ (∀ kind, HasShape kind "a/b@c/d".toList → kind = .email) ∧
      classify "\u3000a/b@c/d\t" = .email := by
  obtain ⟨-, -, hemail, -, hunique⟩ := classify_eq_iff_hasShape "\u3000a/b@c/d\t"
  have htrim : Text.trim "\u3000a/b@c/d\t".toList = "a/b@c/d".toList := by decide
  have hblank : "a/b@c/d".toList.any Text.isBlank = false := by decide
  have hword : IsWord "a/b@c/d".toList :=
    ⟨by decide, fun c hc => (Bool.not_eq_true _).mp (List.any_eq_false.mp hblank c hc)⟩
  have hshape : HasShape .email ("a/b".toList ++ '@' :: "c/d".toList) :=
    .email (by decide) (by decide) (by decide) (by decide)
  rw [show "a/b".toList ++ '@' :: "c/d".toList = "a/b@c/d".toList by decide] at hshape
  rw [htrim] at hemail
  exact ⟨hshape, fun kind h => hunique _ kind .email h hshape, hemail.mpr ⟨hword, hshape⟩⟩

end PathOwners.OwnerKind
