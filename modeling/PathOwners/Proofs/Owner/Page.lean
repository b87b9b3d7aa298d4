import PathOwners.Proofs.Owner.Shape
import PathOwners.Proofs.Text.Blank

/-!
# The pages of owners

Which owners have a page, and its address (`HasPage`). An owner has a page if its name is that of a user or a team; the
name of a team without its organisation is looked up in an organisation that is given (`page_of_kind`). A page is made
of the name as it is written, white space around it included, so a name with white space around it has the page of the
name without it only where there is no page at all (`page_trimmed_iff`).
-/

namespace PathOwners.Owner

open OwnerKind

variable {name : String} {owner : Owner} {text : List Char} {organisation : Option String}

/-! ## Handles -/

theorem mem_handle {c : Char} (hc : c ≠ '@') (h : c ∈ owner.name.toList) : c ∈ owner.handle := by
  rw [← List.takeWhile_append_dropWhile (p := (· == '@')) (l := owner.name.toList)] at h
  rcases List.mem_append.mp h with h | h
  · exact absurd (by simpa using List.mem_takeWhile_imp h) hc
  · exact h

theorem handle_ofName (name : String) : (ofName name).handle = name.toList.dropWhile (· == '@') := rfl

/-- A text that does not begin with an `@` is its own handle. -/
theorem dropWhile_of_head (h : text.head? ≠ some '@') : text.dropWhile (· == '@') = text := by
  cases text with
  | nil => rfl
  | cons c text =>
    have hc : c ≠ '@' := fun hc => h (congrArg some hc)
    exact List.dropWhile_cons_of_neg (by simpa using hc)

theorem dropWhile_append_of_head {rest : List Char} (h : rest.head? ≠ some '@') :
    (text ++ rest).dropWhile (· == '@') = text.dropWhile (· == '@') ++ rest := by
  rw [List.dropWhile_append]
  split
  · next hempty => rw [List.isEmpty_iff.mp hempty, dropWhile_of_head h, List.nil_append]
  · rfl

theorem handle_of_head (h : owner.name.toList.head? ≠ some '@') : owner.handle = owner.name.toList :=
  dropWhile_of_head h

/-- What is left of a name without the `@`s at its front. -/
structure IsHandle (name handle : List Char) : Prop where
  cut : ∃ ats, name = ats ++ handle ∧ ∀ c ∈ ats, c = '@'
  first : handle.head? ≠ some '@'

theorem isHandle_iff {handle : List Char} : IsHandle name.toList handle ↔ (ofName name).handle = handle := by
  rw [handle_ofName]
  constructor
  · rintro ⟨⟨ats, hname, hats⟩, hfirst⟩
    rw [hname, List.dropWhile_append_of_pos (by simpa using hats), dropWhile_of_head hfirst]
  · rintro rfl
    refine ⟨⟨_, List.takeWhile_append_dropWhile.symm, fun c hc => ?_⟩, fun hfirst => ?_⟩
    · simpa using List.mem_takeWhile_imp hc
    · have hhead := List.head?_dropWhile_not (· == '@') name.toList
      rw [show (name.toList.dropWhile (· == '@')).head? = some '@' from hfirst] at hhead
      simp at hhead

/-! ## Bare names -/

/-- A name of letters, numbers, `-` and `_`. -/
structure IsBareName (name : List Char) : Prop where
  ne_nil : name ≠ []
  nameChars : ∀ c ∈ name, isNameChar c = true

theorem isNameChar_of_isBlank {c : Char} (hc : Text.isBlank c = true) : isNameChar c = false := by
  have hdash : c ≠ '-' := by
    rintro rfl
    exact absurd hc (by decide)
  have hunderscore : c ≠ '_' := by
    rintro rfl
    exact absurd hc (by decide)
  simp [isNameChar, Text.isAlphanumeric_of_isBlank hc, hdash, hunderscore]

theorem not_isNameChar_slash : isNameChar '/' = false := by decide +kernel

theorem not_isNameChar_at : isNameChar '@' = false := by decide +kernel

theorem IsBareName.not_mem {c : Char} (h : IsBareName text) (hc : isNameChar c = false) : c ∉ text :=
  fun hmem => Bool.false_ne_true (hc.symm.trans (h.nameChars c hmem))

theorem IsBareName.head? (h : IsBareName text) : text.head? ≠ some '@' :=
  fun hhead => h.not_mem not_isNameChar_at (List.mem_of_head? hhead)

theorem isBareTeam_iff : owner.isBareTeam = true ↔ IsBareName owner.name.toList := by
  have hiff : owner.isBareTeam = true ↔ owner.handle ≠ [] ∧ owner.name.toList.head? ≠ some '@' ∧
      ∀ c ∈ owner.handle, isNameChar c = true := by
    simp [isBareTeam, and_assoc]
  rw [hiff]
  constructor
  · rintro ⟨hne, hhead, hchars⟩
    rw [handle_of_head hhead] at hne hchars
    exact ⟨hne, hchars⟩
  · intro h
    rw [handle_of_head h.head?]
    exact ⟨h.ne_nil, h.head?, h.nameChars⟩

/-! ## The kinds of names -/

/-- A shape has a `/` or an `@`. -/
theorem mem_of_hasShape {kind : OwnerKind} (h : HasShape kind text) : '/' ∈ text ∨ '@' ∈ text := by
  cases h <;> simp

theorem slash_mem_of_hasShape (h : HasShape .team text) : '/' ∈ text := by
  cases h <;> simp

theorem kind_of_isBareName (h : IsBareName name.toList) : (ofName name).kind = .unknown := by
  refine ofTrimmed_eq_unknown_iff.mpr (.inr fun kind hshape => ?_)
  rcases mem_of_hasShape hshape with hmem | hmem
  · exact h.not_mem not_isNameChar_slash (Text.mem_of_mem_trim hmem)
  · exact h.not_mem not_isNameChar_at (Text.mem_of_mem_trim hmem)

/-- The name of a team has a `/`, whatever stands around it. -/
theorem exists_split_of_team (h : (ofName name).kind = .team) :
    ∃ parts, Text.splitFirst? '/' (ofName name).handle = some parts := by
  have hslash : '/' ∈ Text.trim name.toList := slash_mem_of_hasShape ((ofTrimmed_eq_iff (by decide)).mp h).2
  have hmem : '/' ∈ (ofName name).handle := mem_handle (by decide) (Text.mem_of_mem_trim hslash)
  rw [← Option.ne_none_iff_exists', Ne, Text.splitFirst?_eq_none_iff, not_not]
  exact hmem

/-! ## Pages -/

theorem page_of_user (h : owner.kind = .user) (organisation : Option String) :
    owner.page? organisation = some ("https://github.com/" ++ String.ofList owner.handle) := by
  unfold page? userPage
  rw [h]

theorem page_of_email (h : owner.kind = .email) (organisation : Option String) : owner.page? organisation = none := by
  simp only [page?, h]

theorem page_of_team {front team : List Char} (h : owner.kind = .team)
    (hsplit : Text.splitFirst? '/' owner.handle = some (front, team)) (organisation : Option String) :
    owner.page? organisation =
      some ("https://github.com/orgs/" ++ String.ofList front ++ "/teams/" ++ String.ofList team) := by
  unfold page? teamPage
  simp only [h, hsplit, Option.map_some]

theorem page_none_of_unknown (h : owner.kind = .unknown) : owner.page? none = none := by
  simp only [page?, h]

theorem page_some_of_unknown (h : owner.kind = .unknown) (organisation : String) :
    owner.page? (some organisation) =
      if owner.isBareTeam then some (teamPage organisation owner.handle) else none := by
  simp only [page?, h]

/-- The name of a user or a team. -/
def HasOwnPage (owner : Owner) : Prop := owner.kind = .user ∨ owner.kind = .team

/-- A user and a team have a page, the same for every organisation. -/
theorem exists_page_of_hasOwnPage (h : (ofName name).HasOwnPage) :
    ∃ page, ∀ organisation, (ofName name).page? organisation = some page := by
  rcases h with h | h
  · exact ⟨_, page_of_user h⟩
  · obtain ⟨parts, hsplit⟩ := exists_split_of_team h
    exact ⟨_, page_of_team h hsplit⟩

theorem page_of_isBareName (h : IsBareName name.toList) (organisation : String) :
    (ofName name).page? (some organisation) =
      some ("https://github.com/orgs/" ++ organisation ++ "/teams/" ++ name) := by
  rw [page_some_of_unknown (kind_of_isBareName h), if_pos (isBareTeam_iff.mpr h), handle_ofName,
    dropWhile_of_head h.head?]
  unfold teamPage
  rw [String.ofList_toList]

/-- Of the other names only a bare one has a page, and that in an organisation only. -/
theorem page_of_not_hasOwnPage (h : ¬owner.HasOwnPage)
    (hbare : organisation = none ∨ ¬IsBareName owner.name.toList) : owner.page? organisation = none := by
  cases hkind : owner.kind with
  | user => exact absurd (.inl hkind) h
  | team => exact absurd (.inr hkind) h
  | email => exact page_of_email hkind organisation
  | unknown =>
    cases organisation with
    | none => exact page_none_of_unknown hkind
    | some organisation =>
      have hname := hbare.resolve_left (Option.some_ne_none organisation)
      rw [page_some_of_unknown hkind, if_neg (isBareTeam_iff.not.mpr hname)]

/-- A user has the page of what follows the `@`. -/
theorem page_of_userShape (hkind : (ofName name).kind = .user) (hshape : HasShape .user name.toList) :
    ∃ user, IsPart user ∧ name.toList = '@' :: user ∧
      ∀ organisation, (ofName name).page? organisation = some ("https://github.com/" ++ String.ofList user) := by
  generalize htext : name.toList = text at hshape
  cases hshape with
  | @user user huser =>
    have hhandle : (ofName name).handle = user :=
      isHandle_iff.mp ⟨⟨['@'], htext, by simp⟩, fun hfirst => huser.noAt (List.mem_of_head? hfirst)⟩
    exact ⟨user, huser, rfl, hhandle ▸ page_of_user hkind⟩

/-- A team has the page of its two parts. -/
theorem page_of_teamShape (hkind : (ofName name).kind = .team) (hshape : HasShape .team name.toList) :
    ∃ front team, IsPart front ∧ IsPart team ∧
      (name.toList = front ++ '/' :: team ∨ name.toList = '@' :: (front ++ '/' :: team)) ∧
      ∀ organisation, (ofName name).page? organisation =
        some ("https://github.com/orgs/" ++ String.ofList front ++ "/teams/" ++ String.ofList team) := by
  generalize htext : name.toList = text at hshape
  cases hshape with
  | @bareTeam front team hfront hteam =>
    have hhandle : (ofName name).handle = front ++ '/' :: team := by
      rw [handle_of_head (htext ▸ head?_append_ne_at hfront.ne_nil hfront.noAt _)]
      exact htext
    refine ⟨front, team, hfront, hteam, .inl rfl, page_of_team hkind ?_⟩
    rw [hhandle, Text.splitFirst?_append hfront.noSlash]
  | @team front team hfront hteam =>
    have hhandle : (ofName name).handle = front ++ '/' :: team := by
      rw [handle, ofName, htext, List.dropWhile_cons_of_pos rfl,
        dropWhile_of_head (head?_append_ne_at hfront.ne_nil hfront.noAt _)]
    refine ⟨front, team, hfront, hteam, .inr rfl, page_of_team hkind ?_⟩
    rw [hhandle, Text.splitFirst?_append hfront.noSlash]

/-- **The kind of a name decides whether there is a page.** By itself a user or a team has a page, and no other name.
With an organisation a bare name has one too: that of the team of this name in the organisation. The page of a user or
a team is the same with every organisation; without white space around the name it is that of the user, or of the team
and its organisation. -/
theorem page_of_kind (name : String) :
    (((ofName name).page? none).isSome = true ↔
      (ofName name).kind = .user ∨ (ofName name).kind = .team) ∧
    (∀ organisation, ((ofName name).page? (some organisation)).isSome = true ↔
      (ofName name).kind = .user ∨ (ofName name).kind = .team ∨ IsBareName name.toList) ∧
    (IsBareName name.toList → ∀ organisation, (ofName name).page? (some organisation) =
      some ("https://github.com/orgs/" ++ organisation ++ "/teams/" ++ name)) ∧
    ((ofName name).kind = .user ∨ (ofName name).kind = .team → ∀ organisation,
      (ofName name).page? organisation = (ofName name).page? none) ∧
    ((ofName name).kind = .user → Text.trim name.toList = name.toList → ∃ user, IsPart user ∧
      name.toList = '@' :: user ∧
      ∀ organisation, (ofName name).page? organisation = some ("https://github.com/" ++ String.ofList user)) ∧
    ((ofName name).kind = .team → Text.trim name.toList = name.toList → ∃ front team, IsPart front ∧ IsPart team ∧
      (name.toList = front ++ '/' :: team ∨ name.toList = '@' :: (front ++ '/' :: team)) ∧
      ∀ organisation, (ofName name).page? organisation =
        some ("https://github.com/orgs/" ++ String.ofList front ++ "/teams/" ++ String.ofList team)) := by
  refine ⟨?_, fun organisation => ?_, page_of_isBareName, fun h organisation => ?_, fun hkind htrim => ?_,
    fun hkind htrim => ?_⟩
  · by_cases h : (ofName name).HasOwnPage
    · obtain ⟨page, hpage⟩ := exists_page_of_hasOwnPage h
      exact iff_of_true (by rw [hpage]; rfl) h
    · exact iff_of_false (by rw [page_of_not_hasOwnPage h (.inl rfl)]; simp) h
  · rw [← or_assoc]
    by_cases h : (ofName name).HasOwnPage
    · obtain ⟨page, hpage⟩ := exists_page_of_hasOwnPage h
      exact iff_of_true (by rw [hpage]; rfl) (.inl h)
    · by_cases hbare : IsBareName name.toList
      · exact iff_of_true (by rw [page_of_isBareName hbare]; rfl) (.inr hbare)
      · exact iff_of_false (by rw [page_of_not_hasOwnPage h (.inr hbare)]; simp) (not_or.mpr ⟨h, hbare⟩)
  · obtain ⟨page, hpage⟩ := exists_page_of_hasOwnPage h
    rw [hpage, hpage]
  · exact page_of_userShape hkind (htrim ▸ ((ofTrimmed_eq_iff (by decide)).mp hkind).2)
  · exact page_of_teamShape hkind (htrim ▸ ((ofTrimmed_eq_iff (by decide)).mp hkind).2)

/-- A user, a team with an `@` in front, and a bare name with a letter that is not ASCII. -/
theorem page_of_kind_names :
    (ofName "@octocat").kind = .user ∧ Text.trim "@octocat".toList = "@octocat".toList ∧
    (∀ organisation, (ofName "@octocat").page? organisation = some "https://github.com/octocat") ∧
    (ofName "@github/docs").kind = .team ∧ Text.trim "@github/docs".toList = "@github/docs".toList ∧
    (∀ organisation, (ofName "@github/docs").page? organisation = some "https://github.com/orgs/github/teams/docs") ∧
    IsBareName "équipe-1".toList ∧ (ofName "équipe-1").page? none = none ∧
    (ofName "équipe-1").page? (some "acme") = some "https://github.com/orgs/acme/teams/équipe-1" := by
  obtain ⟨-, -, -, -, huser, -⟩ := page_of_kind "@octocat"
  obtain ⟨-, -, -, -, -, hteam⟩ := page_of_kind "@github/docs"
  obtain ⟨hown, -, hname, -⟩ := page_of_kind "équipe-1"
  have hkind : (ofName "@octocat").kind = .user := by decide
  have htrim : Text.trim "@octocat".toList = "@octocat".toList := by decide
  have hkind' : (ofName "@github/docs").kind = .team := by decide
  have htrim' : Text.trim "@github/docs".toList = "@github/docs".toList := by decide
  have hbare : IsBareName "équipe-1".toList := ⟨by decide, List.all_eq_true.mp (by decide +kernel)⟩
  have hnone : (ofName "équipe-1").page? none = none := by
    rw [← Option.not_isSome_iff_eq_none, hown]
    decide +kernel
  refine ⟨hkind, htrim, ?_, hkind', htrim', ?_, hbare, hnone, hname hbare "acme"⟩
  · obtain ⟨user, -, hsplit, hpage⟩ := huser hkind htrim
    obtain rfl : "octocat".toList = user := (List.cons.inj hsplit).2
    exact hpage
  · obtain ⟨front, team, hfront, -, hsplit | hsplit, hpage⟩ := hteam hkind' htrim'
    · have hhead : (front ++ '/' :: team).head? = some '@' := hsplit ▸ rfl
      exact absurd hhead (head?_append_ne_at hfront.ne_nil hfront.noAt _)
    · -- The organisation has no `/`, so it ends at the first one.
      have hfirst := Text.splitFirst?_append hfront.noSlash team
      rw [← (List.cons.inj hsplit).2] at hfirst
      obtain ⟨rfl, rfl⟩ : "github".toList = front ∧ "docs".toList = team := Prod.mk.inj (Option.some.inj hfirst)
      exact hpage

/-! ## White space around names -/

/-- A name without the white space around it. -/
def trimmed (name : String) : String := String.ofList (Text.trim name.toList)

theorem toList_trimmed (name : String) : (trimmed name).toList = Text.trim name.toList := String.toList_ofList

theorem classify_trimmed (name : String) : classify (trimmed name) = classify name := by
  simp only [classify, toList_trimmed, Text.trim_trim]

theorem kind_trimmed (name : String) : (ofName (trimmed name)).kind = (ofName name).kind := by
  simp only [ofName, classify_trimmed]

/-- A name with white space around it, in parts. -/
theorem exists_blanks (h : trimmed name ≠ name) : ∃ before after, before ++ after ≠ [] ∧
    name.toList = before ++ ((trimmed name).toList ++ after) ∧ ∀ c ∈ before ++ after, Text.isBlank c = true := by
  obtain ⟨⟨before, after, hname, hbefore, hafter⟩, -⟩ := Text.isCore_trim name.toList
  rw [← toList_trimmed] at hname
  refine ⟨before, after, fun hnil => ?_, hname, fun c hc => (List.mem_append.mp hc).elim (hbefore c) (hafter c)⟩
  obtain ⟨rfl, rfl⟩ := List.append_eq_nil_iff.mp hnil
  exact h (String.toList_injective (by simpa using hname.symm))

theorem not_isBareName_of_ne (h : trimmed name ≠ name) : ¬IsBareName name.toList := by
  obtain ⟨before, after, hne, hname, hblanks⟩ := exists_blanks h
  obtain ⟨c, hc⟩ := List.exists_mem_of_ne_nil _ hne
  have hmem : c ∈ name.toList := by
    rw [hname]
    simp only [List.mem_append] at hc ⊢
    exact hc.imp_right .inr
  exact fun hbare => hbare.not_mem (isNameChar_of_isBlank (hblanks c hc)) hmem

/-- What is put around a text, in front or behind, is not taken away with the `@`s at the front. -/
theorem length_dropWhile_lt {before after : List Char} (hne : before ++ after ≠ []) (hat : '@' ∉ before ++ after)
    (kept : List Char) :
    (kept.dropWhile (· == '@')).length < ((before ++ (kept ++ after)).dropWhile (· == '@')).length := by
  obtain ⟨hatBefore, hatAfter⟩ : '@' ∉ before ∧ '@' ∉ after := by simpa using hat
  by_cases hbefore : before = []
  · subst hbefore
    rw [List.nil_append] at hne
    rw [List.nil_append, dropWhile_append_of_head fun h => hatAfter (List.mem_of_head? h), List.length_append]
    exact Nat.lt_add_of_pos_right (List.length_pos_iff.mpr hne)
  · have hle : (kept.dropWhile (· == '@')).length ≤ kept.length := (List.dropWhile_sublist _).length_le
    have hpos := List.length_pos_iff.mpr hbefore
    rw [dropWhile_of_head (head?_append_ne_at hbefore hatBefore _), List.length_append, List.length_append]
    omega

/-- White space around a name is part of its handle. -/
theorem length_handle_lt (h : trimmed name ≠ name) :
    (ofName (trimmed name)).handle.length < (ofName name).handle.length := by
  obtain ⟨before, after, hne, hname, hblanks⟩ := exists_blanks h
  have hat : '@' ∉ before ++ after := fun hmem => absurd (hblanks '@' hmem) (by decide)
  rw [handle_ofName, handle_ofName, hname]
  exact length_dropWhile_lt hne hat _

/-! ## Pages tell handles apart -/

theorem userPage_inj {user user' : List Char} (h : userPage user = userPage user') : user = user' :=
  String.ofList_injective ((String.append_right_inj _).mp h)

theorem teamPage_ofList (front team : List Char) : teamPage (String.ofList front) team =
    "https://github.com/orgs/" ++ String.ofList (front ++ '/' :: ("teams/".toList ++ team)) := by
  have hteams : "/teams/" = String.ofList ('/' :: "teams/".toList) := by decide
  show "https://github.com/orgs/" ++ String.ofList front ++ "/teams/" ++ String.ofList team = _
  rw [hteams, String.append_assoc, String.append_assoc, ← String.ofList_append, ← String.ofList_append]
  rfl

/-- The name of an organisation ends at the first `/` of what the page adds. -/
theorem teamPage_inj {front front' team team' : List Char} (hfront : '/' ∉ front) (hfront' : '/' ∉ front')
    (h : teamPage (String.ofList front) team = teamPage (String.ofList front') team') :
    front = front' ∧ team = team' := by
  rw [teamPage_ofList, teamPage_ofList, String.append_right_inj] at h
  have hsplit := congrArg (Text.splitFirst? '/') (String.ofList_injective h)
  rw [Text.splitFirst?_append hfront, Text.splitFirst?_append hfront', Option.some.injEq, Prod.mk.injEq] at hsplit
  exact ⟨hsplit.1, List.append_cancel_left hsplit.2⟩

theorem handle_eq_of_page_eq {name' : String} (hkind : (ofName name').kind = (ofName name).kind)
    (hown : (ofName name).HasOwnPage) (h : (ofName name).page? organisation = (ofName name').page? organisation) :
    (ofName name).handle = (ofName name').handle := by
  rcases hown with huser | hteam
  · rw [page_of_user huser, page_of_user (hkind.trans huser), Option.some.injEq] at h
    exact userPage_inj h
  · obtain ⟨⟨front, team⟩, hsplit⟩ := exists_split_of_team hteam
    obtain ⟨⟨front', team'⟩, hsplit'⟩ := exists_split_of_team (hkind.trans hteam)
    rw [page_of_team hteam hsplit, page_of_team (hkind.trans hteam) hsplit', Option.some.injEq] at h
    obtain ⟨hhandle, hfront⟩ := Text.splitFirst?_eq_some_iff.mp hsplit
    obtain ⟨hhandle', hfront'⟩ := Text.splitFirst?_eq_some_iff.mp hsplit'
    obtain ⟨rfl, rfl⟩ := teamPage_inj hfront hfront' h
    exact hhandle.trans hhandle'.symm

/-- **White space around a name does not change its kind, but it does change its page.** The page is that of the name
without the white space only if there is none around it, or if the name without it has no page. -/
theorem page_trimmed_iff (name : String) (organisation : Option String) :
    classify name = classify (trimmed name) ∧
    ((ofName name).page? organisation = (ofName (trimmed name)).page? organisation ↔
      trimmed name = name ∨ (ofName (trimmed name)).page? organisation = none) := by
  refine ⟨(classify_trimmed name).symm, ?_⟩
  by_cases hsame : trimmed name = name
  · rw [hsame]
    exact iff_of_true rfl (.inl rfl)
  rw [or_iff_right hsame]
  by_cases hown : (ofName name).HasOwnPage
  · refine iff_of_false (fun hpage => ?_) (fun hnone => ?_)
    · have hlt := length_handle_lt hsame
      rw [handle_eq_of_page_eq (kind_trimmed name) hown hpage] at hlt
      exact lt_irrefl _ hlt
    · have hown' : (ofName (trimmed name)).HasOwnPage := by rwa [HasOwnPage, kind_trimmed]
      obtain ⟨page, hpage⟩ := exists_page_of_hasOwnPage hown'
      rw [hpage] at hnone
      cases hnone
  · rw [page_of_not_hasOwnPage hown (.inr (not_isBareName_of_ne hsame))]
    exact eq_comm

/-- A user with white space around the name is a user, but has another page than the user of that name. -/
theorem page_ne_page_trimmed :
    trimmed " @octocat " = "@octocat" ∧ classify " @octocat " = .user ∧
    (ofName " @octocat ").page? none = some "https://github.com/ @octocat " ∧
    (ofName (trimmed " @octocat ")).page? none = some "https://github.com/octocat" := by
  decide +kernel

end PathOwners.Owner
