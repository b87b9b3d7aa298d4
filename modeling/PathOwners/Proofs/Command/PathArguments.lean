import PathOwners.Proofs.Command.Options

/-!
# Paths among the arguments

An argument that does not begin with a dash is a path wherever no value is awaited. Paths that are put among arguments
which name none are the paths of the command line, and change nothing else about its options (`Options.read_insert`).
-/

namespace PathOwners.Command

variable {argument path : String} {rest before after paths : List String} {given : List Argument}

/-! ## Reading arguments one after the other -/

theorem readArguments_of_complete {read : Argument} (hne : argument ≠ "--")
    (hform : formOf argument = .ok (.complete read)) (rest : List String) :
    readArguments (argument :: rest) = (readArguments rest).map (read :: ·) := by
  rw [readArguments.eq_3 _ _ hne, hform]

theorem readArguments_of_awaits {option : ValueOption} {value : String} (hne : argument ≠ "--")
    (hform : formOf argument = .ok (.awaitsValue option)) (hvalue : canBeValue value = true) (rest : List String) :
    readArguments (argument :: value :: rest) = (readArguments rest).map (.value option value :: ·) := by
  rw [readArguments.eq_3 _ _ hne, hform]
  exact if_pos hvalue

/-- **Arguments are read from left to right**: what follows some that are complete is read by itself or, if there are
only paths after them, as paths. -/
theorem readArguments_append (h : readArguments before = .ok given) :
    (∀ rest, readArguments (before ++ rest) = (readArguments rest).map (given ++ ·)) ∨
      ∀ rest, readArguments (before ++ rest) = .ok (given ++ rest.map .path) := by
  fun_induction readArguments before generalizing given with
  | case1 =>
    obtain rfl := Except.ok.inj h
    exact .inl fun rest => (congrFun Except.map_id _).symm
  | case2 later =>
    obtain rfl := Except.ok.inj h
    refine .inr fun rest => ?_
    rw [List.cons_append, readArguments, List.map_append]
  | case3 => cases h
  | case4 argument later hne read hform ih =>
    obtain ⟨given, hgiven, rfl⟩ := Except.map_eq_ok_iff.mp h
    have hread := readArguments_of_complete hne hform
    refine (ih hgiven).imp (fun hrest rest => ?_) fun hrest rest => ?_
    · rw [List.cons_append, hread, hrest, Except.map_map]
      rfl
    · rw [List.cons_append, hread, hrest]
      rfl
  | case5 => cases h
  | case6 argument hne option hform value later hvalue ih =>
    obtain ⟨given, hgiven, rfl⟩ := Except.map_eq_ok_iff.mp h
    have hread := readArguments_of_awaits hne hform hvalue
    refine (ih hgiven).imp (fun hrest rest => ?_) fun hrest rest => ?_
    · rw [List.cons_append, List.cons_append, hread, hrest, Except.map_map]
      rfl
    · rw [List.cons_append, List.cons_append, hread, hrest]
      rfl
  | case7 => cases h

/-- An argument without a dash in front is a path. -/
theorem formOf_path (hdash : path.toList.head? ≠ some '-') : formOf path = .ok (.complete (.path path)) := by
  unfold formOf
  split
  all_goals first | rfl | simp_all

theorem readArguments_paths (hdash : ∀ path ∈ paths, path.toList.head? ≠ some '-') (rest : List String) :
    readArguments (paths ++ rest) = (readArguments rest).map (paths.map .path ++ ·) := by
  induction paths with
  | nil => exact (congrFun Except.map_id _).symm
  | cons path paths ih =>
    obtain ⟨hpath, hpaths⟩ := List.forall_mem_cons.mp hdash
    have hne : path ≠ "--" := by
      rintro rfl
      exact hpath rfl
    rw [List.cons_append, readArguments_of_complete hne (formOf_path hpath), ih hpaths, Except.map_map]
    rfl

/-! ## Options without paths -/

/-- The arguments that are no paths. -/
def withoutPaths (given : List Argument) : List Argument := given.filter (·.path?.isNone)

theorem givenValue_withoutPaths (option : ValueOption) (given : List Argument) :
    givenValue option (withoutPaths given) = givenValue option given := by
  have hvalues : (withoutPaths given).filterMap (·.valueOf? option) = given.filterMap (·.valueOf? option) := by
    rw [withoutPaths, List.filterMap_filter]
    refine List.filterMap_congr fun argument _ => ?_
    cases argument <;> rfl
  rw [givenValue, hvalues, givenValue]

theorem givenSwitch_withoutPaths (switch : Switch) (given : List Argument) :
    givenSwitch switch (withoutPaths given) = givenSwitch switch given := by
  rw [givenSwitch, withoutPaths, List.count_filter rfl, givenSwitch]

/-- **Paths say nothing about the other options** -/
theorem ofArguments_withoutPaths (given : List Argument) (environment : String → Option String) :
    Options.ofArguments given environment =
      (Options.ofArguments (withoutPaths given) environment).map fun options =>
        { options with paths := given.filterMap Argument.path? } := by
  unfold Options.ofArguments
  simp only [givenValue_withoutPaths, givenSwitch_withoutPaths]
  change _ = (fun options : Options => { options with paths := given.filterMap Argument.path? }) <$> _
  simp only [map_bind]
  repeat (refine bind_congr fun _ => ?_)
  split_ifs <;> rfl

/-! ## Paths between arguments -/

theorem withoutPaths_append (given later : List Argument) :
    withoutPaths (given ++ later) = withoutPaths given ++ withoutPaths later := List.filter_append ..

theorem withoutPaths_paths (paths : List String) : withoutPaths (paths.map .path) = [] := by
  simp [withoutPaths, Argument.path?]

theorem filterMap_paths (paths : List String) : (paths.map Argument.path).filterMap Argument.path? = paths := by
  simp [List.filterMap_map, Function.comp_def, Argument.path?]

/-- Arguments are read in the same way with some paths between them and without. -/
theorem exists_readArguments_insert (hbefore : readArguments before = .ok given)
    (hnone : ∀ read, readArguments (before ++ after) = .ok read → ∀ path, .path path ∉ read)
    (hdash : ∀ path ∈ paths, path.toList.head? ≠ some '-') : ∃ later : Except UsageError (List Argument),
      readArguments (before ++ after) = later.map (given ++ ·) ∧
        readArguments (before ++ (paths ++ after)) = later.map fun read => given ++ (paths.map .path ++ read) := by
  rcases readArguments_append hbefore with hrest | hrest
  · refine ⟨readArguments after, hrest after, ?_⟩
    rw [hrest, readArguments_paths hdash, Except.map_map]
  · -- After two dashes the rest would be paths, so there is nothing there but the paths put in.
    have hafter : after = [] := by
      refine List.eq_nil_iff_forall_not_mem.mpr fun path hpath => ?_
      exact hnone _ (hrest after) path (List.mem_append_right _ (List.mem_map_of_mem hpath))
    subst hafter
    refine ⟨.ok [], hrest [], ?_⟩
    rw [List.append_nil, hrest]
    simp only [Except.map, List.append_nil]

/-- **Paths put among arguments that name none are the paths of the command line**, and the other options are the
same. -/
theorem Options.read_insert (hbefore : readArguments before = .ok given)
    (hnone : ∀ read, readArguments (before ++ after) = .ok read → ∀ path, .path path ∉ read)
    (hdash : ∀ path ∈ paths, path.toList.head? ≠ some '-') (environment : String → Option String) :
    Options.read (before ++ (paths ++ after)) environment =
      (Options.read (before ++ after) environment).map fun options => { options with paths } := by
  obtain ⟨later, hread, hinsert⟩ := exists_readArguments_insert hbefore hnone hdash
  unfold Options.read
  rw [hread, hinsert]
  cases later with
  | error e => rfl
  | ok later =>
    have hempty := filterMap_path_eq_nil_iff.mpr (hnone _ hread)
    obtain ⟨hgiven, hlater⟩ := List.append_eq_nil_iff.mp (List.filterMap_append.symm.trans hempty)
    have hpaths : (given ++ (paths.map Argument.path ++ later)).filterMap Argument.path? = paths := by
      rw [List.filterMap_append, List.filterMap_append, hgiven, hlater, filterMap_paths, List.nil_append,
        List.append_nil]
    have hwithout : withoutPaths (given ++ (paths.map .path ++ later)) = withoutPaths (given ++ later) := by
      rw [withoutPaths_append, withoutPaths_append, withoutPaths_paths, List.nil_append, withoutPaths_append]
    change Options.ofArguments (given ++ (paths.map .path ++ later)) environment =
      (Options.ofArguments (given ++ later) environment).map _
    rw [ofArguments_withoutPaths, hwithout, hpaths, ofArguments_withoutPaths (given ++ later), Except.map_map]

end PathOwners.Command
