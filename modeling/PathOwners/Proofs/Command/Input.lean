import PathOwners.Proofs.Command.ListedPaths
import PathOwners.Proofs.Command.Options
import PathOwners.Proofs.Command.PathArguments
import PathOwners.Proofs.Files

/-!
# Paths on standard input

Paths that a text on standard input lists are resolved as those among the arguments are, so a run has the same outcome
with the paths in the one place and in the other (`run_paths_listed`).
-/

namespace PathOwners.Command

/-- A path that is read as it is written, as an argument and on a line: not empty, without a line feed, without white
space at its ends, and without a dash in front. -/
structure IsPlainPath (path : String) : Prop extends IsBarePath path where
  dash : path.toList.head? ≠ some '-'

theorem IsPlainPath.of_ends {path : String} {first last : Char} (hne : path ≠ "") (hnewline : '\n' ∉ path.toList)
    (hfirst : path.toList.head? = some first) (hlast : path.toList.getLast? = some last)
    (hblank : Text.isBlank first = false) (hblank' : Text.isBlank last = false) (hdash : first ≠ '-') :
    IsPlainPath path :=
  ⟨⟨hne, hnewline, by simpa [hfirst], by simpa [hlast]⟩, by simpa [hfirst]⟩

/-! ## Runs -/

/-- A run depends on its paths and on standard input by the paths to resolve alone. -/
theorem run_of_inputPaths {options : Options} {paths : List String} {input input' : ByteArray}
    (h : inputPaths { options with paths } input = inputPaths options input') (files : Files) :
    run { options with paths } files input = run options files input' := by
  have hrules : rulesPath { options with paths } files = rulesPath options files := rfl
  have hlines : pathLines { options with paths } = pathLines options := rfl
  have hrun : ∀ path set, runRules { options with paths } path set input = runRules options path set input' := by
    intro path set
    unfold runRules
    rw [h, hlines]
  unfold run
  simp only [hrules, hrun]

/-- **Paths are resolved alike as arguments and on standard input.** Whatever else the arguments say, a run with paths
among them has the same outcome as one without them and with a text on standard input that lists the paths: it fails in
the same way or prints the same, and unusable arguments are refused in the same way. -/
theorem run_paths_listed {before after paths : List String} {given : List Argument} {text : String}
    (hbefore : readArguments before = .ok given)
    (hnone : ∀ read, readArguments (before ++ after) = .ok read → ∀ path, .path path ∉ read) (hne : paths ≠ [])
    (hpaths : ∀ path ∈ paths, IsPlainPath path) (htext : ListsPaths paths text.toList)
    (environment : String → Option String) (files : Files) (input : ByteArray) :
    (Options.read (before ++ (paths ++ after)) environment).map (run · files input) =
      (Options.read (before ++ after) environment).map (run · files text.toUTF8) := by
  rw [Options.read_insert hbefore hnone (fun path hpath => (hpaths path hpath).dash), Except.map_map]
  cases hread : Options.read (before ++ after) environment with
  | error e => rfl
  | ok options =>
    obtain ⟨read, hgiven, hsaid⟩ := Options.says_of_read hread
    have hempty : options.paths = [] := by rw [hsaid.paths, filterMap_path_eq_nil_iff.mpr (hnone read hgiven)]
    have hinput : inputPaths { options with paths } input = inputPaths options text.toUTF8 := by
      have hlisted := pathsOfText_of_lists htext fun path hpath => (hpaths path hpath).toIsBarePath
      simp only [inputPaths, hempty, decodeText_eq_ok_iff.mpr rfl, hlisted]
      simp [hne]
    exact congrArg Except.ok (run_of_inputPaths hinput files)

/-- Two paths between other arguments, and on lines that end in different ways, with blank lines around them. -/
theorem run_paths_listed_padded :
    let before := ["--all-matching-rules"]
    let paths := ["src/a.rs", "b"]
    let after := ["-f", "rules"]
    let text := "\t\nsrc/a.rs \r\n\u3000\n\u2003b"
    let files := (FileTree.ofList [("rules", .file "src/ @a\n* @b\n".toUTF8)]).files
    readArguments before = .ok [.switch .allMatchingRules] ∧
      readArguments (before ++ after) = .ok [.switch .allMatchingRules, .value .file "rules"] ∧
      (∀ path ∈ paths, IsPlainPath path) ∧ ListsPaths paths text.toList ∧
      (Options.read (before ++ (paths ++ after)) fun _ => none).map (run · files .empty) =
        (Options.read (before ++ after) fun _ => none).map (run · files text.toUTF8) := by
  intro before paths after text files
  have hbefore : readArguments before = .ok [.switch .allMatchingRules] := rfl
  have hread : readArguments (before ++ after) = .ok [.switch .allMatchingRules, .value .file "rules"] := rfl
  have hnone : ∀ read, readArguments (before ++ after) = .ok read → ∀ path, .path path ∉ read := by
    intro read h
    obtain rfl := Except.ok.inj (hread.symm.trans h)
    simp
  have hpaths : ∀ path ∈ paths, IsPlainPath path := by
    intro path hpath
    rcases List.mem_pair.mp hpath with rfl | rfl
    · exact .of_ends (by decide) (by decide) rfl rfl (by decide) (by decide) (by decide)
    · exact .of_ends (by decide) (by decide) rfl rfl (by decide) (by decide) (by decide)
  have hsingle : ∀ {c : Char}, Text.isBlank c = true → ∀ d ∈ [c], Text.isBlank d = true := by simp
  have hblank : IsInputLine none ['\t'] := .blank (hsingle (by decide))
  have hblank' : IsInputLine none ['\u3000'] := .blank (hsingle (by decide))
  have hfirst : IsInputLine (some "src/a.rs") ([] ++ ("src/a.rs".toList ++ [' '])) :=
    .path (List.forall_mem_nil _) (hsingle (by decide))
  have hlast : IsInputLine (some "b") (['\u2003'] ++ ("b".toList ++ [])) :=
    .path (hsingle (by decide)) (List.forall_mem_nil _)
  have hlists : ListsPaths paths _ :=
    .line hblank (by decide) (.inl rfl) <| .line hfirst (by decide) (.inr rfl) <|
      .line hblank' (by decide) (.inl rfl) <| .last hlast (by decide)
  have htext : ListsPaths paths text.toList := by
    refine (congrArg (ListsPaths paths) ?_).mp hlists
    decide
  exact ⟨hbefore, hread, hpaths, htext,
    run_paths_listed hbefore hnone (List.cons_ne_nil _ _) hpaths htext (fun _ => none) files .empty⟩

end PathOwners.Command
