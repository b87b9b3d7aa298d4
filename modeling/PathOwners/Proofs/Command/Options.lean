import Mathlib.Data.List.Basic
import PathOwners.Command.Options
import PathOwners.Proofs.Except

/-!
# What the options say

The options of a command line that is accepted, said of its arguments: which value an option has, whether a switch is
given, and which paths are (`Options.Says`). Options and switches are given once at most, so each of them has one value
(`Options.says_of_read`).
-/

namespace PathOwners.Command

variable {given : List Argument} {environment : String → Option String} {options : Options}

/-! ## Values and switches -/

/-- The value of an option: one of the arguments, or the variable that stands in for it if no argument gives one. -/
def GivesValue (given : List Argument) (option : ValueOption) (fallback : Option String) (text : String) : Prop :=
  .value option text ∈ given ∨ (∀ text, .value option text ∉ given) ∧ fallback = some text

theorem mem_filterMap_valueOf {option : ValueOption} {text : String} :
    text ∈ given.filterMap (·.valueOf? option) ↔ .value option text ∈ given := by
  simp only [List.mem_filterMap]
  constructor
  · rintro ⟨argument, hargument, hvalue⟩
    cases argument with
    | value option' text' =>
      simp only [Argument.valueOf?] at hvalue
      split_ifs at hvalue with hoption
      obtain rfl := Option.some.inj hvalue
      exact hoption ▸ hargument
    | path text' => cases hvalue
    | switch switch => cases hvalue
  · intro h
    exact ⟨_, h, if_pos rfl⟩

theorem mem_filterMap_path {path : String} : path ∈ given.filterMap Argument.path? ↔ .path path ∈ given := by
  simp only [List.mem_filterMap]
  constructor
  · rintro ⟨argument, hargument, hpath⟩
    cases argument with
    | path text => exact Option.some.inj hpath ▸ hargument
    | value option text => cases hpath
    | switch switch => cases hpath
  · intro h
    exact ⟨_, h, rfl⟩

theorem filterMap_path_eq_nil_iff : given.filterMap Argument.path? = [] ↔ ∀ path, .path path ∉ given := by
  rw [List.eq_nil_iff_forall_not_mem]
  exact forall_congr' fun path => mem_filterMap_path.not

theorem givenValue_eq_ok_iff {option : ValueOption} {value : Option String} :
    givenValue option given = .ok value ↔ given.filterMap (·.valueOf? option) = value.toList := by
  unfold givenValue
  split
  · next h => rw [h]; cases value <;> simp
  · next h => rw [h]; cases value <;> simp
  · next hnil hone =>
    cases value with
    | none => simpa using hnil
    | some text => simpa using hone text

/-- The value that is given to an option, or the one that stands in for it. -/
theorem givesValue_of_givenValue {option : ValueOption} {value fallback : Option String}
    (h : givenValue option given = .ok value) (text : String) :
    value.or fallback = some text ↔ GivesValue given option fallback text := by
  rw [givenValue_eq_ok_iff] at h
  have hmem : ∀ text, .value option text ∈ given ↔ value = some text := by
    intro text
    rw [← mem_filterMap_valueOf, h]
    simp
  simp only [GivesValue, hmem]
  cases value with
  | none => simp
  | some text' => simp

theorem nonEmpty_eq_ok_iff {option : ValueOption} {value value' : Option String} :
    nonEmpty option value = .ok value' ↔ value = value' ∧ value ≠ some "" := by
  unfold nonEmpty
  split
  · simp
  · next hne =>
    simp only [Except.ok.injEq, iff_self_and]
    rintro -
    exact hne

theorem mem_of_givenSwitch {switch : Switch} {given' : Bool} (h : givenSwitch switch given = .ok given') :
    given' = true ↔ .switch switch ∈ given := by
  rw [← List.count_pos_iff]
  unfold givenSwitch at h
  split at h <;> simp_all

/-! ## Options -/

/-- What the options of a command line say of its arguments and of the environment. -/
structure Options.Says (options : Options) (given : List Argument) (environment : String → Option String) : Prop where
  paths : options.paths = given.filterMap Argument.path?
  file : ∀ text, options.file = some text ↔ GivesValue given .file (environment fileVariable) text
  root : ∀ text, options.root = text ↔ GivesValue given .root (some ".") text
  organisation : ∀ text, options.organisation = some text ↔
    GivesValue given .organisation (environment organisationVariable) text
  allMatchingRules : options.allMatchingRules = true ↔ .switch .allMatchingRules ∈ given
  owners : options.owners = true ↔ .switch .owners ∈ given
  check : options.check = true ↔ .switch .check ∈ given

theorem Options.says_of_ofArguments (h : Options.ofArguments given environment = .ok options) :
    options.Says given environment := by
  obtain ⟨file, hfile, h⟩ := Except.bind_eq_ok_iff.mp h
  obtain ⟨file', hfile', h⟩ := Except.bind_eq_ok_iff.mp h
  obtain ⟨root, hroot, h⟩ := Except.bind_eq_ok_iff.mp h
  obtain ⟨root', hroot', h⟩ := Except.bind_eq_ok_iff.mp h
  obtain ⟨organisation, horganisation, h⟩ := Except.bind_eq_ok_iff.mp h
  obtain ⟨allMatchingRules, hall, h⟩ := Except.bind_eq_ok_iff.mp h
  obtain ⟨owners, howners, h⟩ := Except.bind_eq_ok_iff.mp h
  obtain ⟨check, hcheck, h⟩ := Except.bind_eq_ok_iff.mp h
  obtain ⟨rfl, -⟩ := nonEmpty_eq_ok_iff.mp hfile'
  obtain ⟨rfl, -⟩ := nonEmpty_eq_ok_iff.mp hroot'
  split_ifs at h
  · cases h
  · obtain rfl := Except.ok.inj h
    have hroot'' : ∀ text, root.getD "." = text ↔ root.or (some ".") = some text := by cases root <;> simp
    exact {
      paths := rfl
      file := givesValue_of_givenValue hfile
      root := fun text => (hroot'' text).trans (givesValue_of_givenValue hroot text)
      organisation := givesValue_of_givenValue horganisation
      allMatchingRules := mem_of_givenSwitch hall
      owners := mem_of_givenSwitch howners
      check := mem_of_givenSwitch hcheck }

/-- **The options of a command line say what its arguments give.** -/
theorem Options.says_of_read {arguments : List String} (h : Options.read arguments environment = .ok options) :
    ∃ given, readArguments arguments = .ok given ∧ options.Says given environment := by
  obtain ⟨given, hgiven, h⟩ := Except.bind_eq_ok_iff.mp h
  exact ⟨given, hgiven, says_of_ofArguments h⟩

end PathOwners.Command
