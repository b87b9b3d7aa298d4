import PathOwners.Text.Split

/-!
# Options of the command

The arguments of the command: paths to resolve, options with a value (`--file` or `-f`, `--root`, `--org`) and switches
(`--all-matching-rules`, `--owners`, `--check`). A value stands in the same argument, after `=`, or in the next one,
where it must not look like an option. After `--` every argument is a path. Options and switches are given once at most.
The variables `CODEOWNERS_FILE` and `CODEOWNERS_ORG` stand in for `--file` and `--org`.
-/

namespace PathOwners.Command

/-! ## Arguments -/

/-- An option that takes a value. -/
inductive ValueOption where
  | file
  | root
  | organisation
  deriving DecidableEq, Repr

/-- An option without a value. -/
inductive Switch where
  | allMatchingRules
  | owners
  | check
  deriving DecidableEq, Repr

/-- What an option is called. -/
def ValueOption.label : ValueOption → String
  | .file => "--file"
  | .root => "--root"
  | .organisation => "--org"

/-- What a switch is called. -/
def Switch.label : Switch → String
  | .allMatchingRules => "--all-matching-rules"
  | .owners => "--owners"
  | .check => "--check"

/-- Why the arguments make no sense. -/
inductive UsageError where
  | unknownOption (argument : String)
  | missingValue (option : ValueOption)
  | emptyValue (option : ValueOption)
  | unwantedValue (switch : Switch)
  | repeated (name : String)
  | conflict (first second : Switch)
  deriving DecidableEq, Repr

/-- An error in words. -/
def UsageError.message : UsageError → String
  | .unknownOption argument => s!"unexpected argument {argument}"
  | .missingValue option => s!"{option.label} needs a value"
  | .emptyValue option => s!"{option.label} needs a value that is not empty"
  | .unwantedValue switch => s!"{switch.label} takes no value"
  | .repeated name => s!"{name} is given more than once"
  | .conflict first second => s!"{first.label} cannot be used with {second.label}"

/-- What one or two arguments mean. -/
inductive Argument where
  | path (text : String)
  | value (option : ValueOption) (text : String)
  | switch (switch : Switch)
  deriving DecidableEq, Repr

/-- What an argument says by itself. -/
inductive Form where
  | complete (argument : Argument)
  /-- The next argument is the value of this option. -/
  | awaitsValue (option : ValueOption)
  deriving DecidableEq, Repr

/-- The option with a value of this name. -/
def valueOption? : String → Option ValueOption
  | "--file" => some .file
  | "--root" => some .root
  | "--org" => some .organisation
  | _ => none

/-- The switch of this name. -/
def switch? : String → Option Switch
  | "--all-matching-rules" => some .allMatchingRules
  | "--owners" => some .owners
  | "--check" => some .check
  | _ => none

/-- A long option, with the value after its `=` if it has one. -/
def longForm (name : String) (value : Option String) : Except UsageError Form :=
  match valueOption? name, switch? name, value with
  | some option, _, some text => .ok (.complete (.value option text))
  | some option, _, none => .ok (.awaitsValue option)
  | none, some switch, none => .ok (.complete (.switch switch))
  | none, some switch, some _ => .error (.unwantedValue switch)
  | none, none, _ => .error (.unknownOption name)

/-- What an argument says by itself. -/
def formOf (argument : String) : Except UsageError Form :=
  match argument.toList with
  | '-' :: '-' :: _ =>
    match Text.splitFirst? '=' argument.toList with
    | some (name, value) => longForm (String.ofList name) (some (String.ofList value))
    | none => longForm argument none
  | ['-', 'f'] => .ok (.awaitsValue .file)
  | '-' :: 'f' :: '=' :: value => .ok (.complete (.value .file (String.ofList value)))
  | '-' :: 'f' :: value => .ok (.complete (.value .file (String.ofList value)))
  | '-' :: _ :: _ => .error (.unknownOption argument)
  | _ => .ok (.complete (.path argument))

/-- Whether an argument can be a value: it does not look like an option. A single `-` does not. -/
def canBeValue (argument : String) : Bool := argument == "-" || argument.toList.head? != some '-'

/-- What the arguments mean. -/
def readArguments : List String → Except UsageError (List Argument)
  | [] => .ok []
  | "--" :: rest => .ok (rest.map .path)
  | argument :: rest =>
    match formOf argument with
    | .error e => .error e
    | .ok (.complete read) => (readArguments rest).map (read :: ·)
    | .ok (.awaitsValue option) =>
      match rest with
      | [] => .error (.missingValue option)
      | value :: rest =>
        if canBeValue value then (readArguments rest).map (.value option value :: ·)
        else .error (.missingValue option)

/-! ## Options -/

/-- What the command is to do. -/
structure Options where
  /-- The paths to resolve; without any, they are read from standard input. -/
  paths : List String
  /-- The rules file, if it is not to be looked for. -/
  file : Option String
  /-- The directory in which a rules file is looked for. -/
  root : String
  /-- The organisation of bare team names. -/
  organisation : Option String
  /-- Show every rule that matches a path. -/
  allMatchingRules : Bool
  /-- Show the owners instead of resolving paths. -/
  owners : Bool
  /-- Fail if some pattern cannot be compiled. -/
  check : Bool
  deriving DecidableEq, Repr

/-- The path in an argument. -/
def Argument.path? : Argument → Option String
  | .path text => some text
  | _ => none

/-- The value that an argument gives to an option. -/
def Argument.valueOf? (option : ValueOption) : Argument → Option String
  | .value given text => if given = option then some text else none
  | _ => none

/-- The value that the arguments give to an option. -/
def givenValue (option : ValueOption) (arguments : List Argument) : Except UsageError (Option String) :=
  match arguments.filterMap (·.valueOf? option) with
  | [] => .ok none
  | [text] => .ok (some text)
  | _ => .error (.repeated option.label)

/-- A value that names a place, which cannot be empty. -/
def nonEmpty (option : ValueOption) : Option String → Except UsageError (Option String)
  | some "" => .error (.emptyValue option)
  | value => .ok value

/-- Whether the arguments have a switch. -/
def givenSwitch (switch : Switch) (arguments : List Argument) : Except UsageError Bool :=
  match arguments.count (.switch switch) with
  | 0 => .ok false
  | 1 => .ok true
  | _ => .error (.repeated switch.label)

/-- The variable that stands in for `--file`. -/
def fileVariable : String := "CODEOWNERS_FILE"

/-- The variable that stands in for `--org`. -/
def organisationVariable : String := "CODEOWNERS_ORG"

/-- The options that the arguments give, and the variables of the environment. -/
def Options.ofArguments (arguments : List Argument) (environment : String → Option String) :
    Except UsageError Options := do
  let file ← nonEmpty .file ((← givenValue .file arguments).or (environment fileVariable))
  let root ← nonEmpty .root (← givenValue .root arguments)
  let organisation ← givenValue .organisation arguments
  let allMatchingRules ← givenSwitch .allMatchingRules arguments
  let owners ← givenSwitch .owners arguments
  let check ← givenSwitch .check arguments
  if allMatchingRules && owners then throw (.conflict .owners .allMatchingRules)
  return {
    paths := arguments.filterMap Argument.path?
    file := file
    root := root.getD "."
    organisation := organisation.or (environment organisationVariable)
    allMatchingRules := allMatchingRules
    owners := owners
    check := check }

/-- The options of a command line. -/
def Options.read (arguments : List String) (environment : String → Option String) : Except UsageError Options := do
  Options.ofArguments (← readArguments arguments) environment

end PathOwners.Command
