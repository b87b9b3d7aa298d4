import PathOwners.Command.Log.Filter
import PathOwners.Command.Options
import PathOwners.Command.Report
import PathOwners.Files
import PathOwners.Text.Quoted

/-!
# Running the command

The command finds its rules file, reads it, and prints the owners of paths. `run` does this for given options, files
and standard input, without doing anything: its outcome holds what is to be printed and reported. A run that fails
prints nothing.
-/

namespace PathOwners.Command

/-! ## Outcomes -/

/-- The places where a rules file is looked for, in this order. -/
def locations : List String := ["CODEOWNERS", ".github/CODEOWNERS", "docs/CODEOWNERS"]

/-- Why a run failed. -/
inductive Failure where
  | noRulesFile (root : String)
  | unreadableRules (path : String) (cause : LoadError)
  | invalidPatterns (count : Nat) (path : String)
  | unreadablePaths (cause : ReadError)
  deriving DecidableEq, Repr

/-- A failure with the error that caused it, in words. -/
def withCause (context cause : String) : String := "Error: " ++ context ++ "\n\nCaused by:\n    " ++ cause

/-- A failure in words. -/
def Failure.message : Failure → String
  | .noRulesFile root =>
    s!"Error: no CODEOWNERS file found in {root} (looked for " ++ String.intercalate ", " locations ++ ")"
  | .unreadableRules path cause => withCause s!"failed to read {path}" cause.message
  | .invalidPatterns count path => s!"Error: {count} invalid pattern(s) in {path}"
  | .unreadablePaths cause => withCause "failed to read paths from stdin" cause.message

/-- What comes of a run: the events on the way, and the lines to print or the reason why it failed. -/
structure Outcome where
  events : List Event
  result : Except Failure (List String)

namespace Outcome

/-- The exit code of a run. -/
def code (outcome : Outcome) : Nat :=
  match outcome.result with
  | .ok _ => 0
  | .error _ => 1

/-- What a run prints to standard output. -/
def output (outcome : Outcome) : String :=
  match outcome.result with
  | .ok lines => String.join (lines.map (· ++ "\n"))
  | .error _ => ""

/-- What a run says about its failure. -/
def message (outcome : Outcome) : String :=
  match outcome.result with
  | .ok _ => ""
  | .error failure => failure.message

/-- The lines of a run's log. -/
def log (filter : Filter) (outcome : Outcome) : List String := (outcome.events.filter filter.shows).map Event.line

end Outcome

/-! ## Events -/

/-- The target of what the command itself reports. -/
def commandTarget : String := "codeowners"

/-- The target of what rule sets report. -/
def ruleSetTarget : String := "codeowners_resolver::ruleset"

/-- The rules file is known. -/
def usingFile (path : String) : Event := ⟨.debug, commandTarget, "using CODEOWNERS file", [("path", path)]⟩

/-- A pattern could not be compiled. -/
def invalidPattern (rule : Rule) (error : Glob.Error) : Event :=
  ⟨.debug, ruleSetTarget, "invalid pattern never matches", [("pattern", rule.pattern), ("err", error.message)]⟩

/-- A warning about a pattern that could not be compiled. -/
def patternWarning (rule : Rule) (error : Glob.Error) : Event :=
  ⟨.warn, commandTarget, "pattern never matches", [("pattern", rule.pattern), ("err", error.message)]⟩

/-- The rule that decides about a path is known. -/
def resolvedPath (set : RuleSet) (path : String) : Option Event :=
  (set.bestMatch? path).map fun rule =>
    ⟨.trace, ruleSetTarget, "resolved best match", [("path", Text.quoted path), ("pattern", rule.pattern)]⟩

/-- The events that come with reading a rule set. -/
def ruleSetEvents (set : RuleSet) : List Event :=
  set.invalid.map (fun entry => invalidPattern entry.1 entry.2) ++
    set.invalid.map fun entry => patternWarning entry.1 entry.2

/-! ## Input -/

/-- A path below a directory. -/
def joinPath (directory name : String) : String :=
  if directory.toList.getLast?.all (· == '/') then directory ++ name else directory ++ "/" ++ name

/-- The path of the rules file: the given one, or the first of the usual places that is a file. -/
def rulesPath (options : Options) (files : Files) : Except Failure String :=
  match options.file with
  | some path => .ok path
  | none =>
    match (locations.map (joinPath options.root)).find? files.isFile with
    | some path => .ok path
    | none => .error (.noRulesFile options.root)

/-- The paths in a text, one on a line: blank lines, and white space around a path, do not count. -/
def pathsOfText (text : String) : List String :=
  (((Text.lines text.toList).map Text.trim).filter (· ≠ [])).map String.ofList

/-- The paths to resolve: the given ones, or those on standard input. -/
def inputPaths (options : Options) (input : ByteArray) : Except Failure (List String) :=
  if options.paths ≠ [] then .ok options.paths
  else
    match decodeText input with
    | .ok text => .ok (pathsOfText text)
    | .error cause => .error (.unreadablePaths cause)

/-! ## Runs -/

/-- The lines for one path. -/
def pathLines (options : Options) (set : RuleSet) (path : String) : List String :=
  if options.allMatchingRules then matchLines set path else [bestLine set path]

/-- What the command does once it has read the rules at a path. -/
def runRules (options : Options) (path : String) (set : RuleSet) (input : ByteArray) : Outcome :=
  if options.check && !set.invalid.isEmpty then
    ⟨ruleSetEvents set, .error (.invalidPatterns set.invalid.length path)⟩
  else if options.owners then ⟨ruleSetEvents set, .ok (ownerLines set options.organisation)⟩
  else
    match inputPaths options input with
    | .error failure => ⟨ruleSetEvents set, .error failure⟩
    | .ok paths =>
      ⟨ruleSetEvents set ++ paths.filterMap (resolvedPath set), .ok (paths.flatMap (pathLines options set))⟩

/-- What the command does. -/
def run (options : Options) (files : Files) (input : ByteArray) : Outcome :=
  match rulesPath options files with
  | .error failure => ⟨[], .error failure⟩
  | .ok path =>
    let outcome : Outcome :=
      match files.load path with
      | .error cause => ⟨[], .error (.unreadableRules path cause)⟩
      | .ok set => runRules options path set input
    { outcome with events := usingFile path :: outcome.events }

end PathOwners.Command
