import PathOwners.Command.Run

/-!
# The command

Shows the owners of paths according to a CODEOWNERS file. All that is decided is decided by `Command.run`; here files,
variables and standard input are read, and the outcome is printed.
-/

namespace PathOwners.Command

/-- Why there is nothing to read at a path. The system's code for "not a directory", 20, comes with either sign. -/
def readErrorOf : IO.Error → ReadError
  | .inappropriateType _ code _ => if code = 20 ∨ -code = 20 then .notDirectory else .isDirectory
  | _ => .notFound

/-- Why the system does not let be read what is there, in its words. -/
def refusalOf? : IO.Error → Option String
  | .noFileOrDirectory .. | .inappropriateType .. => none
  | .permissionDenied _ code details => some s!"{details} (os error {code})"
  | error => some (toString error)

/-- Whether a path leads anywhere. -/
def leads (path : String) : IO Bool :=
  tryCatch (do discard (IO.FS.realPath path); return true) fun _ => return false

/-- What the system says about one path. What is there without the `.` of a directory in it is a file, whether it can be
read or not. -/
def probe (path : String) : IO (Bool × Option String × Except ReadError ByteArray) := do
  let isFile := (← leads path) && !(← leads (path ++ "/."))
  let read ← (IO.FS.readBinFile path).toBaseIO
  match read with
  | .ok content => return (isFile, none, .ok content)
  | .error error => return (isFile, refusalOf? error, .error (readErrorOf error))

/-- Reads the files that a run with these options can ask for. -/
def readFiles (options : Options) : IO Files := do
  let paths := match options.file with
    | some path => [path]
    | none => locations.map (joinPath options.root)
  let found ← paths.mapM fun path => return (path, ← probe path)
  let answer (path : String) := (found.lookup path).getD (false, none, .error .notFound)
  return {
    isFile := fun path => (answer path).1
    refusal? := fun path => (answer path).2.1
    read := fun path => (answer path).2.2 }

/-- Reads what is left of a stream. -/
partial def readRest (stream : IO.FS.Stream) (read : ByteArray) : IO ByteArray := do
  let next ← stream.read 65536
  if next.isEmpty then return read else readRest stream (read ++ next)

/-- Reads standard input if a run with these options needs it. -/
def readInput (options : Options) : IO ByteArray := do
  if options.paths.isEmpty && !options.owners then readRest (← IO.getStdin) .empty else return .empty

/-- Reads the variables that the command knows. -/
def readVariables : IO (String → Option String) := do
  let names := [fileVariable, organisationVariable, filterVariable]
  let values ← names.mapM fun name => return (name, ← IO.getEnv name)
  return fun name => (values.lookup name).join

/-- Prints the outcome of a run. -/
def Outcome.print (filter : Filter) (outcome : Outcome) : IO UInt32 := do
  for line in outcome.log filter do IO.eprintln line
  IO.print outcome.output
  if outcome.code ≠ 0 then IO.eprintln outcome.message
  return outcome.code.toUInt32

end PathOwners.Command

open PathOwners Command in
/-- Runs the command; arguments that make no sense give the exit code 2. -/
def main (arguments : List String) : IO UInt32 := do
  let environment ← readVariables
  match Options.read arguments environment with
  | .error error =>
    IO.eprintln s!"error: {error.message}"
    return 2
  | .ok options =>
    let files ← readFiles options
    let input ← readInput options
    (run options files input).print (.ofVariable (environment filterVariable))
