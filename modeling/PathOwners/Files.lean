import PathOwners.RuleSet
import PathOwners.Text.Split

/-!
# Files

Where rules and paths are read from: a file tree below a working directory, addressed by paths with `.` and `..`, and
the ways in which reading can fail. That a path leads to a file does not mean that the file can be read.
-/

namespace PathOwners

/-! ## Reading -/

/-- Why a text could not be read. -/
inductive ReadError where
  | notFound
  | isDirectory
  /-- A file stands where the path needs a directory. -/
  | notDirectory
  /-- The bytes are no text in UTF-8. -/
  | invalidText
  deriving DecidableEq, Repr

/-- An error in words. -/
def ReadError.message : ReadError → String
  | .notFound => "No such file or directory (os error 2)"
  | .isDirectory => "Is a directory (os error 21)"
  | .notDirectory => "Not a directory (os error 20)"
  | .invalidText => "stream did not contain valid UTF-8"

/-- The text that some bytes are. -/
def decodeText (bytes : ByteArray) : Except ReadError String :=
  match String.fromUTF8? bytes with
  | some text => .ok text
  | none => .error .invalidText

/-- Files by their paths. What the system says of a path, whether it lets it be read, and what is read there are three
different things: a file can be there and be refused, and there are readable things that are no files. -/
structure Files where
  /-- Whether there is a file at a path. -/
  isFile : String → Bool
  /-- Why the system does not let be read what is at a path, in its words. -/
  refusal? : String → Option String
  /-- What reading gives at a path that is not refused. -/
  read : String → Except ReadError ByteArray

/-- Why rules could not be loaded from a path. -/
inductive LoadError where
  /-- The system refused, in its words. -/
  | refused (reason : String)
  | unreadable (cause : ReadError)
  deriving DecidableEq, Repr

/-- An error in words. -/
def LoadError.message : LoadError → String
  | .refused reason => reason
  | .unreadable cause => cause.message

namespace Files

/-- The text of what is read at a path. -/
def readText (files : Files) (path : String) : Except ReadError String := do decodeText (← files.read path)

/-- The rule set of what is read at a path. -/
def ruleSet (files : Files) (path : String) : Except ReadError RuleSet :=
  (files.readText path).map RuleSet.ofText

/-- Loads the rule set at a path, if the system lets it be read. -/
def load (files : Files) (path : String) : Except LoadError RuleSet :=
  match files.refusal? path with
  | some reason => .error (.refused reason)
  | none => (files.ruleSet path).mapError .unreadable

end Files

/-! ## File trees -/

/-- A name between two separators of a path. -/
abbrev Name := List Char

/-- A file or a directory. -/
inductive Node where
  | file (content : ByteArray)
  /-- A file that may not be read. -/
  | locked (content : ByteArray)
  | directory

/-- The files and directories below a working directory, each with the names that lead to it. A directory is there as
soon as something is in it. -/
structure FileTree where
  nodes : List (List Name × Node)

namespace FileTree

/-- The names in a relative path; a name that leads nowhere else is left out. -/
def namesOf (path : String) : List Name :=
  (Text.pieces '/' path.toList).filter fun name => name ≠ [] ∧ name ≠ ['.']

/-- The tree with the given files and directories; of several files at one place the last one counts. -/
def ofList (nodes : List (String × Node)) : FileTree :=
  ⟨(nodes.map fun node => (namesOf node.1, node.2)).reverse⟩

/-- What is at a place below the working directory. -/
def node? (tree : FileTree) (names : List Name) : Option Node :=
  match tree.nodes.find? (·.1 == names) with
  | some (_, node) => some node
  | none => if tree.nodes.any fun node => names.isPrefixOf node.1 then some .directory else none

/-- A directory: one below the working directory, or one above it, of which no more is known than that it is there. -/
inductive Place where
  | below (names : List Name)
  | above
  deriving DecidableEq, Repr

/-- The place one level up. -/
def Place.parent : Place → Place
  | .below [] => .above
  | .below names => .below names.dropLast
  | .above => .above

/-- Follows names from a directory: to a file, or to a failure. -/
def follow (tree : FileTree) : Place → List Name → Except ReadError Node
  | _, [] => .ok .directory
  | place, name :: rest =>
    if name = [] ∨ name = ['.'] then tree.follow place rest
    else if name = ['.', '.'] then tree.follow place.parent rest
    else
      match place with
      | .above => .error .notFound
      | .below names =>
        match tree.node? (names ++ [name]) with
        | none => .error .notFound
        | some .directory => tree.follow (.below (names ++ [name])) rest
        | some node => if rest = [] then .ok node else .error .notDirectory

/-- What a path leads to. The empty path leads nowhere. -/
def find (tree : FileTree) (path : String) : Except ReadError Node :=
  match path.toList with
  | [] => .error .notFound
  | '/' :: rest => tree.follow .above (Text.pieces '/' rest)
  | names => tree.follow (.below []) (Text.pieces '/' names)

/-- The path of the device that reads as an empty file. -/
def nullDevice : String := "/dev/null"

/-- What the system says where a locked file is to be read. -/
def denial : String := "Permission denied (os error 13)"

/-- Whether a path leads to a file; the device is none. -/
def isFile (tree : FileTree) (path : String) : Bool :=
  match tree.find path with
  | .ok (.file _) | .ok (.locked _) => true
  | _ => false

/-- Why what a path leads to may not be read. -/
def refusal? (tree : FileTree) (path : String) : Option String :=
  match tree.find path with
  | .ok (.locked _) => some denial
  | _ => none

/-- What reading a path gives, locked or not. -/
def read (tree : FileTree) (path : String) : Except ReadError ByteArray :=
  if path = nullDevice then .ok .empty
  else
    match tree.find path with
    | .ok (.file content) | .ok (.locked content) => .ok content
    | .ok .directory => .error .isDirectory
    | .error e => .error e

/-- The files of a tree. -/
def files (tree : FileTree) : Files where
  isFile := tree.isFile
  refusal? := tree.refusal?
  read := tree.read

end FileTree

end PathOwners
