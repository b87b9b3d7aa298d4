import PathOwners.Text.Alphanumeric
import PathOwners.Text.Split

/-!
# Owners

What the name of an owner stands for, judged by its shape alone, and the page that belongs to it.
-/

namespace PathOwners

/-- What an owner's name stands for. -/
inductive OwnerKind where
  /-- A team of an organisation, `@org/team` or `org/team`. -/
  | team
  /-- A user, `@name`. -/
  | user
  /-- An address, `local@domain`. -/
  | email
  | unknown
  deriving DecidableEq, Repr

namespace OwnerKind

/-- The word for a kind. -/
def label : OwnerKind → String
  | .team => "team"
  | .user => "user"
  | .email => "email"
  | .unknown => "unknown"

/-- Whether an organisation and a team are named: both parts have characters, and the team has no `/`. -/
def namesTeam (organisation name : List Char) : Bool :=
  !organisation.isEmpty && !name.isEmpty && !name.contains '/'

/-- What a name stands for whose `@` at the front has been taken away. -/
def ofHandle (handle : List Char) : OwnerKind :=
  if handle.isEmpty || handle.contains '@' then .unknown
  else
    match Text.splitFirst? '/' handle with
    | some (organisation, name) => if namesTeam organisation name then .team else .unknown
    | none => .user

/-- What a name stands for that does not begin with `@`. -/
def ofBare (name : List Char) : OwnerKind :=
  match Text.splitFirst? '@' name, Text.splitFirst? '/' name with
  | some (mailbox, domain), _ =>
    if !mailbox.isEmpty && !domain.isEmpty && !domain.contains '@' then .email else .unknown
  | none, some (organisation, name) => if namesTeam organisation name then .team else .unknown
  | none, none => .unknown

/-- What a name without white space around it stands for. -/
def ofTrimmed (name : List Char) : OwnerKind :=
  if name.isEmpty || name.any Text.isBlank then .unknown
  else
    match name with
    | '@' :: handle => ofHandle handle
    | name => ofBare name

/-- What a name stands for; white space around it does not count. -/
def classify (name : String) : OwnerKind := ofTrimmed (Text.trim name.toList)

end OwnerKind

/-- An owner: its name as it was written, and what that stands for. -/
structure Owner where
  name : String
  kind : OwnerKind
  deriving DecidableEq, Repr

namespace Owner

/-- The owner of a name, its kind judged by the name. -/
def ofName (name : String) : Owner := ⟨name, .classify name⟩

/-- The name without the `@`s at its front. -/
def handle (owner : Owner) : List Char := owner.name.toList.dropWhile (· == '@')

/-- Whether a character can be part of a bare team name. -/
def isNameChar (c : Char) : Bool := Text.isAlphanumeric c || c == '-' || c == '_'

/-- The page of a user. -/
def userPage (user : List Char) : String := "https://github.com/" ++ String.ofList user

/-- The page of a team. -/
def teamPage (organisation : String) (team : List Char) : String :=
  "https://github.com/orgs/" ++ organisation ++ "/teams/" ++ String.ofList team

/-- Whether the name could be that of a team written without its organisation. -/
def isBareTeam (owner : Owner) : Bool :=
  !owner.handle.isEmpty && owner.name.toList.head? != some '@' && owner.handle.all isNameChar

/-- The page of an owner. A bare team name is looked up in the given organisation; an address has no page. -/
def page? (organisation : Option String) (owner : Owner) : Option String :=
  match owner.kind with
  | .user => some (userPage owner.handle)
  | .team => (Text.splitFirst? '/' owner.handle).map fun parts => teamPage (String.ofList parts.1) parts.2
  | .unknown =>
    match organisation with
    | some organisation => if owner.isBareTeam then some (teamPage organisation owner.handle) else none
    | none => none
  | .email => none

end Owner

end PathOwners
