/-!
# Events of the command

What the command reports while it works. An event has a level, the part of the program it comes from, a message and
named fields; `Event.line` is the line that the log has for it.
-/

namespace PathOwners.Command

/-- How important an event is. -/
inductive Level where
  | error
  | warn
  | info
  | debug
  | trace
  deriving DecidableEq, Repr

/-- The word for a level. -/
def Level.label : Level → String
  | .error => "ERROR"
  | .warn => "WARN"
  | .info => "INFO"
  | .debug => "DEBUG"
  | .trace => "TRACE"

/-- The least verbosity at which events of a level are shown. -/
def Level.verbosity : Level → Nat
  | .error => 1
  | .warn => 2
  | .info => 3
  | .debug => 4
  | .trace => 5

/-- Something the command reports: how important it is, which part of the program it comes from, the message, and the
fields with their values in words. -/
structure Event where
  level : Level
  target : String
  message : String
  fields : List (String × String)
  deriving DecidableEq, Repr

/-- A field with its value. -/
def fieldText (field : String × String) : String := " " ++ field.1 ++ "=" ++ field.2

/-- An event as a line of the log. -/
def Event.line (event : Event) : String :=
  event.level.label ++ " " ++ event.message ++ String.join (event.fields.map fieldText)

/-- The names of an event's fields; the message is one of them. -/
def Event.fieldNames (event : Event) : List String := "message" :: event.fields.map Prod.fst

end PathOwners.Command
