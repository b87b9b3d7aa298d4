import PathOwners.Command.Log.Directive

/-!
# Filters of the log

A filter says which events are shown. It is written as directives with commas between them; of those that are about an
event the most specific one decides, and of two alike the later one.
-/

namespace PathOwners.Command

/-- The directives of a filter, in the order in which they were written. -/
structure Filter where
  directives : List Directive
  deriving DecidableEq, Repr

namespace Filter

/-- The filter that a text stands for; a text without directives shows errors only. -/
def ofText? (text : String) : Option Filter :=
  match ((Text.pieces ',' text.toList).filter (!·.isEmpty)).mapM Directive.ofChars? with
  | some [] => some ⟨[{ verbosity := Level.error.verbosity }]⟩
  | some directives => some ⟨directives⟩
  | none => none

/-- The filter that shows errors and warnings. -/
def standard : Filter := ⟨[{ verbosity := Level.warn.verbosity }]⟩

/-- The filter that a variable asks for; the standard one if it is not set or makes no sense. -/
def ofVariable (value : Option String) : Filter := (value.bind ofText?).getD standard

/-- The directive that decides, of the best one so far and the next. -/
def better (best : Option Directive) (next : Directive) : Option Directive :=
  match best with
  | none => some next
  | some held => if next.compareDetail held = .lt then some held else some next

/-- The directive that decides about an event. -/
def deciding? (filter : Filter) (event : Event) : Option Directive :=
  (filter.directives.filter (·.concerns event)).foldl better none

/-- Whether an event is shown. -/
def shows (filter : Filter) (event : Event) : Bool :=
  (filter.deciding? event).any fun directive => event.level.verbosity ≤ directive.verbosity

end Filter

/-- The variable with the filter of the log. -/
def filterVariable : String := "RUST_LOG"

end PathOwners.Command
