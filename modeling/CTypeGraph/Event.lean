import CTypeGraph.BasicType
import CTypeGraph.ByteCount
import CTypeGraph.Handle
import CTypeGraph.Location

/-!
# Events worth a log line

Some operations leave a line in the log: a basic or pointer type that was found
instead of made, a record that was laid out, and a comparison of records that
was given up. An event is the occasion; its level and its text are derived.
Operations return the events they caused beside their value and in order, so
that what was logged can be reasoned about like any other result.
-/

namespace CTypeGraph

/-- How much an event matters. -/
inductive Level where
  | trace
  | debug
  deriving DecidableEq, Repr

/-- The level as it heads a log line. -/
def Level.name : Level → String
  | .trace => "TRACE"
  | .debug => "DEBUG"

/-- An occasion for a log line. -/
inductive Event where
  /-- A basic type was asked for again and found. -/
  | basicFound (kind : BasicKind) (found : Handle)
  /-- A pointer type was asked for again and found. -/
  | pointerFound (pointee found : Handle)
  /-- A record was laid out. -/
  | recordFinalized (spelling : String) (size align : ByteCount) (members fields : Nat)
  /-- Two different records were to be compared for compatibility. -/
  | compatibilityUndecided (left right : String) (location : Location)
  deriving DecidableEq, Repr

namespace Event

/-- Finding an existing node is routine; the other events are worth a closer look. -/
def level : Event → Level
  | .basicFound .. => .trace
  | .pointerFound .. => .trace
  | .recordFinalized .. => .debug
  | .compatibilityUndecided .. => .debug

/-- The event in words. -/
def text : Event → String
  | .basicFound kind found => s!"interned {kind.name} hit: {found}"
  | .pointerFound pointee found => s!"interned pointer to {pointee} hit: {found}"
  | .recordFinalized spelling size align members fields =>
    s!"finalized {spelling}: size {size}, align {align}, {members} members, {fields} exports"
  | .compatibilityUndecided left right location =>
    s!"compatible_struct({left}, {right}) at {location} is not implemented"

/-- The log line: the level, a space, and the event in words. -/
def line (event : Event) : String :=
  event.level.name ++ " " ++ event.text

end Event

/-- A value together with the events that producing it caused, in order. -/
structure Logged (α : Type) where
  value : α
  events : List Event

/-- A value produced without any event. -/
def Logged.silent {α : Type} (value : α) : Logged α :=
  ⟨value, []⟩

end CTypeGraph
