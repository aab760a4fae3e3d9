import CTypeGraph.Handle
import CTypeGraph.Location

/-!
# Faults

A question about a type can fail in two ways. The caller broke the contract of
the question, such as asking for the size of a record that is still being built;
or the program in hand uses a feature that is not handled, and then the fault
names the place in the source. Each cause is a constructor; the wording of all
of them stands here and nowhere else.

Types are named in faults by their spelling at the moment of the failure.
Looking up a field that does not exist is not a fault.
-/

namespace CTypeGraph

/-- The ways in which a caller breaks the contract of a question. -/
inductive Breach where
  /-- A record was needed; the node is of another kind. -/
  | notRecord (kind spelling : String)
  /-- The layout of a record was read before the record was finalized. -/
  | stillBuilding (spelling : String)
  /-- The type has neither a size nor an alignment. -/
  | noObjectLayout (spelling : String)
  /-- The size of the type, or a step on the way to it, needs more than one word. -/
  | sizeOverflow (spelling : String)
  /-- A member was offered to a record that no longer accepts any. -/
  | memberAfterFinalize (record : Handle) (line : Nat)
  /-- A union was to be laid out. -/
  | unionLayout (spelling : String)
  /-- A finalized record was to be finalized again. -/
  | finalizedTwice (spelling : String)
  /-- A record holds itself as a member. -/
  | containsItself (spelling : String)
  /-- Only arithmetic types have a conversion rank. -/
  | rankOfNonArithmetic (spelling : String)
  /-- Only integer types have a range. -/
  | rangeOfNonInteger (spelling : String)
  /-- A field was found by name but not by position. -/
  | noLogicalIndex (name : String)
  /-- A breach that the reporting caller describes in its own words. -/
  | described (text : String)
  deriving DecidableEq, Repr

/-- What the caller did, in words. -/
def Breach.text : Breach → String
  | .notRecord kind spelling => s!"expected struct, got {kind} ({spelling})"
  | .stillBuilding spelling => s!"{spelling} is still being built"
  | .noObjectLayout spelling => s!"{spelling} has no object layout"
  | .sizeOverflow spelling => s!"size of {spelling} overflows"
  | .memberAfterFinalize record line =>
    s!"member added to finalized struct {record} at line {line}"
  | .unionLayout spelling => s!"cannot lay out {spelling}: unions are not supported"
  | .finalizedTwice spelling => s!"{spelling} finalized twice"
  | .containsItself spelling => s!"{spelling} contains itself"
  | .rankOfNonArithmetic spelling => s!"conversion rank of non-arithmetic type {spelling}"
  | .rangeOfNonInteger spelling => s!"integer range of non-integer type {spelling}"
  | .noLogicalIndex name => s!"field '{name}' has no logical index"
  | .described text => text

/-- The features that are recognised but not handled. -/
inductive Feature where
  /-- Whether two different records may stand for one another. -/
  | recordCompatibility (left right : String)
  /-- A feature that the reporting caller describes in its own words. -/
  | described (text : String)
  deriving DecidableEq, Repr

/-- The feature in words. -/
def Feature.text : Feature → String
  | .recordCompatibility left right => s!"struct compatibility between {left} and {right}"
  | .described text => text

/-- Why a question has no answer. -/
inductive Fault where
  /-- The caller's mistake; no place in the source is to blame. -/
  | internal (breach : Breach)
  /-- The source uses something that is not handled, at this place. -/
  | unimplemented (feature : Feature) (location : Location)
  deriving DecidableEq, Repr

namespace Fault

/-- The report of a fault, as shown to a user. -/
def message : Fault → String
  | .internal breach => "internal error: " ++ breach.text
  | .unimplemented feature location =>
    s!"unimplemented: {feature.text} at line {location.line}"

/-- The place to blame, where there is one. -/
def location? : Fault → Option Location
  | .internal _ => none
  | .unimplemented _ location => some location

/-- Whether the fault is the caller's mistake. -/
def isInternal : Fault → Bool
  | .internal _ => true
  | .unimplemented .. => false

/-- Whether the fault is an unhandled feature. -/
def isUnimplemented : Fault → Bool
  | .internal _ => false
  | .unimplemented .. => true

end Fault

end CTypeGraph
