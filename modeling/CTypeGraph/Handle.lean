/-!
# Handles

Nodes of a type graph are named by the order in which they were made, starting
from zero. A handle is such a number and nothing else, so two handles denote the
same node exactly when they are equal.

A handle is stored in a word of 32 bits, so a graph is meant to have no more than
2 ^ 32 nodes. A program that asks for one more is stopped, since the handle would
name an older node. The numbers here have no such limit, and the stop is not part
of the model: what is said about graphs applies to the histories of a program
that stay within the limit.
-/

namespace CTypeGraph

/-- The name of a node: its position in the order of construction. -/
structure Handle where
  index : Nat
  deriving DecidableEq, Repr

namespace Handle

/-- A number sign and the position in decimal. -/
def text (handle : Handle) : String :=
  "#" ++ toString handle.index

/-- A handle is written by its text. -/
instance : ToString Handle := ⟨text⟩

/-- Different handles name different positions. -/
theorem index_ne {one other : Handle} (different : one ≠ other) : one.index ≠ other.index :=
  fun same => different (congrArg Handle.mk same)

end Handle

end CTypeGraph
