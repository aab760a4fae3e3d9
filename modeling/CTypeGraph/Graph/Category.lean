import CTypeGraph.Graph.Basic

/-!
# Categories of types

Questions about the kind of a single node, and of its pointee where the node is
a pointer. Enumerations count as integers, and unions count as records.
-/

namespace CTypeGraph

namespace Node

/-- Whether the type is `void`. -/
def isVoid : Node → Bool
  | .void => true
  | _ => false

/-- Whether the type is one of the floating basic types. -/
def isFloating : Node → Bool
  | .basic type => type.kind.isFloating
  | _ => false

/-- Whether the type is an integer basic type or an enumeration. -/
def isInteger : Node → Bool
  | .basic type => type.kind.isInteger
  | .enumeration => true
  | _ => false

/-- Whether the type takes part in arithmetic. -/
def isArithmetic (node : Node) : Bool :=
  node.isFloating || node.isInteger

/-- Whether the type is a pointer. -/
def isPointer : Node → Bool
  | .pointer _ => true
  | _ => false

/-- Whether the type is `char` of either signedness. -/
def isCharacter : Node → Bool
  | .basic type => type.kind == .char
  | _ => false

/-- Whether the type is a function. -/
def isFunction : Node → Bool
  | .function _ => true
  | _ => false

/-- Whether the type is a struct or a union. -/
def isRecord : Node → Bool
  | .record _ => true
  | _ => false

/-- Whether the type is an array. -/
def isArray : Node → Bool
  | .array .. => true
  | _ => false

/-- Whether the type is a single value that the machine can hold in a register:
an arithmetic type or a pointer. -/
def isScalar (node : Node) : Bool :=
  node.isArithmetic || node.isPointer

end Node

namespace Graph

/-- The node a pointer points at, when the node is a pointer. -/
def pointee? (graph : Graph) : Node → Option Node
  | .pointer pointee => some (graph.node pointee)
  | _ => none

/-- Whether the type is a pointer to `char` of either signedness. -/
def isCharacterPointer (graph : Graph) (type : Handle) : Bool :=
  (graph.pointee? (graph.node type)).any (·.isCharacter)

/-- Whether the type is a pointer to a function. -/
def isFunctionPointer (graph : Graph) (type : Handle) : Bool :=
  (graph.pointee? (graph.node type)).any (·.isFunction)

end Graph

end CTypeGraph
