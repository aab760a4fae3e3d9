import CTypeGraph.BasicType
import CTypeGraph.Record

/-!
# The nodes of a type graph

One node is one C type, described in terms of the handles of the types it is
made from. Nothing in a node says that those handles exist; that is a property
of the graph which holds the node.
-/

namespace CTypeGraph

/-- A function parameter. The name is kept for diagnostics and has no meaning. -/
structure Parameter where
  name? : Option String
  type : Handle
  deriving DecidableEq, Repr

/-- What a function takes and gives. -/
structure Signature where
  result : Handle
  parameters : List Parameter
  /-- Whether further arguments may follow the parameters. -/
  variadic : Bool
  deriving DecidableEq, Repr

/-- A C type, one constructor for each kind. -/
inductive Node where
  | void
  | basic (type : BasicType)
  | enumeration
  | pointer (pointee : Handle)
  | function (signature : Signature)
  | record (contents : Record)
  | array (element : Handle) (count : UInt64)
  deriving DecidableEq, Repr

namespace Node

/-- The kind of the node in one word. Structs and unions are told apart. -/
def kindName : Node → String
  | .void => "void"
  | .basic _ => "primitive"
  | .enumeration => "enum"
  | .pointer _ => "pointer"
  | .function _ => "function"
  | .record contents => contents.keyword
  | .array .. => "array"

/-- The record in the node, when there is one. -/
def record? : Node → Option Record
  | .record contents => some contents
  | _ => none

end Node

end CTypeGraph
