import CTypeGraph.DataModel
import CTypeGraph.Event
import CTypeGraph.Node

/-!
# Type graphs

A type graph holds every C type of one compilation unit as a numbered node. New
nodes go to the end and no node is ever taken away, so a handle keeps its meaning
for as long as the graph lives.

`void`, the basic types and the pointer types are shared: asking for one of them
twice gives the same handle, which is what the tables beside the nodes are for.
Enumerations, functions, arrays and records are new each time they are made;
what they are is where they are.

Every change to the nodes is one of two: a node is put at the end, or a node that
is there is exchanged. `node_append_old` and `node_replace_other` say that neither
touches the meaning of any other handle.
-/

namespace CTypeGraph

/-- The types of one compilation unit, with the data model they are measured by. -/
structure Graph where
  model : DataModel
  /-- The types themselves, in order of construction. -/
  nodes : Array Node
  /-- Where `void` is, once it has been asked for. -/
  voidHandle? : Option Handle
  /-- Where each basic type is that has been asked for. -/
  basicHandles : List (BasicType × Handle)
  /-- Where the pointer to each type is that has been asked for. -/
  pointerHandles : List (Handle × Handle)
  deriving DecidableEq, Repr

namespace Graph

/-- A graph without types. -/
def empty (model : DataModel) : Graph where
  model := model
  nodes := #[]
  voidHandle? := none
  basicHandles := []
  pointerHandles := []

/-- Where nothing else is said, a graph has no types. -/
instance : Inhabited Graph := ⟨empty default⟩

/-- The number of nodes, which is also the position of the next one. -/
def size (graph : Graph) : Nat :=
  graph.nodes.size

/-- Whether no type has been made yet. -/
def isEmpty (graph : Graph) : Bool :=
  graph.nodes.isEmpty

/-- The node a handle denotes. Handles come from the graph they are used with;
for a foreign one the answer is `void`, which only makes the lookup total. -/
def node (graph : Graph) (handle : Handle) : Node :=
  graph.nodes.getD handle.index .void

/-- Put a node at the end. Its handle is the previous size. That a handle of 32 bits can hold it
is not checked here: a program is stopped where it would not fit, and what holds of graphs beyond
that is about no program. -/
def append (graph : Graph) (node : Node) : Handle × Graph :=
  (⟨graph.size⟩, { graph with nodes := graph.nodes.push node })

/-- Exchange the node that a handle denotes, leaving all others as they are. -/
def replace (graph : Graph) (handle : Handle) (node : Node) : Graph :=
  { graph with nodes := graph.nodes.setIfInBounds handle.index node }

/-- A new node makes one node more. -/
@[simp]
theorem size_append (graph : Graph) (node : Node) :
    (graph.append node).2.size = graph.size + 1 := by
  simp [append, size]

/-- The handle of a new node denotes that node. -/
theorem node_append_new (graph : Graph) (node : Node) :
    (graph.append node).2.node (graph.append node).1 = node := by
  simp [append, Graph.node, size, Array.getD_eq_getD_getElem?]

/-- A new node changes nothing about the nodes before it. -/
theorem node_append_old (graph : Graph) (node : Node) {handle : Handle}
    (present : handle.index < graph.size) :
    (graph.append node).2.node handle = graph.node handle := by
  have early : handle.index < graph.nodes.size := present
  simp [append, Graph.node, Array.getD_eq_getD_getElem?, Array.getElem?_push,
    Nat.ne_of_lt early]

/-- Exchanging a node leaves the number of nodes as it is. -/
@[simp]
theorem size_replace (graph : Graph) (handle : Handle) (node : Node) :
    (graph.replace handle node).size = graph.size := by
  simp [replace, size]

/-- Exchanging a node that is there makes its handle denote the new one. -/
theorem node_replace_same (graph : Graph) {handle : Handle} (node : Node)
    (present : handle.index < graph.size) :
    (graph.replace handle node).node handle = node := by
  have inside : handle.index < graph.nodes.size := present
  simp [replace, Graph.node, Array.getD_eq_getD_getElem?, inside]

/-- Exchanging a node changes nothing about the others. -/
theorem node_replace_other (graph : Graph) {handle other : Handle} (node : Node)
    (different : other ≠ handle) :
    (graph.replace handle node).node other = graph.node other := by
  have apart : handle.index ≠ other.index := Handle.index_ne different.symm
  simp [replace, Graph.node, Array.getD_eq_getD_getElem?, Array.getElem?_setIfInBounds_ne apart]

/-- Of two exchanges of a node the later one counts. -/
theorem replace_replace (graph : Graph) (handle : Handle) (first second : Node) :
    (graph.replace handle first).replace handle second = graph.replace handle second := by
  simp [replace]

/-- Exchanging a node for itself changes nothing. -/
theorem replace_node_self (graph : Graph) (handle : Handle) :
    graph.replace handle (graph.node handle) = graph := by
  have same : graph.nodes.setIfInBounds handle.index (graph.node handle) = graph.nodes := by
    apply Array.ext_getElem?
    intro index
    rw [Array.getElem?_setIfInBounds]
    split
    case isTrue here =>
      subst here
      by_cases inside : handle.index < graph.nodes.size
      · simp [Graph.node, Array.getD_eq_getD_getElem?, inside]
      · simp [inside]
    case isFalse => rfl
  simp only [replace, same]

/-- The shared `void`. -/
def internVoid (graph : Graph) : Handle × Graph :=
  match graph.voidHandle? with
  | some found => (found, graph)
  | none =>
    let (made, extended) := graph.append .void
    (made, { extended with voidHandle? := some made })

/-- The shared node of a basic type. Finding it is worth a log line, making it is not. -/
def internBasic (graph : Graph) (type : BasicType) : Logged (Handle × Graph) :=
  match graph.basicHandles.lookup type with
  | some found => ⟨(found, graph), [.basicFound type.kind found]⟩
  | none =>
    let (made, extended) := graph.append (.basic type)
    .silent (made, { extended with basicHandles := (type, made) :: extended.basicHandles })

/-- The shared pointer to a type. Finding it is worth a log line, making it is not. -/
def internPointer (graph : Graph) (pointee : Handle) : Logged (Handle × Graph) :=
  match graph.pointerHandles.lookup pointee with
  | some found => ⟨(found, graph), [.pointerFound pointee found]⟩
  | none =>
    let (made, extended) := graph.append (.pointer pointee)
    .silent (made, { extended with pointerHandles := (pointee, made) :: extended.pointerHandles })

/-- A new enumeration, different from every other. -/
def makeEnumeration (graph : Graph) : Handle × Graph :=
  graph.append .enumeration

/-- A new function type. -/
def makeFunction (graph : Graph) (signature : Signature) : Handle × Graph :=
  graph.append (.function signature)

/-- A new array type. -/
def makeArray (graph : Graph) (element : Handle) (count : UInt64) : Handle × Graph :=
  graph.append (.array element count)

/-- A new struct or union without members, open for additions. -/
def makeRecord (graph : Graph) (isUnion : Bool) : Handle × Graph :=
  graph.append (.record (.fresh isUnion))

end Graph

end CTypeGraph
