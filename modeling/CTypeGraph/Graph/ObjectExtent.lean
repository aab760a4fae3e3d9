import CTypeGraph.Graph.Field

/-!
# Sizes and alignments

How many bytes an object of a type takes and on which boundary it starts.
Scalars read the data model, an array multiplies the size of its element, and a
record reports the layout that was fixed when it was finalized. `void` and
functions are not objects and have neither number.

Only arrays are looked into, and an array's element was there before the array,
so the number of steps that the position of the type allows is always enough.
`none` means that the steps ran out and nothing else.
-/

namespace CTypeGraph

namespace Graph

/-- The fault of asking a type that is not an object for its layout. -/
def noObjectLayout (graph : Graph) (type : Handle) : Fault :=
  .internal (.noObjectLayout (graph.spelling type))

/-- A count of bytes that belongs to a type, or the fault that it does not fit a word. -/
def fitting (graph : Graph) (type : Handle) : Option ByteCount → Except Fault ByteCount
  | some count => .ok count
  | none => .error (.internal (.sizeOverflow (graph.spelling type)))

/-- The size of a type, found in at most `steps` nested steps. -/
def byteSizeWithin (graph : Graph) (steps : Nat) (type : Handle) :
    Option (Except Fault ByteCount) :=
  match steps with
  | 0 => none
  | steps + 1 =>
    match graph.node type with
    | .basic basic => some (.ok (graph.model.basic basic.kind).size)
    | .enumeration => some (.ok graph.model.int.size)
    | .pointer _ => some (.ok graph.model.pointer.size)
    | .array element count =>
      (graph.byteSizeWithin steps element).map fun
        | .ok each => graph.fitting type (each.mul? count)
        | .error fault => .error fault
    | .record _ => some ((graph.finalizedRecord type).map (·.size))
    | .void | .function _ => some (.error (graph.noObjectLayout type))

/-- The alignment of a type, found in at most `steps` nested steps. An array
starts where its first element starts. -/
def byteAlignWithin (graph : Graph) (steps : Nat) (type : Handle) :
    Option (Except Fault ByteCount) :=
  match steps with
  | 0 => none
  | steps + 1 =>
    match graph.node type with
    | .basic basic => some (.ok (graph.model.basic basic.kind).align)
    | .enumeration => some (.ok graph.model.int.align)
    | .pointer _ => some (.ok graph.model.pointer.align)
    | .array element _ => graph.byteAlignWithin steps element
    | .record _ => some ((graph.finalizedRecord type).map (·.align))
    | .void | .function _ => some (.error (graph.noObjectLayout type))

/-- The size in bytes of an object of this type. Where the steps run out, in a
graph whose types were not built in order, the type has no layout either. -/
def byteSize (graph : Graph) (type : Handle) : Except Fault ByteCount :=
  (graph.byteSizeWithin (type.index + 1) type).getD (.error (graph.noObjectLayout type))

/-- The alignment in bytes of an object of this type, with the same reading of
steps that run out. -/
def byteAlign (graph : Graph) (type : Handle) : Except Fault ByteCount :=
  (graph.byteAlignWithin (type.index + 1) type).getD (.error (graph.noObjectLayout type))

end Graph

end CTypeGraph
