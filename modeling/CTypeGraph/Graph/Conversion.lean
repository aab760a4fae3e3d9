import CTypeGraph.Graph.Spelling

/-!
# Ranks and ranges

What the arithmetic conversions ask of a type: its conversion rank, the values
it holds, and whether one integer type holds every value of another. An
enumeration ranks with `int` and holds what a signed `int` holds.
-/

namespace CTypeGraph

/-- The basic type whose values an integer type holds, where there is one. -/
def Node.integerBasis? : Node → Option BasicType
  | .enumeration => some ⟨.int, true⟩
  | .basic type => if type.kind.isInteger then some type else none
  | _ => none

namespace Graph

/-- The conversion rank of an arithmetic type. -/
def conversionRank (graph : Graph) (type : Handle) : Except Fault Nat :=
  match graph.node type with
  | .enumeration => .ok BasicKind.int.rank
  | .basic basic => .ok basic.kind.rank
  | _ => .error (.internal (.rankOfNonArithmetic (graph.spelling type)))

/-- The values of an integer type. -/
def integerRange (graph : Graph) (type : Handle) : Except Fault IntegerRange :=
  match (graph.node type).integerBasis? with
  | some basis => .ok (graph.model.integerRange basis)
  | none => .error (.internal (.rangeOfNonInteger (graph.spelling type)))

/-- Whether every value of the integer type `narrow` is a value of the integer
type `wide`. When neither is an integer type, `wide` is blamed. -/
def canRepresent (graph : Graph) (wide narrow : Handle) : Except Fault Bool := do
  let outer ← graph.integerRange wide
  let inner ← graph.integerRange narrow
  .ok (outer.covers inner)

end Graph

end CTypeGraph
