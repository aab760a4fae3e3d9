import CTypeGraph.Graph.Layout

/-!
# Histories of a type graph

A graph changes only by operations: one for each way of making a type, one for
declaring a member, and one for finalizing a record. Operations are data here,
so that whole histories can be spoken of. Performing one gives its result, the
graph afterwards and the events it caused; an operation that fails leaves the
graph as it was.

A graph is reachable when some history leads to it from an empty graph. In a
history every operation mentions only handles of types that exist at that time,
and failed operations count as steps like any other.
-/

namespace CTypeGraph

/-- The operations that can change a graph. -/
inductive Operation where
  | internVoid
  | internBasic (type : BasicType)
  | internPointer (pointee : Handle)
  | makeEnumeration
  | makeFunction (signature : Signature)
  | makeArray (element : Handle) (count : UInt64)
  | makeRecord (isUnion : Bool)
  | addMember (record : Handle) (name? : Option String) (type : Handle) (location : Location)
  | finalize (record : Handle)
  deriving DecidableEq, Repr

/-- What became of an operation. A result without a handle is a success of an
operation that makes no type. -/
structure Outcome where
  result : Except Fault (Option Handle)
  graph : Graph
  events : List Event

namespace Outcome

/-- A type was made or found. -/
def ofType (made : Logged (Handle × Graph)) : Outcome :=
  ⟨.ok (some made.value.1), made.value.2, made.events⟩

/-- A graph was changed, or not: then it stays what it was. -/
def ofChange (before : Graph) (change : Logged (Except Fault Graph)) : Outcome :=
  match change.value with
  | .ok after => ⟨.ok none, after, change.events⟩
  | .error fault => ⟨.error fault, before, change.events⟩

/-- A change that fails is no change. -/
theorem ofChange_graph_of_error {before : Graph} {change : Logged (Except Fault Graph)}
    {fault : Fault} (failed : (ofChange before change).result = .error fault) :
    (ofChange before change).graph = before := by
  unfold ofChange at failed ⊢
  split
  case h_1 after succeeded =>
    rw [succeeded] at failed
    cases failed
  case h_2 => rfl

end Outcome

/-- The handles that an operation mentions. -/
def Operation.mentioned : Operation → List Handle
  | .internVoid | .internBasic _ | .makeEnumeration | .makeRecord _ => []
  | .internPointer pointee => [pointee]
  | .makeFunction signature => signature.result :: signature.parameters.map (·.type)
  | .makeArray element _ => [element]
  | .addMember record _ type _ => [record, type]
  | .finalize record => [record]

/-- An operation fits a graph when all handles it mentions denote types of the graph. -/
def Operation.Fits (operation : Operation) (graph : Graph) : Prop :=
  ∀ handle ∈ operation.mentioned, handle.index < graph.size

/-- Whether an operation fits a graph is decided by looking at the handles it mentions. -/
instance (operation : Operation) (graph : Graph) : Decidable (operation.Fits graph) :=
  inferInstanceAs (Decidable (∀ handle ∈ operation.mentioned, handle.index < graph.size))

namespace Graph

/-- Perform one operation. -/
def perform (graph : Graph) : Operation → Outcome
  | .internVoid => .ofType (.silent graph.internVoid)
  | .internBasic type => .ofType (graph.internBasic type)
  | .internPointer pointee => .ofType (graph.internPointer pointee)
  | .makeEnumeration => .ofType (.silent graph.makeEnumeration)
  | .makeFunction signature => .ofType (.silent (graph.makeFunction signature))
  | .makeArray element count => .ofType (.silent (graph.makeArray element count))
  | .makeRecord isUnion => .ofType (.silent (graph.makeRecord isUnion))
  | .addMember record name? type location =>
    .ofChange graph (.silent (graph.addMember record name? type location))
  | .finalize record => .ofChange graph (graph.finalize record)

/-- An operation that fails leaves the graph as it was. -/
theorem perform_graph_of_error {graph : Graph} {operation : Operation} {fault : Fault}
    (failed : (graph.perform operation).result = .error fault) :
    (graph.perform operation).graph = graph := by
  cases operation with
  | addMember record name? type location => exact Outcome.ofChange_graph_of_error failed
  | finalize record => exact Outcome.ofChange_graph_of_error failed
  | internVoid => cases failed
  | internBasic type => cases failed
  | internPointer pointee => cases failed
  | makeEnumeration => cases failed
  | makeFunction signature => cases failed
  | makeArray element count => cases failed
  | makeRecord isUnion => cases failed

/-- The outcomes of a list of operations, each performed on what the one before left. -/
def performAll (graph : Graph) : List Operation → List Outcome
  | [] => []
  | operation :: rest =>
    let outcome := graph.perform operation
    outcome :: outcome.graph.performAll rest

/-- The graph that a list of operations leaves. -/
def after (graph : Graph) (operations : List Operation) : Graph :=
  operations.foldl (fun current operation => (current.perform operation).graph) graph

/-- Without operations the graph stays as it is. -/
@[simp]
theorem after_nil (graph : Graph) : graph.after [] = graph := rfl

/-- The first operation of a list is performed before the rest. -/
@[simp]
theorem after_cons (graph : Graph) (operation : Operation) (rest : List Operation) :
    graph.after (operation :: rest) = (graph.perform operation).graph.after rest := rfl

/-- A history leads from the first graph to the second. -/
inductive Evolves (start : Graph) : Graph → Prop where
  | refl : Evolves start start
  | step {graph : Graph} {operation : Operation} : Evolves start graph →
      operation.Fits graph → Evolves start (graph.perform operation).graph

/-- Histories can be put end to end. -/
theorem Evolves.trans {first second third : Graph} (early : Evolves first second)
    (late : Evolves second third) : Evolves first third := by
  induction late with
  | refl => exact early
  | step _ fits earlier => exact .step earlier fits

/-- A history leads to the graph from an empty graph of some data model. -/
def Reachable (graph : Graph) : Prop :=
  ∃ model, Evolves (empty model) graph

end Graph

end CTypeGraph
