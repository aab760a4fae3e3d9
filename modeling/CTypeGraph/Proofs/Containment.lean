import CTypeGraph.Proofs.Lifecycle

/-!
# What a type holds by value

A finalized record holds its members and an array holds its elements. A record
may declare members of types that come later, so the order of construction does
not show that this ends. It does end, because a record is finalized only when
each of its members is measured, and then it is itself measured and never
changes: the order of finalization is what carries the argument. `Grounded` is
the outcome of it, a finite derivation for every measured type, and
`Reachable.settled_induction` is the induction over nested records that results.
-/

namespace CTypeGraph

namespace Graph

variable {graph after : Graph} {type : Handle}

/-- The extent that the data model states for a node, when the node is a scalar. -/
def scalarExtent? (graph : Graph) : Node → Option Extent
  | .basic basic => some (graph.model.basic basic.kind)
  | .enumeration => some graph.model.int
  | .pointer _ => some graph.model.pointer
  | .void | .function _ | .record _ | .array .. => none

/-- What the type holds by value has an end: scalars hold nothing, and arrays and
finalized records hold only types of which this is true. -/
inductive Grounded (graph : Graph) : Handle → Prop
  | scalar {type : Handle} {extent : Extent}
      (stated : graph.scalarExtent? (graph.node type) = some extent) : Grounded graph type
  | array {type element : Handle} {count : UInt64}
      (there : graph.node type = .array element count) (inner : Grounded graph element) :
      Grounded graph type
  | record {type : Handle} {contents : Record} (there : graph.node type = .record contents)
      (final : contents.isFinalized = true)
      (inner : ∀ member ∈ contents.members, Grounded graph member.type) : Grounded graph type

/-- The extent of a scalar is that of a basic kind or that of a pointer. -/
theorem scalarExtent?_cases {node : Node} {extent : Extent}
    (stated : graph.scalarExtent? node = some extent) :
    (∃ kind, extent = graph.model.basic kind) ∨ extent = graph.model.pointer := by
  cases node with
  | basic basic => exact Or.inl ⟨basic.kind, (Option.some.inj stated).symm⟩
  | enumeration => exact Or.inl ⟨.int, (Option.some.inj stated).symm⟩
  | pointer pointee => exact Or.inr (Option.some.inj stated).symm
  | void | function | record | array => cases stated

/-- A scalar is a scalar of the same extent in every later graph. -/
theorem scalarExtent?_stable (later : graph.Extends after) {extent : Extent}
    (stated : graph.scalarExtent? (graph.node type) = some extent) :
    after.scalarExtent? (after.node type) = some extent := by
  cases there : graph.node type with
  | basic basic =>
    rw [later.node_eq there Node.noConfusion rfl]
    simpa [scalarExtent?, there, later.model] using stated
  | enumeration =>
    rw [later.node_eq there Node.noConfusion rfl]
    simpa [scalarExtent?, there, later.model] using stated
  | pointer pointee =>
    rw [later.node_eq there Node.noConfusion rfl]
    simpa [scalarExtent?, there, later.model] using stated
  | void | function | record | array => simp [scalarExtent?, there] at stated

/-- A derivation reads scalars, arrays and finalized records, so it stands later. -/
theorem Grounded.stable (later : graph.Extends after) (grounded : graph.Grounded type) :
    after.Grounded type := by
  induction grounded with
  | scalar stated => exact .scalar (scalarExtent?_stable later stated)
  | array there _ inductionHypothesis =>
    exact .array (later.node_eq there Node.noConfusion rfl) inductionHypothesis
  | record there final _ inductionHypothesis =>
    exact .record (later.node_eq there Node.noConfusion final) final inductionHypothesis

/-- If all finalized records are grounded then so is everything that is measured.
The induction is on the position and steps from an array to its element. -/
theorem Measures.grounded_of_records (ordered : graph.Ordered)
    (records : ∀ {type contents}, graph.node type = .record contents →
      contents.isFinalized = true → graph.Grounded type)
    {extent : Extent} (measured : graph.Measures type extent) : graph.Grounded type := by
  induction position : type.index using Nat.strong_induction_on generalizing type extent with
  | _ place inductionHypothesis =>
    have known := ordered.measures_iff.mp measured
    cases there : graph.node type with
    | basic | enumeration | pointer => exact .scalar (by rw [there]; rfl)
    | record contents =>
      rw [there] at known
      exact records there known.1
    | array element count =>
      rw [there] at known
      obtain ⟨inner, measuredInner, _⟩ := known
      have before : element.index < place := position ▸ ordered.element_earlier there
      exact .array there (inductionHypothesis element.index before measuredInner rfl)
    | void | function =>
      rw [there] at known
      exact known.elim

/-- In a reachable graph every finalized record is grounded. When a record is
finalized its members are measured in the graph before, and so already grounded
there; every other record was grounded before and remains so. -/
theorem Reachable.record_grounded (reachable : graph.Reachable) {contents : Record}
    (there : graph.node type = .record contents) (final : contents.isFinalized = true) :
    graph.Grounded type := by
  revert final
  refine reachable.record_induction (motive := fun graph type contents =>
    contents.isFinalized = true → graph.Grounded type) ?kept ?opened ?extended ?finalized there
  case kept =>
    intro before after type contents effect _ inductionHypothesis final
    exact (inductionHypothesis final).stable effect.extension
  case opened =>
    intro after type isUnion final
    cases final
  case extended =>
    intro before after type contents member _ building _ _ final
    exact absurd final (Bool.eq_false_iff.mp building)
  case finalized =>
    intro before after type draft settled reached effect inductionHypothesis _ _ _ laid there final
    obtain ⟨stop, settles⟩ := laidOut_eq_ok_iff.mp laid
    refine .record there final fun member within => ?_
    obtain ⟨_, extent, measured⟩ := settles.member member within
    exact (measured.grounded_of_records reached.ordered inductionHypothesis).stable
      effect.extension

/-- In a reachable graph everything that is measured is grounded. -/
theorem Reachable.grounded (reachable : graph.Reachable) {extent : Extent}
    (measured : graph.Measures type extent) : graph.Grounded type :=
  measured.grounded_of_records reachable.ordered reachable.record_grounded

/-- Induction over nested records. To show something of every finalized record
it is enough to show it of a settled record, given that the records among the types of
its members are finalized and that it holds of them. -/
theorem Reachable.settled_induction (reachable : graph.Reachable)
    {motive : Handle → Record → Prop}
    (nested : ∀ {type contents}, graph.node type = .record contents →
      graph.Settled type contents →
      (∀ member ∈ contents.members, ∀ inner, graph.node member.type = .record inner →
        inner.isFinalized = true ∧ motive member.type inner) →
      motive type contents)
    {contents : Record} (there : graph.node type = .record contents)
    (final : contents.isFinalized = true) : motive type contents := by
  have grounded : graph.Grounded type := reachable.record_grounded there final
  induction grounded generalizing contents with
  | scalar stated => simp [scalarExtent?, there] at stated
  | array known => simp [there] at known
  | record known _ _ inductionHypothesis =>
    rw [there, Node.record.injEq] at known
    subst known
    have settled : graph.Settled _ contents := reachable.settled there final
    refine nested there settled fun member within inner innerThere => ?_
    obtain ⟨_, extent, measured⟩ := settled.member member within
    have innerFinal : inner.isFinalized = true := (measured.of_record innerThere).1
    exact ⟨innerFinal, inductionHypothesis member within innerThere innerFinal⟩

end Graph

end CTypeGraph
