import CTypeGraph.Proofs.Descent
import CTypeGraph.Proofs.ExactLayout

/-!
# A closed graph with an end to what it holds

A graph mentions only types of its own. Outside of records it mentions only types
that were there before, so nothing but a record can lead forward, and a record may
well declare a member of a later type, of its own type, or of an array of itself.
Such a record is never finalized. What a finalized record holds by value, however
deep, consists of objects that are measured, and going from a type to what it holds
comes to an end on every way.

The last part is carried by `Grounded`, which has been established for everything
that is measured; what is left to see is that holding leads from measured types to
measured types only.
-/

namespace CTypeGraph

open Relation

/-- Whether a finalized record may hold this node: it is a scalar, a pointer, an
array or a finalized struct. -/
def Node.Embeddable : Node → Prop
  | .basic _ | .enumeration | .pointer _ | .array .. => True
  | .record contents => contents.isFinalized = true ∧ contents.isUnion = false
  | .void | .function _ => False

namespace Graph

variable {graph : Graph} {type inner : Handle}

/-- What a measured type holds is measured: the members of a record were measured when
it was finalized, and the size of an array is made from the size of its element. -/
theorem Reachable.measures_held (reachable : graph.Reachable) {extent : Extent}
    (measured : graph.Measures type extent) (holds : graph.Holds type inner) :
    ∃ extent, graph.Measures inner extent := by
  unfold Holds held at holds
  cases there : graph.node type with
  | record contents =>
    have final : contents.isFinalized = true := (measured.of_record there).1
    simp only [there, final, if_true] at holds
    obtain ⟨member, within, rfl⟩ := List.mem_map.mp holds
    exact ((reachable.settled there final).member member within).2
  | array element count =>
    simp only [there, List.mem_singleton] at holds
    rw [holds]
    exact reachable.ordered.measures_element there measured
  | void | basic | enumeration | pointer | function => simp [there] at holds

/-- Whatever is reached from a measured type by what it holds is measured. -/
theorem Reachable.measures_reached (reachable : graph.Reachable) {extent : Extent}
    (measured : graph.Measures type extent) (path : ReflTransGen graph.Holds type inner) :
    ∃ extent, graph.Measures inner extent := by
  induction path with
  | refl => exact ⟨extent, measured⟩
  | tail _ holds inductionHypothesis =>
    obtain ⟨_, measuredMiddle⟩ := inductionHypothesis
    exact reachable.measures_held measuredMiddle holds

/-- A measured type is embeddable: it is an object, and if it is a record then it has
been finalized, which no union is. -/
theorem Reachable.embeddable (reachable : graph.Reachable) {extent : Extent}
    (measured : graph.Measures type extent) : (graph.node type).Embeddable := by
  have known := reachable.ordered.measures_iff.mp measured
  cases there : graph.node type with
  | void | function =>
    rw [there] at known
    exact known
  | basic | enumeration | pointer | array => trivial
  | record contents =>
    rw [there] at known
    exact ⟨known.1, (reachable.settled there known.1).isUnion⟩

/-- In a reachable graph every handle in a node denotes a type, and outside of records
an earlier one. Going from a finalized record to what it holds by value comes to an
end and never back, neither to the record nor to anything on the way, and whatever is
reached is an embeddable type with a size and an alignment. -/
theorem Reachable.containment_wellFounded (reachable : graph.Reachable) :
    (∀ handle, ∀ part ∈ (graph.node handle).parts, part.index < graph.size) ∧
      (∀ handle, (graph.node handle).isRecord = false →
        ∀ part ∈ (graph.node handle).parts, part.index < handle.index) ∧
      ∀ type contents, graph.node type = .record contents → contents.isFinalized = true →
        Acc (fun inner outer => graph.Holds outer inner) type ∧
          ¬ TransGen graph.Holds type type ∧
          ∀ inner, ReflTransGen graph.Holds type inner →
            ¬ TransGen graph.Holds inner inner ∧ (graph.node inner).Embeddable ∧
              ∃ extent, graph.Measures inner extent := by
  refine ⟨fun _ _ => reachable.ordered.present, ?earlier, ?held⟩
  case earlier =>
    intro handle other part mentioned
    refine reachable.ordered.earlier (fun contents there => ?_) mentioned
    rw [there] at other
    cases other
  case held =>
    intro type contents there final
    have grounded : graph.Grounded type := reachable.record_grounded there final
    refine ⟨grounded.acc, grounded.not_holds_self, fun inner path => ?_⟩
    obtain ⟨extent, measured⟩ := reachable.measures_reached (measures_record there final) path
    exact ⟨(reachable.grounded measured).not_holds_self, reachable.embeddable measured,
      extent, measured⟩

end Graph

/-- The outermost struct of the nested record holds an array, which is a later type,
and through it the innermost struct and an `int`. None of them leads back. -/
theorem nested_containment_wellFounded :
    nestedGraph.Reachable ∧ nestedGraph.node ⟨4⟩ = .record nestedRecord ∧
      nestedRecord.isFinalized = true ∧ (nestedGraph.node ⟨5⟩).isRecord = false ∧
      ReflTransGen nestedGraph.Holds ⟨4⟩ ⟨1⟩ ∧
      (∀ part ∈ (nestedGraph.node ⟨5⟩).parts, part.index < 5) ∧
      Acc (fun inner outer => nestedGraph.Holds outer inner) ⟨4⟩ ∧
      ¬ TransGen nestedGraph.Holds ⟨4⟩ ⟨4⟩ ∧
      ∃ extent, nestedGraph.Measures ⟨1⟩ extent := by
  have toArray : nestedGraph.Holds ⟨4⟩ ⟨5⟩ := by decide +kernel
  have toStruct : nestedGraph.Holds ⟨5⟩ ⟨2⟩ := by decide +kernel
  have toInt : nestedGraph.Holds ⟨2⟩ ⟨1⟩ := by decide +kernel
  have path : ReflTransGen nestedGraph.Holds ⟨4⟩ ⟨1⟩ :=
    .tail (.tail (.single toArray) toStruct) toInt
  have array : (nestedGraph.node ⟨5⟩).isRecord = false := by decide +kernel
  obtain ⟨_, earlier, below⟩ := nestedGraph_reachable.containment_wellFounded
  obtain ⟨ends, noReturn, reached⟩ := below ⟨4⟩ nestedRecord nestedGraph_record rfl
  obtain ⟨_, _, measured⟩ := reached ⟨1⟩ path
  exact ⟨nestedGraph_reachable, nestedGraph_record, rfl, array, path, earlier ⟨5⟩ array,
    ends, noReturn, measured⟩

end CTypeGraph
