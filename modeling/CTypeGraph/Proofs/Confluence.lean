import CTypeGraph.Proofs.Lifecycle
import Mathlib.Data.Finset.Card

/-!
# The order of finalizing does not matter

An attempt to finalize a record may fail because a record that it holds is still
under construction, and succeed later. Nothing is lost by the failure, and whatever
a later attempt reads is what the earlier one would have read: layouts are computed
from types that have settled. So it does not matter in which order records are
finalized, nor how often it is tried in vain. When no further attempt would succeed,
the graph is always the same one.

`Finalizes` says what attempts to finalize can do to a graph as a whole. The main
step is that an exhausted outcome has settled everything that any other sequence
of attempts has settled on its way: a record that it still lacked could be finalized
in it, because the layout that the other found stands there too.
-/

namespace CTypeGraph

namespace Graph

variable {graph start after other : Graph} {type : Handle}

/-- No type of the graph can be finalized. -/
def Exhausted (graph : Graph) : Prop :=
  ∀ type : Handle, type.index < graph.size → ∀ after, (graph.finalize type).value ≠ .ok after

/-- The second graph is the first with some of its records finalized, each with the
layout that its members have in the second graph. -/
structure Finalizes (start graph : Graph) : Prop where
  model : graph.model = start.model
  size : graph.size = start.size
  voidHandle : graph.voidHandle? = start.voidHandle?
  basicHandles : graph.basicHandles = start.basicHandles
  pointerHandles : graph.pointerHandles = start.pointerHandles
  node : ∀ type, graph.node type = start.node type ∨
    ∃ draft settled stop, start.node type = .record draft ∧ draft.isFinalized = false ∧
      graph.node type = .record settled ∧ graph.Settles type draft settled stop

/-- Putting a layout in its place settles one record more. -/
theorem extends_replace_layout {settled : Record} (layout : graph.layoutOf type = .ok settled) :
    graph.Extends (graph.replace type (.record settled)) := by
  obtain ⟨_, _, there, _⟩ := layoutOf_eq_ok_iff_settles.mp layout
  exact (Effect.exchanged (present_of_record there) (.finalized layout)).extension

namespace Finalizes

/-- Without any attempt nothing has changed. -/
theorem refl (graph : Graph) : Finalizes graph graph :=
  ⟨rfl, rfl, rfl, rfl, rfl, fun _ => Or.inl rfl⟩

/-- What attempts to finalize leave is later than what they start from. -/
theorem extension (finalizes : Finalizes start graph) : start.Extends graph where
  model := finalizes.model
  size_le := Nat.le_of_eq finalizes.size.symm
  settled := by
    intro handle _ fixed
    rcases finalizes.node handle with same | ⟨draft, _, _, there, building, _⟩
    · exact same
    · rw [there] at fixed
      exact absurd fixed (Bool.eq_false_iff.mp building)

/-- A record that is still under construction has not been touched. -/
theorem node_of_building (finalizes : Finalizes start graph) {draft : Record}
    (there : graph.node type = .record draft) (building : draft.isFinalized = false) :
    start.node type = .record draft := by
  rcases finalizes.node type with same | ⟨_, settled, _, _, _, known, settles⟩
  · rw [← same, there]
  · rw [there, Node.record.injEq] at known
    subst known
    rw [settles.isFinalized] at building
    cases building

/-- One attempt more finalizes one record more, or none. -/
theorem perform (finalizes : Finalizes start graph) (type : Handle) :
    Finalizes start (graph.perform (.finalize type)).graph := by
  rcases graph.perform_finalize_cases type with ⟨settled, layout, done⟩ | same
  · obtain ⟨draft, stop, there, _, building, settles⟩ := layoutOf_eq_ok_iff_settles.mp layout
    have later := extends_replace_layout layout
    rw [done]
    refine ⟨finalizes.model, (size_replace _ _ _).trans finalizes.size, finalizes.voidHandle,
      finalizes.basicHandles, finalizes.pointerHandles, fun handle => ?_⟩
    by_cases target : handle = type
    · subst target
      exact Or.inr ⟨draft, settled, stop, finalizes.node_of_building there building, building,
        node_replace_same graph _ (present_of_record there), settles.stable later⟩
    · rw [node_replace_other graph _ target]
      refine (finalizes.node handle).imp_right ?_
      rintro ⟨draft', settled', stop', there', building', known, settles'⟩
      exact ⟨draft', settled', stop', there', building', known, settles'.stable later⟩
  · rw [same]
    exact finalizes

/-- Attempts one after the other finalize some records. -/
theorem after_finalizing (finalizes : Finalizes start graph) (types : List Handle) :
    Finalizes start (graph.after (types.map .finalize)) := by
  induction types generalizing graph with
  | nil => exact finalizes
  | cons type rest inductionHypothesis => exact inductionHypothesis (finalizes.perform type)

/-- If an exhausted outcome has settled everything that has been settled on another
way so far, then it has settled what the next attempt settles. The layout that the
attempt finds stands in the outcome as well. There the record is not under
construction any more, or it could be finalized, and it has no other layout. -/
theorem perform_extends (finalizes : Finalizes start graph) (outcome : Finalizes start other)
    (exhausted : other.Exhausted) (covered : graph.Extends other) (type : Handle) :
    (graph.perform (.finalize type)).graph.Extends other := by
  rcases graph.perform_finalize_cases type with ⟨settled, layout, done⟩ | same
  · obtain ⟨draft, stop, there, struct, building, settles⟩ := layoutOf_eq_ok_iff_settles.mp layout
    have first : start.node type = .record draft := finalizes.node_of_building there building
    have stands : other.Settles type draft settled stop := settles.stable covered
    have reached : other.node type = .record settled := by
      rcases outcome.node type with same | ⟨draft', settled', stop', first', _, known, settles'⟩
      · -- Still under construction in the outcome, it could be finalized there.
        have untouched : other.node type = .record draft := same.trans first
        have possible : other.layoutOf type = .ok settled :=
          layoutOf_eq_ok_iff_settles.mpr ⟨draft, stop, untouched, struct, building, stands⟩
        exact absurd (finalize_eq_ok_iff.mpr ⟨settled, possible, rfl⟩)
          (exhausted type (present_of_record untouched) _)
      · -- Finalized in the outcome, it has the layout that the same draft has there.
        rw [first, Node.record.injEq] at first'
        subst first'
        have found : other.laidOut type draft = .ok settled := laidOut_eq_ok_iff.mpr ⟨stop, stands⟩
        have found' : other.laidOut type draft = .ok settled' :=
          laidOut_eq_ok_iff.mpr ⟨stop', settles'⟩
        rw [known, Except.ok.inj (found'.symm.trans found)]
    rw [done]
    refine ⟨covered.model, (size_replace _ _ _).trans_le covered.size_le, ?_⟩
    intro handle present fixed
    by_cases target : handle = type
    · subst target
      rw [node_replace_same graph _ (present_of_record there), reached]
    · rw [node_replace_other graph _ target] at fixed ⊢
      exact covered.settled (size_replace graph type _ ▸ present) fixed
  · rw [same]
    exact covered

/-- An exhausted outcome has settled everything that is settled after any attempts. -/
theorem after_extends (finalizes : Finalizes start graph) (outcome : Finalizes start other)
    (exhausted : other.Exhausted) (covered : graph.Extends other) (types : List Handle) :
    (graph.after (types.map .finalize)).Extends other := by
  induction types generalizing graph with
  | nil => exact covered
  | cons type rest inductionHypothesis =>
    exact inductionHypothesis (finalizes.perform type)
      (finalizes.perform_extends outcome exhausted covered type)

/-- Two outcomes that have settled the same are the same graph: what neither has
settled is as it was at the start. -/
theorem eq_of_extends (finalizes : Finalizes start graph) (outcome : Finalizes start other)
    (forth : graph.Extends other) (back : other.Extends graph) : graph = other := by
  have unsettled : ∀ {final : Graph} (type : Handle), Finalizes start final →
      (final.node type).isSettled = false → final.node type = start.node type := by
    intro final type reached open_
    rcases reached.node type with same | ⟨_, settled, _, _, _, known, settles⟩
    · exact same
    · rw [known] at open_
      exact absurd settles.isFinalized (Bool.eq_false_iff.mp open_)
  have size : graph.size = other.size := finalizes.size.trans outcome.size.symm
  have node : ∀ type : Handle, type.index < graph.size → graph.node type = other.node type := by
    intro type present
    cases fixed : (graph.node type).isSettled with
    | true => exact (forth.settled present fixed).symm
    | false =>
      cases fixed' : (other.node type).isSettled with
      | true => exact back.settled (size ▸ present) fixed'
      | false => exact (unsettled type finalizes fixed).trans (unsettled type outcome fixed').symm
  have nodes : graph.nodes = other.nodes := by
    refine Array.ext size fun index inside inside' => ?_
    simpa [Graph.node, Array.getD_eq_getD_getElem?, inside, inside'] using node ⟨index⟩ inside
  have model := finalizes.model.trans outcome.model.symm
  have voidHandle := finalizes.voidHandle.trans outcome.voidHandle.symm
  have basicHandles := finalizes.basicHandles.trans outcome.basicHandles.symm
  have pointerHandles := finalizes.pointerHandles.trans outcome.pointerHandles.symm
  cases graph
  cases other
  simp only at nodes model voidHandle basicHandles pointerHandles
  rw [nodes, model, voidHandle, basicHandles, pointerHandles]

end Finalizes

/-- The places of the nodes that can still change. -/
def unsettled (graph : Graph) : Finset ℕ :=
  {index ∈ Finset.range graph.size | (graph.node ⟨index⟩).isSettled = false}

/-- An attempt that succeeds leaves fewer nodes that can still change. -/
theorem unsettled_ssubset (finalized : (graph.finalize type).value = .ok after) :
    after.unsettled ⊂ graph.unsettled := by
  obtain ⟨settled, layout, rfl⟩ := finalize_eq_ok_iff.mp finalized
  obtain ⟨draft, stop, there, _, building, settles⟩ := layoutOf_eq_ok_iff_settles.mp layout
  have present : type.index < graph.size := present_of_record there
  have unlike : ∀ {index : ℕ}, index ∈ (graph.replace type (.record settled)).unsettled →
      (⟨index⟩ : Handle) ≠ type := by
    rintro index open_ rfl
    have notFixed := (Finset.mem_filter.mp open_).2
    rw [node_replace_same graph _ present] at notFixed
    exact absurd settles.isFinalized (Bool.eq_false_iff.mp notFixed)
  refine Finset.ssubset_iff_subset_ne.mpr ⟨fun index open_ => ?_, fun same => ?_⟩
  · have other := unlike open_
    simpa [unsettled, node_replace_other graph _ other] using open_
  · have open_ : type.index ∈ graph.unsettled :=
      Finset.mem_filter.mpr ⟨Finset.mem_range.mpr present, by rw [there]; exact building⟩
    exact unlike (same ▸ open_) rfl

/-- Every graph is exhausted by some attempts. -/
theorem exists_exhausted (graph : Graph) :
    ∃ types : List Handle, (graph.after (types.map .finalize)).Exhausted := by
  induction left : graph.unsettled.card using Nat.strong_induction_on generalizing graph with
  | _ count inductionHypothesis =>
    by_cases exhausted : graph.Exhausted
    · exact ⟨[], exhausted⟩
    · unfold Exhausted at exhausted
      push Not at exhausted
      obtain ⟨type, _, after, finalized⟩ := exhausted
      have fewer : after.unsettled.card < count :=
        left ▸ Finset.card_lt_card (unsettled_ssubset finalized)
      obtain ⟨types, done⟩ := inductionHypothesis _ fewer after rfl
      have performed : (graph.perform (.finalize type)).graph = after := by
        simp only [perform, Outcome.ofChange, finalized]
      refine ⟨type :: types, ?_⟩
      rw [List.map_cons, after_cons, performed]
      exact done

/-- Whatever the types and the order of the attempts to finalize them, when no
further attempt would succeed the graph is the same one, and there are attempts
that lead to it. -/
theorem finalize_confluent (graph : Graph) :
    (∃ types : List Handle, (graph.after (types.map .finalize)).Exhausted) ∧
      ∀ first second : List Handle, (graph.after (first.map .finalize)).Exhausted →
        (graph.after (second.map .finalize)).Exhausted →
        graph.after (first.map .finalize) = graph.after (second.map .finalize) := by
  refine ⟨graph.exists_exhausted, fun first second firstDone secondDone => ?_⟩
  have one : Finalizes graph (graph.after (first.map .finalize)) :=
    (Finalizes.refl graph).after_finalizing first
  have other : Finalizes graph (graph.after (second.map .finalize)) :=
    (Finalizes.refl graph).after_finalizing second
  have forth := (Finalizes.refl graph).after_extends other secondDone other.extension first
  have back := (Finalizes.refl graph).after_extends one firstDone one.extension second
  exact one.eq_of_extends other forth back

/-- Whether a graph is exhausted is decided by one attempt at each of its types. -/
instance (graph : Graph) : Decidable graph.Exhausted :=
  decidable_of_iff (∀ index < graph.size, (graph.finalize ⟨index⟩).value.isOk = false) <| by
    constructor
    · intro refused type present after finalized
      simpa [finalized, Except.isOk, Except.toBool] using refused type.index present
    · intro exhausted index present
      cases answered : (graph.finalize ⟨index⟩).value with
      | error fault => rfl
      | ok after => exact absurd answered (exhausted ⟨index⟩ present after)

end Graph

/-! ## Three structs and a union -/

/-- The types are, in order: `char`, two structs, a union, one more struct, and an
array of the second struct. The first struct holds the second, which holds a `char`.
The third holds the array and the union, and so it is never finalized. -/
def pendingGraph : Graph :=
  (Graph.empty .lp64).after
    [.internBasic ⟨.char, true⟩, .makeRecord false, .makeRecord false, .makeRecord true,
      .makeRecord false, .makeArray ⟨2⟩ 3, .addMember ⟨1⟩ none ⟨2⟩ default,
      .addMember ⟨2⟩ (some "tag") ⟨0⟩ default, .addMember ⟨4⟩ (some "rows") ⟨5⟩ default,
      .addMember ⟨4⟩ (some "choice") ⟨3⟩ default]

/-- The graph after attempts from the outside in, with a second try at the first struct. -/
def finishedGraph : Graph :=
  pendingGraph.after ([⟨4⟩, ⟨1⟩, ⟨2⟩, ⟨1⟩].map .finalize)

/-- Attempts from the outside in and attempts from the inside out, with others in between that
fail, lead to the same graph. In it the first two structs are finalized, with one byte each, and
the third is not. -/
theorem pending_finalize_confluent :
    finishedGraph.Exhausted ∧
      (pendingGraph.after ([⟨2⟩, ⟨3⟩, ⟨2⟩, ⟨1⟩, ⟨4⟩].map .finalize)).Exhausted ∧
      finishedGraph = pendingGraph.after ([⟨2⟩, ⟨3⟩, ⟨2⟩, ⟨1⟩, ⟨4⟩].map .finalize) ∧
      (finishedGraph.finalizedRecord ⟨1⟩).map (·.size) = .ok 1 ∧
      (finishedGraph.finalizedRecord ⟨2⟩).map (·.size) = .ok 1 ∧
      (finishedGraph.finalizedRecord ⟨4⟩).isOk = false := by
  have outside : finishedGraph.Exhausted := by decide +kernel
  have inside : (pendingGraph.after ([⟨2⟩, ⟨3⟩, ⟨2⟩, ⟨1⟩, ⟨4⟩].map .finalize)).Exhausted := by
    decide +kernel
  exact ⟨outside, inside, pendingGraph.finalize_confluent.2 _ _ outside inside,
    by decide +kernel, by decide +kernel, by decide +kernel⟩

end CTypeGraph
