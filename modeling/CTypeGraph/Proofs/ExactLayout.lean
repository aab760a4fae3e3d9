import CTypeGraph.Proofs.Containment

/-!
# Stored layouts are exact

Finalizing a record reads numbers that were stored when its members were
finalized, and it computes with machine words. The layout of a record is worked
out here in another way: from the declarations alone, all the way down to the
scalars, on natural numbers. `Spans` is that derivation for one type and
`Recomputes` is its last step for a record. No stored size, alignment or offset
enters into either.

`Reachable.layout_exact` says that the two ways agree for every finalized record
at every later time, and that the questions about its size and alignment are
answered with the exact numbers.
-/

namespace CTypeGraph

/-- Where the members of a record are, and what the record measures. -/
structure Placement where
  offsets : List Nat
  span : Span
  deriving DecidableEq, Repr

/-- Objects of these spans as the members of a record: one after the other from
zero, under the largest of their alignments, at least one; the size is the end of
the last one, rounded up to that alignment. -/
def Placement.ofSpans (spans : List Span) : Placement where
  offsets := offsetsFrom 0 spans
  span := ⟨alignedUp (endFrom 0 spans) (widestFrom 1 spans), widestFrom 1 spans⟩

/-- The record states this placement, number by number and with no offset absent. -/
structure Record.Stores (record : Record) (placement : Placement) : Prop where
  offsets : record.members.map (fun member => member.offset?.map UInt64.toNat) =
    placement.offsets.map some
  size : record.size.toNat = placement.span.size
  align : record.align.toNat = placement.span.align

namespace Graph

variable {graph after : Graph} {type : Handle}

/-- The span of a type, worked out from the data model and the declarations. Of a
record only the types of its members are read, and that it is finalized. -/
inductive Spans (graph : Graph) : Handle → Span → Prop
  | scalar {type : Handle} {extent : Extent}
      (stated : graph.scalarExtent? (graph.node type) = some extent) :
      Spans graph type extent.span
  | array {type element : Handle} {count : UInt64} {span : Span}
      (there : graph.node type = .array element count) (inner : Spans graph element span) :
      Spans graph type ⟨count.toNat * span.size, span.align⟩
  | record {type : Handle} {contents : Record} {span : Handle → Span}
      (there : graph.node type = .record contents) (final : contents.isFinalized = true)
      (inner : ∀ member ∈ contents.members, Spans graph member.type (span member.type)) :
      Spans graph type (Placement.ofSpans (contents.members.map (span ·.type))).span

/-- The placement of a finalized record, worked out from the spans of its members. -/
def Recomputes (graph : Graph) (type : Handle) (placement : Placement) : Prop :=
  ∃ contents, ∃ span : Handle → Span, graph.node type = .record contents ∧
    contents.isFinalized = true ∧
    (∀ member ∈ contents.members, graph.Spans member.type (span member.type)) ∧
    placement = .ofSpans (contents.members.map (span ·.type))

/-- A type has one span at most. -/
theorem Spans.unique {one other : Span} (worked : graph.Spans type one)
    (again : graph.Spans type other) : one = other := by
  induction worked generalizing other with
  | scalar stated =>
    cases again with
    | scalar stated' =>
      rw [stated, Option.some.injEq] at stated'
      rw [stated']
    | array there => simp [there, scalarExtent?] at stated
    | record there => simp [there, scalarExtent?] at stated
  | array there _ inductionHypothesis =>
    cases again with
    | scalar stated => simp [there, scalarExtent?] at stated
    | array there' inner' =>
      rw [there, Node.array.injEq] at there'
      obtain ⟨rfl, rfl⟩ := there'
      rw [inductionHypothesis inner']
    | record there' => simp [there] at there'
  | record there _ _ inductionHypothesis =>
    cases again with
    | scalar stated => simp [there, scalarExtent?] at stated
    | array there' => simp [there] at there'
    | record there' _ inner' =>
      rw [there, Node.record.injEq] at there'
      subst there'
      rw [List.map_congr_left fun member within =>
        inductionHypothesis member within (inner' member within)]

/-- A record has one recomputed placement at most. -/
theorem Recomputes.unique {one other : Placement} (worked : graph.Recomputes type one)
    (again : graph.Recomputes type other) : one = other := by
  obtain ⟨contents, span, there, _, spans, rfl⟩ := worked
  obtain ⟨contents', span', there', _, spans', rfl⟩ := again
  rw [there, Node.record.injEq] at there'
  subst there'
  rw [List.map_congr_left fun member within =>
    (spans member within).unique (spans' member within)]

/-- A settled record states the placement of its members by the spans that the
graph has for them. Only one level is looked at. -/
theorem Settled.stores {contents : Record} (settled : graph.Settled type contents) :
    contents.Stores (.ofSpans (graph.spansOf contents.members)) := by
  obtain ⟨draft, stop, isOpen, _, settles⟩ := settled
  have sameSpans : graph.spansOf contents.members = graph.spansOf draft.members := by
    simpa [spansOf, Function.comp_def] using congrArg (List.map graph.spanOf) settles.types
  have least : (max draft.align 1).toNat = 1 := by
    rw [isOpen.align]
    rfl
  obtain ⟨_, widest⟩ := widestAlign_eq_ok_iff.mp settles.widest
  rw [least] at widest
  rw [sameSpans]
  refine ⟨settles.places.offsets, ?_, widest.symm⟩
  have finish := settles.places.finish_eq
  simp only [Placement.ofSpans, widest]
  rw [← settles.rounded, finish]
  rfl

/-- The spans that a graph has for the members of a settled record are worked out
from their declarations, if this is so for everything that is measured. -/
theorem Settled.spans {contents : Record} (settled : graph.Settled type contents)
    (worked : ∀ member ∈ contents.members, ∀ extent,
      graph.Measures member.type extent → graph.Spans member.type extent.span) :
    ∀ member ∈ contents.members, graph.Spans member.type (graph.spanOf member.type) := by
  intro member within
  obtain ⟨_, extent, measured⟩ := settled.member member within
  rw [measured.spanOf_eq]
  exact worked member within extent measured

/-- What a reachable graph says about size and alignment is what the declarations
give. The induction follows what the type holds by value: at an array the checked
product is exact, and at a record one level of placement is exact and the spans of
the members are those of the induction. -/
theorem Reachable.spans (reachable : graph.Reachable) {extent : Extent}
    (measured : graph.Measures type extent) : graph.Spans type extent.span := by
  have grounded : graph.Grounded type := reachable.grounded measured
  have known := reachable.ordered.measures_iff.mp measured
  induction grounded generalizing extent with
  | @scalar type stated_extent stated =>
    have same : extent = stated_extent := by
      cases there : graph.node type with
      | basic | enumeration | pointer =>
        rw [there] at known stated
        exact known.trans (Option.some.inj stated)
      | void | function | record | array => simp [scalarExtent?, there] at stated
    rw [same]
    exact .scalar stated
  | @array type element count there _ inductionHypothesis =>
    rw [there] at known
    obtain ⟨inner, measuredInner, product, aligned⟩ := known
    have worked : graph.Spans element inner.span :=
      inductionHypothesis measuredInner (reachable.ordered.measures_iff.mp measuredInner)
    have same : extent.span = ⟨count.toNat * inner.span.size, inner.span.align⟩ := by
      simp only [Extent.span, ← product, ← aligned, Nat.mul_comm]
    rw [same]
    exact .array there worked
  | @record type contents there final _ inductionHypothesis =>
    have settled : graph.Settled type contents := reachable.settled there final
    have inner : ∀ member ∈ contents.members, graph.Spans member.type (graph.spanOf member.type) :=
      settled.spans fun member within extent memberMeasured =>
        inductionHypothesis member within memberMeasured
          (reachable.ordered.measures_iff.mp memberMeasured)
    have same : extent = ⟨contents.size, contents.align⟩ :=
      measured.unique (measures_record there final)
    have stores := settled.stores
    have stated : extent.span = (Placement.ofSpans (graph.spansOf contents.members)).span := by
      rw [same]
      exact congr (congrArg Span.mk stores.size) stores.align
    rw [stated]
    exact .record there final inner

/-- In a reachable graph every finalized record states exactly the placement that
its declarations give on natural numbers, and no other placement is given by them;
its size and alignment are answered accordingly. -/
theorem Reachable.layout_exact (reachable : graph.Reachable) {contents : Record}
    (there : graph.node type = .record contents) (final : contents.isFinalized = true) :
    ∃ placement, (∀ other, graph.Recomputes type other ↔ other = placement) ∧
      contents.Stores placement ∧
      graph.byteSize type = .ok contents.size ∧ graph.byteAlign type = .ok contents.align := by
  have settled : graph.Settled type contents := reachable.settled there final
  have measured : graph.Measures type ⟨contents.size, contents.align⟩ :=
    measures_record there final
  have recomputed : graph.Recomputes type (.ofSpans (graph.spansOf contents.members)) :=
    ⟨contents, graph.spanOf, there, final, settled.spans fun _ _ _ => reachable.spans, rfl⟩
  refine ⟨_, fun other => ⟨fun worked => worked.unique recomputed, ?_⟩, settled.stores,
    measured.size, measured.align⟩
  rintro rfl
  exact recomputed

end Graph

/-! ## A nested record

A history for the examples of this and later modules. A struct of a tag and a
value stands unnamed in a second one, and that one unnamed in a third, which
also holds an array of the first, a pointer to itself and a pointer to a function
that takes the first by value. One attempt to finalize comes too early and fails. -/

/-- The types are, in order: `char`, `int`, the three structs, the array, the
pointer to the outermost struct, the function, and the pointer to it. -/
def nestedHistory : List Operation :=
  [.internBasic ⟨.char, true⟩, .internBasic ⟨.int, true⟩,
    .makeRecord false, .makeRecord false, .makeRecord false,
    .makeArray ⟨2⟩ 3, .internPointer ⟨4⟩,
    .makeFunction ⟨⟨1⟩, [⟨none, ⟨2⟩⟩], false⟩, .internPointer ⟨7⟩,
    .addMember ⟨2⟩ (some "tag") ⟨0⟩ default, .addMember ⟨2⟩ (some "value") ⟨1⟩ default,
    .addMember ⟨3⟩ none ⟨2⟩ default, .addMember ⟨3⟩ (some "mark") ⟨0⟩ default,
    .addMember ⟨4⟩ (some "flag") ⟨0⟩ default, .addMember ⟨4⟩ none ⟨3⟩ default,
    .finalize ⟨4⟩, .finalize ⟨2⟩, .finalize ⟨3⟩,
    .addMember ⟨4⟩ (some "rows") ⟨5⟩ default, .addMember ⟨4⟩ (some "next") ⟨6⟩ default,
    .addMember ⟨4⟩ (some "visit") ⟨8⟩ default, .finalize ⟨4⟩]

/-- The graph that the history leaves. -/
def nestedGraph : Graph :=
  (Graph.empty .lp64).after nestedHistory

/-- The outermost struct as the history leaves it. -/
def nestedRecord : Record where
  isUnion := false
  incomplete := false
  stage := .finalized
  members := [⟨some "flag", ⟨0⟩, some 0⟩, ⟨none, ⟨3⟩, some 4⟩, ⟨some "rows", ⟨5⟩, some 16⟩,
    ⟨some "next", ⟨6⟩, some 40⟩, ⟨some "visit", ⟨8⟩, some 48⟩]
  exports := [⟨some "flag", ⟨0⟩, some 0⟩, ⟨some "tag", ⟨0⟩, some 4⟩, ⟨some "value", ⟨1⟩, some 8⟩,
    ⟨some "mark", ⟨0⟩, some 12⟩, ⟨some "rows", ⟨5⟩, some 16⟩, ⟨some "next", ⟨6⟩, some 40⟩,
    ⟨some "visit", ⟨8⟩, some 48⟩]
  size := 56
  align := 8

/-- The history of the nested record starts from an empty graph. -/
theorem nestedGraph_reachable : nestedGraph.Reachable :=
  ⟨.lp64, Graph.evolves_after (by decide +kernel)⟩

/-- The last attempt to finalize the outermost struct has succeeded. -/
theorem nestedGraph_record : nestedGraph.node ⟨4⟩ = .record nestedRecord := by
  decide +kernel

/-- The layout of the outermost struct is recomputed as it is stored: the inner
structs take 8 and 12 bytes, and the array of three takes 24. -/
theorem nested_layout_exact :
    nestedGraph.Reachable ∧ nestedGraph.node ⟨4⟩ = .record nestedRecord ∧
      nestedRecord.isFinalized = true ∧
      ∃ placement, (∀ other, nestedGraph.Recomputes ⟨4⟩ other ↔ other = placement) ∧
        nestedRecord.Stores placement ∧
        nestedGraph.byteSize ⟨4⟩ = .ok 56 ∧ nestedGraph.byteAlign ⟨4⟩ = .ok 8 :=
  ⟨nestedGraph_reachable, nestedGraph_record, rfl,
    nestedGraph_reachable.layout_exact nestedGraph_record rfl⟩

end CTypeGraph
