import CTypeGraph.Proofs.Equivalence

/-!
# Types that are the same have the same layout

A comparison of types looks at kinds and at structure. It reads no size, alignment
or offset, while a layout was computed when a record was finalized and is only read
afterwards. Both depend on the types of the members alone, and so types that are
the same take the same room and put their members in the same places. The names of
members, and with them the flat lists of fields, may differ.

Arrays are the exception, since two arrays are the same whatever their elements
are. `ArrayFree` leaves them out where they matter: a type and what it holds by
value through its members. Behind a pointer or a function they make no difference.
-/

namespace CTypeGraph

open Relation

namespace Graph

variable {graph : Graph} {type left right : Handle} {steps : Nat} {rule : RecordPointers}

/-- The first type is a finalized record with a member of the second type. -/
def Includes (graph : Graph) (outer inner : Handle) : Prop :=
  ∃ contents, graph.node outer = .record contents ∧ contents.isFinalized = true ∧
    ∃ member ∈ contents.members, member.type = inner

/-- Neither the type nor anything that is reached from it by going from finalized
records to the types of their members is an array. -/
def ArrayFree (graph : Graph) (type : Handle) : Prop :=
  ∀ inner, ReflTransGen graph.Includes type inner → (graph.node inner).isArray = false

/-- The members of an array-free record are array-free. -/
theorem ArrayFree.member (arrayFree : graph.ArrayFree type) {contents : Record}
    (there : graph.node type = .record contents) (final : contents.isFinalized = true) :
    ∀ member ∈ contents.members, graph.ArrayFree member.type :=
  fun member within _ path => arrayFree _ (.head ⟨contents, there, final, member, within, rfl⟩ path)

/-- A list of types that has no array, and with every record the types of its
members, is a list of array-free types. -/
theorem arrayFree_of_closed (types : List Handle)
    (flat : ∀ type ∈ types, (graph.node type).isArray = false)
    (closed : ∀ type ∈ types, ∀ contents ∈ (graph.node type).record?,
      ∀ member ∈ contents.members, member.type ∈ types) :
    ∀ type ∈ types, graph.ArrayFree type := by
  intro type listed inner path
  have reached : inner ∈ types := by
    induction path with
    | refl => exact listed
    | tail _ includes inductionHypothesis =>
      obtain ⟨contents, there, _, member, within, rfl⟩ := includes
      exact closed _ inductionHypothesis contents (by simp [there, Node.record?]) member within
  exact flat inner reached

/-- The extent of a node that is no array, when it has one. -/
def extent? (graph : Graph) : Node → Option Extent
  | .record contents => if contents.isFinalized then some ⟨contents.size, contents.align⟩ else none
  | node => graph.scalarExtent? node

/-- Something read off an answer is there when the answer is. -/
theorem toOption_map {α β : Type} {answer : Except Fault α} {read : α → β} :
    (answer.map read).toOption = answer.toOption.map read := by
  cases answer <;> rfl

/-- Reading the layout of a record gives it when the record is finalized. -/
theorem finalizedRecord_toOption {contents : Record} (there : graph.node type = .record contents) :
    (graph.finalizedRecord type).toOption =
      if contents.isFinalized then some contents else none := by
  have read : graph.record type = .ok contents := record_eq_ok_iff.mpr there
  cases final : contents.isFinalized <;>
    simp [finalizedRecord, read, final, bind, Except.bind, Except.toOption]

/-- Unless the type is an array, its size is read off its node. -/
theorem byteSize_toOption (flat : (graph.node type).isArray = false) :
    (graph.byteSize type).toOption = (graph.extent? (graph.node type)).map (·.size) := by
  cases there : graph.node type with
  | array => simp [there, Node.isArray] at flat
  | record contents =>
    simp only [byteSize, byteSizeWithin, there, Option.getD_some, toOption_map,
      finalizedRecord_toOption there, extent?]
    cases contents.isFinalized <;> rfl
  | void | basic | enumeration | pointer | function =>
    simp [byteSize, byteSizeWithin, there, extent?, scalarExtent?, Except.toOption]

/-- Unless the type is an array, its alignment is read off its node. -/
theorem byteAlign_toOption (flat : (graph.node type).isArray = false) :
    (graph.byteAlign type).toOption = (graph.extent? (graph.node type)).map (·.align) := by
  cases there : graph.node type with
  | array => simp [there, Node.isArray] at flat
  | record contents =>
    simp only [byteAlign, byteAlignWithin, there, Option.getD_some, toOption_map,
      finalizedRecord_toOption there, extent?]
    cases contents.isFinalized <;> rfl
  | void | basic | enumeration | pointer | function =>
    simp [byteAlign, byteAlignWithin, there, extent?, scalarExtent?, Except.toOption]

/-- Two types take the same room, or neither takes any, and if they are finalized
records then their members are in the same places. -/
structure SameLayout (graph : Graph) (left right : Handle) : Prop where
  size : (graph.byteSize left).toOption = (graph.byteSize right).toOption
  align : (graph.byteAlign left).toOption = (graph.byteAlign right).toOption
  offsets : ∀ {leftRecord rightRecord : Record}, graph.node left = .record leftRecord →
    graph.node right = .record rightRecord → leftRecord.isFinalized = true →
    rightRecord.isFinalized = true →
    leftRecord.members.map (·.offset?) = rightRecord.members.map (·.offset?)

namespace SameLayout

/-- A type has the layout that it has. -/
theorem refl (type : Handle) : graph.SameLayout type type := by
  refine ⟨rfl, rfl, fun leftThere rightThere _ _ => ?_⟩
  rw [leftThere, Node.record.injEq] at rightThere
  rw [rightThere]

/-- Types of the same layout have the same span. -/
theorem spanOf_eq (same : graph.SameLayout left right) :
    graph.spanOf left = graph.spanOf right := by
  simp only [spanOf, same.size, same.align]

/-- Members of the same layouts, in order, have the same spans. -/
theorem spansOf_eq {members others : List Member}
    (same : List.Forall₂ (fun one other => graph.SameLayout one.type other.type) members others) :
    graph.spansOf members = graph.spansOf others := by
  induction same with
  | nil => rfl
  | cons head _ inductionHypothesis =>
    simp only [spansOf, List.map_cons, head.spanOf_eq] at inductionHypothesis ⊢
    rw [inductionHypothesis]

/-- Types other than arrays have the same layout when their nodes have the same
extent, and the same offsets if both are finalized records. -/
theorem of_extent? {leftNode rightNode : Node} (leftThere : graph.node left = leftNode)
    (rightThere : graph.node right = rightNode) (leftFlat : leftNode.isArray = false)
    (rightFlat : rightNode.isArray = false)
    (extents : graph.extent? leftNode = graph.extent? rightNode)
    (offsets : ∀ {leftRecord rightRecord : Record}, leftNode = .record leftRecord →
      rightNode = .record rightRecord → leftRecord.isFinalized = true →
      rightRecord.isFinalized = true →
      leftRecord.members.map (·.offset?) = rightRecord.members.map (·.offset?)) :
    graph.SameLayout left right := by
  subst leftThere rightThere
  refine ⟨?_, ?_, offsets⟩
  · rw [byteSize_toOption leftFlat, byteSize_toOption rightFlat, extents]
  · rw [byteAlign_toOption leftFlat, byteAlign_toOption rightFlat, extents]

end SameLayout

/-- Two settled records whose members have the same spans, in order, have the same
size, alignment and offsets. -/
theorem Settled.layout_eq {other : Handle} {one two : Record} (settled : graph.Settled type one)
    (settled' : graph.Settled other two)
    (spans : graph.spansOf one.members = graph.spansOf two.members) :
    one.size = two.size ∧ one.align = two.align ∧
      one.members.map (·.offset?) = two.members.map (·.offset?) := by
  have stores := settled.stores
  have stores' := settled'.stores
  rw [← spans] at stores'
  refine ⟨?_, ?_, ?_⟩
  · rw [← UInt64.toNat_inj, stores.size, stores'.size]
  · rw [← UInt64.toNat_inj, stores.align, stores'.align]
  · have faithful : Function.Injective (List.map (Option.map UInt64.toNat)) :=
      List.map_injective_iff.mpr (Option.map_injective fun _ _ => UInt64.toNat_inj.mp)
    apply faithful
    simpa only [List.map_map, Function.comp_def] using stores.offsets.trans stores'.offsets.symm

/-- A comparison that says yes, under either rule, compares types of the same layout.
The induction is on the steps: the members of two complete records are the same in
one step less, so they have the same spans, and their placement is computed from
the spans. -/
theorem Reachable.confirmed_sameLayout (reachable : graph.Reachable)
    (same : graph.Confirmed steps rule left right) (arrayFree : graph.ArrayFree left) :
    graph.SameLayout left right := by
  induction steps generalizing rule left right with
  | zero => cases same
  | succ steps inductionHypothesis =>
    rcases confirmed_succ_iff.mp same with rfl | alike
    · exact .refl left
    · generalize leftThere : graph.node left = leftNode at alike
      generalize rightThere : graph.node right = rightNode at alike
      cases alike with
      | void | enumeration | basic | samePlace | bothIncomplete | pointees | functions =>
        exact .of_extent? leftThere rightThere rfl rfl rfl (by simp)
      | @openRecords leftRecord rightRecord leftOpen rightOpen =>
        have leftFinal := reachable.isFinalized_eq leftThere
        have rightFinal := reachable.isFinalized_eq rightThere
        simp only [leftOpen, rightOpen, Bool.not_true] at leftFinal rightFinal
        refine .of_extent? leftThere rightThere rfl rfl ?_ ?_
        · simp [extent?, leftFinal, rightFinal]
        · rintro _ _ ⟨⟩ ⟨⟩ final
          rw [leftFinal] at final
          cases final
      | @records leftRecord rightRecord leftComplete rightComplete members =>
        have leftFinal := reachable.isFinalized_eq leftThere
        have rightFinal := reachable.isFinalized_eq rightThere
        simp only [leftComplete, rightComplete, Bool.not_false] at leftFinal rightFinal
        have guarded := (List.forall₂_and_left _ _).mpr
          ⟨arrayFree.member leftThere leftFinal, members⟩
        have spans : graph.spansOf leftRecord.members = graph.spansOf rightRecord.members :=
          SameLayout.spansOf_eq (guarded.imp fun _ _ pair => inductionHypothesis pair.2 pair.1)
        have leftSettled : graph.Settled left leftRecord := reachable.settled leftThere leftFinal
        have rightSettled : graph.Settled right rightRecord :=
          reachable.settled rightThere rightFinal
        obtain ⟨size, align, offsets⟩ := leftSettled.layout_eq rightSettled spans
        refine .of_extent? leftThere rightThere rfl rfl ?_ ?_
        · simp [extent?, leftFinal, rightFinal, size, align]
        · rintro _ _ ⟨⟩ ⟨⟩ _ _
          exact offsets
      | arrays =>
        have flat : (graph.node left).isArray = false := arrayFree left .refl
        simp [leftThere, Node.isArray] at flat

/-- In a reachable graph, types that are the same have the same size and the same
alignment, or have none on either side, and finalized records among them have their
members at the same offsets, provided that the one holds no array by value. -/
theorem Reachable.sameType_sameLayout (reachable : graph.Reachable)
    (same : graph.sameType left right = true) (arrayFree : graph.ArrayFree left) :
    (graph.byteSize left).toOption = (graph.byteSize right).toOption ∧
      (graph.byteAlign left).toOption = (graph.byteAlign right).toOption ∧
      ∀ leftRecord rightRecord, graph.node left = .record leftRecord →
        graph.node right = .record rightRecord → leftRecord.isFinalized = true →
        rightRecord.isFinalized = true →
        leftRecord.members.map (·.offset?) = rightRecord.members.map (·.offset?) := by
  have layout : graph.SameLayout left right :=
    reachable.confirmed_sameLayout (sameType_eq_true_iff.mp same) arrayFree
  exact ⟨layout.size, layout.align, fun _ _ => layout.offsets⟩

end Graph

/-! ## Two structs of the same make

Two structs of a tag and a number, and two structs that hold one of them each and a
pointer to the same array. They differ in all names, and in one of them the inner
struct has none. -/

/-- The types are, in order: `char`, `int`, the two inner and the two outer structs,
an array, and the pointer to it. -/
def twinGraph : Graph :=
  (Graph.empty .lp64).after
    [.internBasic ⟨.char, true⟩, .internBasic ⟨.int, true⟩, .makeRecord false, .makeRecord false,
      .makeRecord false, .makeRecord false, .makeArray ⟨1⟩ 3, .internPointer ⟨6⟩,
      .addMember ⟨2⟩ (some "tag") ⟨0⟩ default, .addMember ⟨2⟩ (some "value") ⟨1⟩ default,
      .addMember ⟨3⟩ (some "kind") ⟨0⟩ default, .addMember ⟨3⟩ (some "amount") ⟨1⟩ default,
      .addMember ⟨4⟩ (some "flag") ⟨0⟩ default, .addMember ⟨4⟩ none ⟨2⟩ default,
      .addMember ⟨4⟩ (some "rows") ⟨7⟩ default, .addMember ⟨5⟩ (some "mark") ⟨0⟩ default,
      .addMember ⟨5⟩ (some "inner") ⟨3⟩ default, .addMember ⟨5⟩ (some "lines") ⟨7⟩ default,
      .finalize ⟨2⟩, .finalize ⟨3⟩, .finalize ⟨4⟩, .finalize ⟨5⟩]

/-- A history leads to the graph of the structs of the same make. -/
theorem twinGraph_reachable : twinGraph.Reachable :=
  ⟨.lp64, Graph.evolves_after (by decide +kernel)⟩

/-- The two outer structs are the same type, and the first holds no array. Both take
24 bytes on a boundary of eight, with their members at the same three offsets. -/
theorem twin_sameType_sameLayout :
    twinGraph.Reachable ∧ twinGraph.sameType ⟨4⟩ ⟨5⟩ = true ∧ twinGraph.ArrayFree ⟨4⟩ ∧
      (twinGraph.byteSize ⟨4⟩).toOption = (twinGraph.byteSize ⟨5⟩).toOption ∧
      (twinGraph.byteAlign ⟨4⟩).toOption = (twinGraph.byteAlign ⟨5⟩).toOption ∧
      (∀ leftRecord rightRecord, twinGraph.node ⟨4⟩ = .record leftRecord →
        twinGraph.node ⟨5⟩ = .record rightRecord → leftRecord.isFinalized = true →
        rightRecord.isFinalized = true →
        leftRecord.members.map (·.offset?) = rightRecord.members.map (·.offset?)) ∧
      (∀ type ∈ [(⟨4⟩ : Handle), ⟨5⟩],
        twinGraph.byteSize type = .ok 24 ∧ twinGraph.byteAlign type = .ok 8 ∧
        (twinGraph.finalizedRecord type).map (fun contents => contents.members.map (·.offset?)) =
          .ok [some 0, some 4, some 16]) := by
  have same : twinGraph.sameType ⟨4⟩ ⟨5⟩ = true := by decide +kernel
  have arrayFree : twinGraph.ArrayFree ⟨4⟩ :=
    Graph.arrayFree_of_closed [⟨0⟩, ⟨1⟩, ⟨2⟩, ⟨4⟩, ⟨7⟩] (by decide +kernel) (by decide +kernel)
      ⟨4⟩ (by decide +kernel)
  obtain ⟨sizes, aligns, offsets⟩ := twinGraph_reachable.sameType_sameLayout same arrayFree
  exact ⟨twinGraph_reachable, same, arrayFree, sizes, aligns, offsets, by decide +kernel⟩

end CTypeGraph
