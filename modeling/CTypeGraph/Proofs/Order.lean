import CTypeGraph.Proofs.Placement

/-!
# The order of construction

A graph is built from the inside out, except for records: a pointer, a function
or an array mentions only types that were there before it, while a record may
mention types that came later, itself included. `Ordered` states this for every
node together with the plainer fact that all handles in a node denote types.

The order is why measuring a type always comes to an end: from an array the
question goes to an earlier type and a record is not looked into. With the steps
out of the way, `measures_iff` says what it means for each kind of node to be
measured.
-/

namespace CTypeGraph

namespace Graph

variable {graph after : Graph} {type : Handle}

/-- Every mentioned handle denotes a type, and outside of records an earlier one. -/
structure Ordered (graph : Graph) : Prop where
  present : ∀ {handle part : Handle}, part ∈ (graph.node handle).parts → part.index < graph.size
  earlier : ∀ {handle part : Handle}, (∀ contents, graph.node handle ≠ .record contents) →
    part ∈ (graph.node handle).parts → part.index < handle.index

/-- The fields that a member contributes have its own type or a type that the
inner record mentions. -/
theorem fieldsOf_type_mem {member field : Member} (contributed : field ∈ graph.fieldsOf member) :
    field.type = member.type ∨ field.type ∈ (graph.node member.type).parts := by
  unfold fieldsOf at contributed
  split at contributed
  case h_1 inner unnamed there =>
    obtain ⟨sub, exported, rfl⟩ := List.mem_map.mp contributed
    right
    rw [there]
    exact List.mem_append_right _ (List.mem_map.mpr ⟨sub, exported, rfl⟩)
  case h_2 =>
    left
    rw [List.mem_singleton.mp contributed]

/-- Laying out a record mentions no handle that the graph has not. -/
theorem Settles.parts_present {draft settled : Record} {stop : ByteCount}
    (settles : graph.Settles type draft settled stop) (ordered : graph.Ordered)
    (there : graph.node type = .record draft) :
    ∀ part ∈ (Node.record settled).parts, part.index < graph.size := by
  have memberPresent : ∀ member ∈ settled.members, member.type.index < graph.size := by
    intro member within
    have mentioned : member.type ∈ (graph.node type).parts := by
      rw [there]
      exact List.mem_append_left _ (settles.type_mem within)
    exact ordered.present mentioned
  intro part mentioned
  rcases List.mem_append.mp mentioned with declared | exported
  · obtain ⟨member, within, rfl⟩ := List.mem_map.mp declared
    exact memberPresent member within
  · obtain ⟨field, listed, rfl⟩ := List.mem_map.mp exported
    rw [settles.exports] at listed
    obtain ⟨member, within, contributed⟩ := List.mem_flatMap.mp listed
    rcases fieldsOf_type_mem contributed with same | inner
    · rw [same]
      exact memberPresent member within
    · exact ordered.present inner

/-- Each fate of a node keeps the order: what is new was checked on arrival. -/
theorem Ordered.preserved (ordered : graph.Ordered) (effect : Effect graph after) :
    after.Ordered := by
  have kept : ∀ {handle : Handle}, handle.index < graph.size → handle.index < after.size :=
    fun inside => Nat.lt_of_lt_of_le inside effect.size_le
  have node : ∀ handle, (∀ part ∈ (after.node handle).parts, part.index < after.size) ∧
      ((∀ contents, after.node handle ≠ .record contents) →
        ∀ part ∈ (after.node handle).parts, part.index < handle.index) := by
    intro handle
    by_cases present : handle.index < after.size
    · have fate := effect.fate present
      generalize after.node handle = node at fate
      cases fate with
      | kept => exact ⟨fun _ mentioned => kept (ordered.present mentioned),
          fun solid _ mentioned => ordered.earlier solid mentioned⟩
      | made last solid earlier =>
        exact ⟨fun part mentioned => kept (earlier part mentioned),
          fun _ part mentioned => last ▸ earlier part mentioned⟩
      | opened last isUnion => simp [Node.parts, Record.fresh]
      | @extended contents member there building typePresent unplaced =>
        refine ⟨?_, fun solid => absurd rfl (solid _)⟩
        intro part mentioned
        apply kept
        have old : ∀ part ∈ (Node.record contents).parts, part.index < graph.size := by
          rw [← there]
          exact fun _ => ordered.present
        simp only [Node.parts, List.map_append, List.map_cons, List.map_nil, List.mem_append,
          List.mem_singleton] at mentioned old
        rcases mentioned with (declared | rfl) | exported
        · exact old part (Or.inl declared)
        · exact typePresent
        · exact old part (Or.inr exported)
      | finalized settled =>
        refine ⟨?_, fun solid => absurd rfl (solid _)⟩
        obtain ⟨draft, there, _, _, laid⟩ := layoutOf_eq_ok_iff.mp settled
        obtain ⟨stop, settles⟩ := laidOut_eq_ok_iff.mp laid
        exact fun part mentioned => kept (settles.parts_present ordered there part mentioned)
    · have outside : after.node handle = .void := node_of_size_le (Nat.le_of_not_lt present)
      simp [outside, Node.parts]
  exact ⟨fun {handle part} mentioned => (node handle).1 part mentioned,
    fun {handle part} solid mentioned => (node handle).2 solid part mentioned⟩

/-- Every reachable graph is ordered. -/
theorem Reachable.ordered (reachable : graph.Reachable) : graph.Ordered := by
  refine reachable.induction ?_ fun _ ordered effect => ordered.preserved effect
  intro model
  have vacant : ∀ handle, (empty model).node handle = .void :=
    fun handle => node_of_size_le (Nat.zero_le handle.index)
  exact ⟨by simp [vacant, Node.parts], by simp [vacant, Node.parts]⟩

namespace Ordered

/-- The element of an array came before the array. -/
theorem element_earlier (ordered : graph.Ordered) {element : Handle} {count : UInt64}
    (there : graph.node type = .array element count) : element.index < type.index := by
  apply ordered.earlier
  · simp [there]
  · simp [there, Node.parts]

/-- Two numbers of steps beyond the position of a type find the same size. -/
theorem byteSizeWithin_agree (ordered : graph.Ordered) {steps more : Nat}
    (enough : type.index < steps) (beyond : type.index < more) :
    graph.byteSizeWithin steps type = graph.byteSizeWithin more type := by
  induction steps generalizing more type with
  | zero => exact absurd enough (Nat.not_lt_zero _)
  | succ steps inductionHypothesis =>
    cases more with
    | zero => exact absurd beyond (Nat.not_lt_zero _)
    | succ more =>
      cases there : graph.node type with
      | array element count =>
        have before : element.index < type.index := ordered.element_earlier there
        have same : graph.byteSizeWithin steps element = graph.byteSizeWithin more element :=
          inductionHypothesis (by omega) (by omega)
        simp only [byteSizeWithin, there, same]
      | void | basic | enumeration | pointer | function | record =>
        simp only [byteSizeWithin, there]

/-- Two numbers of steps beyond the position of a type find the same alignment. -/
theorem byteAlignWithin_agree (ordered : graph.Ordered) {steps more : Nat}
    (enough : type.index < steps) (beyond : type.index < more) :
    graph.byteAlignWithin steps type = graph.byteAlignWithin more type := by
  induction steps generalizing more type with
  | zero => exact absurd enough (Nat.not_lt_zero _)
  | succ steps inductionHypothesis =>
    cases more with
    | zero => exact absurd beyond (Nat.not_lt_zero _)
    | succ more =>
      cases there : graph.node type with
      | array element count =>
        have before : element.index < type.index := ordered.element_earlier there
        have same : graph.byteAlignWithin steps element = graph.byteAlignWithin more element :=
          inductionHypothesis (by omega) (by omega)
        simp only [byteAlignWithin, there, same]
      | void | basic | enumeration | pointer | function | record =>
        simp only [byteAlignWithin, there]

/-- With the steps that its position allows the size of a type is found or refused:
the steps do not run out. -/
theorem byteSizeWithin_isSome (ordered : graph.Ordered) {steps : Nat}
    (enough : type.index < steps) : (graph.byteSizeWithin steps type).isSome := by
  induction steps generalizing type with
  | zero => exact absurd enough (Nat.not_lt_zero _)
  | succ steps inductionHypothesis =>
    cases there : graph.node type with
    | array element count =>
      have before : element.index < type.index := ordered.element_earlier there
      have found : (graph.byteSizeWithin steps element).isSome := inductionHypothesis (by omega)
      simp only [byteSizeWithin, there, Option.isSome_map, found]
    | void | basic | enumeration | pointer | function | record =>
      simp only [byteSizeWithin, there, Option.isSome_some]

/-- Nor do they run out on the way to the alignment of a type. -/
theorem byteAlignWithin_isSome (ordered : graph.Ordered) {steps : Nat}
    (enough : type.index < steps) : (graph.byteAlignWithin steps type).isSome := by
  induction steps generalizing type with
  | zero => exact absurd enough (Nat.not_lt_zero _)
  | succ steps inductionHypothesis =>
    cases there : graph.node type with
    | array element count =>
      have before : element.index < type.index := ordered.element_earlier there
      have found : (graph.byteAlignWithin steps element).isSome := inductionHypothesis (by omega)
      simp only [byteAlignWithin, there, found]
    | void | basic | enumeration | pointer | function | record =>
      simp only [byteAlignWithin, there, Option.isSome_some]

/-- An array is as large as its element, its count many times, if that fits. -/
theorem byteSize_array_eq_ok_iff (ordered : graph.Ordered) {element : Handle} {count : UInt64}
    (there : graph.node type = .array element count) {size : ByteCount} :
    graph.byteSize type = .ok size ↔
      ∃ each, graph.byteSize element = .ok each ∧ each.toNat * count.toNat = size.toNat := by
  have before : element.index < type.index := ordered.element_earlier there
  have same : graph.byteSizeWithin type.index element =
      graph.byteSizeWithin (element.index + 1) element :=
    ordered.byteSizeWithin_agree before (Nat.lt_succ_self _)
  simp only [byteSize_eq_ok_iff]
  simp only [byteSizeWithin.eq_def graph (type.index + 1), there, same, Option.map_eq_some_iff]
  constructor
  · rintro ⟨answer, found, product⟩
    cases answer with
    | error fault => cases product
    | ok each =>
      simp only [fitting_eq_ok_iff, ByteCount.mul?_eq_some_iff] at product
      exact ⟨each, found, product⟩
  · rintro ⟨each, found, product⟩
    refine ⟨.ok each, found, ?_⟩
    simp only [fitting_eq_ok_iff, ByteCount.mul?_eq_some_iff]
    exact product

/-- An array is aligned as its element is. -/
theorem byteAlign_array (ordered : graph.Ordered) {element : Handle} {count : UInt64}
    (there : graph.node type = .array element count) {align : ByteCount} :
    graph.byteAlign type = .ok align ↔ graph.byteAlign element = .ok align := by
  have before : element.index < type.index := ordered.element_earlier there
  have same : graph.byteAlignWithin type.index element =
      graph.byteAlignWithin (element.index + 1) element :=
    ordered.byteAlignWithin_agree before (Nat.lt_succ_self _)
  simp only [byteAlign_eq_ok_iff]
  simp only [byteAlignWithin.eq_def graph (type.index + 1), there, same]

/-- What it means for each kind of node to have an object layout. -/
theorem measures_iff (ordered : graph.Ordered) {extent : Extent} :
    graph.Measures type extent ↔
      match graph.node type with
      | .basic basic => extent = graph.model.basic basic.kind
      | .enumeration => extent = graph.model.int
      | .pointer _ => extent = graph.model.pointer
      | .array element count => ∃ inner, graph.Measures element inner ∧
          inner.size.toNat * count.toNat = extent.size.toNat ∧ inner.align = extent.align
      | .record contents => contents.isFinalized = true ∧ extent = ⟨contents.size, contents.align⟩
      | .void | .function _ => False := by
  cases there : graph.node type with
  | array element count =>
    constructor
    · intro measured
      obtain ⟨each, sized, product⟩ := (ordered.byteSize_array_eq_ok_iff there).mp measured.size
      have aligned := (ordered.byteAlign_array there).mp measured.align
      exact ⟨⟨each, extent.align⟩, ⟨sized, aligned⟩, product, rfl⟩
    · rintro ⟨inner, measured, product, same⟩
      refine ⟨(ordered.byteSize_array_eq_ok_iff there).mpr ⟨inner.size, measured.size, product⟩, ?_⟩
      rw [ordered.byteAlign_array there, ← same]
      exact measured.align
  | basic basic =>
    exact Measures.eq_iff ⟨by simp [byteSize, byteSizeWithin, there],
      by simp [byteAlign, byteAlignWithin, there]⟩
  | enumeration =>
    exact Measures.eq_iff ⟨by simp [byteSize, byteSizeWithin, there],
      by simp [byteAlign, byteAlignWithin, there]⟩
  | pointer pointee =>
    exact Measures.eq_iff ⟨by simp [byteSize, byteSizeWithin, there],
      by simp [byteAlign, byteAlignWithin, there]⟩
  | record contents =>
    refine ⟨fun measured => measured.of_record there, ?_⟩
    rintro ⟨final, rfl⟩
    exact measures_record there final
  | void => exact ⟨fun measured => (settled_of_byteAlign measured.align).1 there, False.elim⟩
  | function signature =>
    refine ⟨fun measured => ?_, False.elim⟩
    have refused := measured.size
    simp [byteSize, byteSizeWithin, there] at refused

/-- The element of a measured array is measured. -/
theorem measures_element (ordered : graph.Ordered) {element : Handle} {count : UInt64}
    (there : graph.node type = .array element count) {extent : Extent}
    (measured : graph.Measures type extent) : ∃ each, graph.Measures element each := by
  have known := ordered.measures_iff.mp measured
  rw [there] at known
  obtain ⟨each, measuredEach, _⟩ := known
  exact ⟨each, measuredEach⟩

/-- A type with a size has an alignment as well. The induction is on the position and
steps from an array to its element; everything else has both or neither. -/
theorem measures_of_byteSize (ordered : graph.Ordered) {size : ByteCount}
    (given : graph.byteSize type = .ok size) : ∃ align, graph.Measures type ⟨size, align⟩ := by
  induction position : type.index using Nat.strong_induction_on generalizing type size with
  | _ place inductionHypothesis =>
    cases there : graph.node type with
    | array element count =>
      have before : element.index < place := position ▸ ordered.element_earlier there
      obtain ⟨each, givenEach, product⟩ := (ordered.byteSize_array_eq_ok_iff there).mp given
      obtain ⟨align, measured⟩ := inductionHypothesis element.index before givenEach rfl
      exact ⟨align, given, (ordered.byteAlign_array there).mpr measured.align⟩
    | basic | enumeration | pointer =>
      obtain ⟨extent, measured⟩ : ∃ extent, graph.Measures type extent :=
        ⟨_, ordered.measures_iff.mpr (by rw [there])⟩
      exact ⟨extent.align, given, measured.align⟩
    | record contents =>
      simp only [byteSize, byteSizeWithin, there, Option.getD_some, map_eq_ok_iff] at given
      obtain ⟨finished, final, rfl⟩ := given
      rw [finalizedRecord_eq_ok_iff] at final
      exact ⟨_, measures_record final.1 final.2⟩
    | void | function =>
      simp [byteSize, byteSizeWithin, there] at given

end Ordered

end Graph

end CTypeGraph
