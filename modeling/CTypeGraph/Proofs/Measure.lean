import CTypeGraph.Proofs.Growth

/-!
# Types that have a layout

`Measures` says that a type has a size and an alignment, and what they are. A
type that is measured once is measured the same in every later graph of the
history: the questions behind it read scalars, arrays and finalized records, and
none of these ever changes.
-/

namespace CTypeGraph

/-- A size read off an answered question is the size in that answer. -/
theorem map_eq_ok_iff {α β : Type} {answer : Except Fault α} {read : α → β} {value : β} :
    answer.map read = .ok value ↔ ∃ found, answer = .ok found ∧ read found = value := by
  cases answer with
  | error fault => simp [Except.map]
  | ok found => simp [Except.map]

namespace Graph

variable {graph after : Graph} {type : Handle}

/-- The type has an object layout of this extent. -/
structure Measures (graph : Graph) (type : Handle) (extent : Extent) : Prop where
  size : graph.byteSize type = .ok extent.size
  align : graph.byteAlign type = .ok extent.align

/-- A type has one extent at most. -/
theorem Measures.unique {one other : Extent} (measured : graph.Measures type one)
    (again : graph.Measures type other) : one = other := by
  have size : one.size = other.size := Except.ok.inj (measured.size.symm.trans again.size)
  have align : one.align = other.align := Except.ok.inj (measured.align.symm.trans again.align)
  cases one
  cases other
  exact congr (congrArg Extent.mk size) align

/-- Being measured is having the one extent that is known. -/
theorem Measures.eq_iff {known extent : Extent} (measured : graph.Measures type known) :
    graph.Measures type extent ↔ extent = known :=
  ⟨fun again => again.unique measured, fun same => same ▸ measured⟩

/-- A count that fits is the count that was found. -/
@[simp]
theorem fitting_eq_ok_iff {count? : Option ByteCount} {count : ByteCount} :
    graph.fitting type count? = .ok count ↔ count? = some count := by
  cases count? <;> simp [fitting]

/-- A size is an answer found within the steps that the position allows. -/
theorem byteSize_eq_ok_iff {size : ByteCount} :
    graph.byteSize type = .ok size ↔
      graph.byteSizeWithin (type.index + 1) type = some (.ok size) := by
  unfold byteSize
  cases graph.byteSizeWithin (type.index + 1) type <;> simp

/-- An alignment is an answer found within the steps that the position allows. -/
theorem byteAlign_eq_ok_iff {align : ByteCount} :
    graph.byteAlign type = .ok align ↔
      graph.byteAlignWithin (type.index + 1) type = some (.ok align) := by
  unfold byteAlign
  cases graph.byteAlignWithin (type.index + 1) type <;> simp

/-- The layout of a finalized record can still be read later, and reads the same. -/
theorem finalizedRecord_stable (later : graph.Extends after) {contents : Record}
    (final : graph.finalizedRecord type = .ok contents) :
    after.finalizedRecord type = .ok contents := by
  rw [finalizedRecord_eq_ok_iff] at final ⊢
  exact ⟨later.node_eq final.1 Node.noConfusion final.2, final.2⟩

/-- A size that was found is found later as well, in as many steps. Only arrays
lead to a further question; every other node gives its answer by itself. -/
theorem byteSizeWithin_stable (later : graph.Extends after) {steps : Nat} {size : ByteCount}
    (found : graph.byteSizeWithin steps type = some (.ok size)) :
    after.byteSizeWithin steps type = some (.ok size) := by
  induction steps generalizing type size with
  | zero => cases found
  | succ steps inductionHypothesis =>
    cases there : graph.node type with
    | void => simp [byteSizeWithin, there] at found
    | function signature => simp [byteSizeWithin, there] at found
    | basic basic =>
      have kept : after.node type = .basic basic := later.node_eq there Node.noConfusion rfl
      simpa [byteSizeWithin, there, kept, later.model] using found
    | enumeration =>
      have kept : after.node type = .enumeration := later.node_eq there Node.noConfusion rfl
      simpa [byteSizeWithin, there, kept, later.model] using found
    | pointer pointee =>
      have kept : after.node type = .pointer pointee := later.node_eq there Node.noConfusion rfl
      simpa [byteSizeWithin, there, kept, later.model] using found
    | record contents =>
      simp only [byteSizeWithin, there, Option.some.injEq, map_eq_ok_iff] at found
      obtain ⟨finished, final, read⟩ := found
      have still : after.finalizedRecord type = .ok finished := finalizedRecord_stable later final
      have kept : after.node type = .record finished := (finalizedRecord_eq_ok_iff.mp still).1
      simp [byteSizeWithin, kept, still, Except.map, read]
    | array element count =>
      have kept : after.node type = .array element count := later.node_eq there Node.noConfusion rfl
      simp only [byteSizeWithin, there, Option.map_eq_some_iff] at found
      obtain ⟨inner, foundInner, product⟩ := found
      cases inner with
      | error fault => cases product
      | ok each =>
        have foundLater := inductionHypothesis foundInner
        simp only [fitting_eq_ok_iff] at product
        simp [byteSizeWithin, kept, foundLater, product, fitting]

/-- An alignment that was found is found later as well, in as many steps. -/
theorem byteAlignWithin_stable (later : graph.Extends after) {steps : Nat} {align : ByteCount}
    (found : graph.byteAlignWithin steps type = some (.ok align)) :
    after.byteAlignWithin steps type = some (.ok align) := by
  induction steps generalizing type with
  | zero => cases found
  | succ steps inductionHypothesis =>
    cases there : graph.node type with
    | void => simp [byteAlignWithin, there] at found
    | function signature => simp [byteAlignWithin, there] at found
    | basic basic =>
      have kept : after.node type = .basic basic := later.node_eq there Node.noConfusion rfl
      simpa [byteAlignWithin, there, kept, later.model] using found
    | enumeration =>
      have kept : after.node type = .enumeration := later.node_eq there Node.noConfusion rfl
      simpa [byteAlignWithin, there, kept, later.model] using found
    | pointer pointee =>
      have kept : after.node type = .pointer pointee := later.node_eq there Node.noConfusion rfl
      simpa [byteAlignWithin, there, kept, later.model] using found
    | record contents =>
      simp only [byteAlignWithin, there, Option.some.injEq, map_eq_ok_iff] at found
      obtain ⟨finished, final, read⟩ := found
      have still : after.finalizedRecord type = .ok finished := finalizedRecord_stable later final
      have kept : after.node type = .record finished := (finalizedRecord_eq_ok_iff.mp still).1
      simp [byteAlignWithin, kept, still, Except.map, read]
    | array element count =>
      have kept : after.node type = .array element count := later.node_eq there Node.noConfusion rfl
      simp only [byteAlignWithin, there] at found
      simp only [byteAlignWithin, kept]
      exact inductionHypothesis found

/-- A size once given is given in every later graph. -/
theorem byteSize_stable (later : graph.Extends after) {size : ByteCount}
    (given : graph.byteSize type = .ok size) : after.byteSize type = .ok size := by
  rw [byteSize_eq_ok_iff] at given ⊢
  exact byteSizeWithin_stable later given

/-- An alignment once given is given in every later graph. -/
theorem byteAlign_stable (later : graph.Extends after) {align : ByteCount}
    (given : graph.byteAlign type = .ok align) : after.byteAlign type = .ok align := by
  rw [byteAlign_eq_ok_iff] at given ⊢
  exact byteAlignWithin_stable later given

/-- A measured type is measured the same in every later graph. -/
theorem Measures.stable {extent : Extent} (later : graph.Extends after)
    (measured : graph.Measures type extent) : after.Measures type extent :=
  ⟨byteSize_stable later measured.size, byteAlign_stable later measured.align⟩

/-- A finalized record is measured by its layout. -/
theorem measures_record {contents : Record} (there : graph.node type = .record contents)
    (final : contents.isFinalized = true) :
    graph.Measures type ⟨contents.size, contents.align⟩ := by
  have read : graph.finalizedRecord type = .ok contents :=
    finalizedRecord_eq_ok_iff.mpr ⟨there, final⟩
  constructor
  · simp [byteSize, byteSizeWithin, there, read, Except.map]
  · simp [byteAlign, byteAlignWithin, there, read, Except.map]

/-- A type with an alignment has settled: it is not `void`, and it is no record
under construction. -/
theorem settled_of_byteAlign {align : ByteCount} (given : graph.byteAlign type = .ok align) :
    graph.node type ≠ .void ∧ (graph.node type).isSettled = true := by
  rw [byteAlign_eq_ok_iff] at given
  cases there : graph.node type with
  | void => simp [byteAlignWithin, there] at given
  | record contents =>
    simp only [byteAlignWithin, there, Option.some.injEq, map_eq_ok_iff] at given
    obtain ⟨finished, final, _⟩ := given
    rw [finalizedRecord_eq_ok_iff, there, Node.record.injEq] at final
    obtain ⟨rfl, final⟩ := final
    exact ⟨Node.noConfusion, final⟩
  | basic | enumeration | pointer | function | array => exact ⟨Node.noConfusion, rfl⟩

/-- A record that is measured is finalized, and its layout is the measure. -/
theorem Measures.of_record {extent : Extent} (measured : graph.Measures type extent)
    {contents : Record} (there : graph.node type = .record contents) :
    contents.isFinalized = true ∧ extent = ⟨contents.size, contents.align⟩ := by
  have fixed : (graph.node type).isSettled = true := (settled_of_byteAlign measured.align).2
  rw [there] at fixed
  exact ⟨fixed, measured.unique (measures_record there fixed)⟩

end Graph

end CTypeGraph
