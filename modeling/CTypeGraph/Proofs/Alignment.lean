import CTypeGraph.Proofs.Flattening

/-!
# Fields on their boundaries

A record is aligned to the largest alignment among its members, which need not be a
multiple of the others. So a record may stand where it has to and one of its members
not, once the record is itself a member and its fields have been promoted into the
record around it. No such thing happens where every scalar asks for a power of two:
the larger of two powers is a multiple of the smaller one, and so the alignment of a
record is a multiple of those of its members, and of their members, at any depth.

`OnBoundary` is what is kept from the members of a record to its fields. The induction
follows the flattening of the declarations, where distances are plain numbers.
-/

namespace CTypeGraph

/-- Every scalar of the model starts on a multiple of a power of two. Enumerations are
stored as `int`, and signedness makes no difference. -/
structure DataModel.PowerOfTwoAligned (model : DataModel) : Prop where
  basic : ∀ kind, (model.basic kind).align.toNat.isPowerOfTwo
  pointer : model.pointer.align.toNat.isPowerOfTwo

/-- The boundaries of `lp64` are powers of two. -/
theorem DataModel.lp64_powerOfTwoAligned : DataModel.lp64.PowerOfTwoAligned where
  basic := by
    intro kind
    cases kind <;> decide
  pointer := by decide

/-- The boundaries of `ilp32`, which are narrower in places, are powers of two as well. -/
theorem DataModel.ilp32_powerOfTwoAligned : DataModel.ilp32.PowerOfTwoAligned where
  basic := by
    intro kind
    cases kind <;> decide
  pointer := by decide

/-- The larger of two powers of two is a multiple of the smaller. -/
theorem dvd_of_isPowerOfTwo {small large : Nat} (power : small.isPowerOfTwo)
    (power' : large.isPowerOfTwo) (ordered : small ≤ large) : small ∣ large := by
  obtain ⟨exponent, rfl⟩ := power
  obtain ⟨exponent', rfl⟩ := power'
  exact Nat.pow_dvd_pow 2 ((Nat.pow_le_pow_iff_right Nat.one_lt_two).mp ordered)

/-- The largest of several powers of two is one of them. -/
theorem widestFrom_isPowerOfTwo {least : Nat} {spans : List Span} (power : least.isPowerOfTwo)
    (powers : ∀ span ∈ spans, span.align.isPowerOfTwo) :
    (widestFrom least spans).isPowerOfTwo := by
  induction spans generalizing least with
  | nil => exact power
  | cons span rest inductionHypothesis =>
    obtain ⟨head, others⟩ := List.forall_mem_cons.mp powers
    refine inductionHypothesis ?_ others
    rcases Nat.le_total span.align least with below | above
    · rw [Nat.max_eq_left below]
      exact power
    · rw [Nat.max_eq_right above]
      exact head

namespace Graph

variable {graph : Graph} {type : Handle}

/-- The alignment that the declarations give is a power of two. Arrays take over that
of their element, and records have one of their members or one byte. -/
theorem Spans.align_isPowerOfTwo (powers : graph.model.PowerOfTwoAligned) {span : Span}
    (worked : graph.Spans type span) : span.align.isPowerOfTwo := by
  induction worked with
  | scalar stated =>
    obtain ⟨kind, rfl⟩ | rfl := scalarExtent?_cases stated
    · exact powers.basic kind
    · exact powers.pointer
  | array _ _ inductionHypothesis => exact inductionHypothesis
  | record _ _ _ inductionHypothesis =>
    refine widestFrom_isPowerOfTwo Nat.isPowerOfTwo_one ?_
    intro span listed
    obtain ⟨member, within, rfl⟩ := List.mem_map.mp listed
    exact inductionHypothesis member within

/-- In a reachable graph over such a model every alignment is a power of two. -/
theorem Reachable.align_isPowerOfTwo (reachable : graph.Reachable)
    (powers : graph.model.PowerOfTwoAligned) {extent : Extent}
    (measured : graph.Measures type extent) : extent.align.toNat.isPowerOfTwo :=
  (reachable.spans measured).align_isPowerOfTwo powers

/-- An object of the type that starts at `offset` is on its boundary, and it stays
there if everything is moved by a multiple of `unit`. -/
def OnBoundary (graph : Graph) (unit : Nat) (type : Handle) (offset : Nat) : Prop :=
  ∃ align, graph.byteAlign type = .ok align ∧ 0 < align.toNat ∧
    align.toNat ∣ offset ∧ align.toNat ∣ unit

/-- What stays on its boundary under shorter moves does so under longer ones. -/
theorem OnBoundary.coarsen {unit coarser offset : Nat}
    (aligned : graph.OnBoundary unit type offset) (multiple : unit ∣ coarser) :
    graph.OnBoundary coarser type offset := by
  obtain ⟨align, given, positive, here, moved⟩ := aligned
  exact ⟨align, given, positive, here, Nat.dvd_trans moved multiple⟩

/-- Every member has been placed on its boundary, if there is one. -/
theorem Places.offset_dvd {start finish : ByteCount} {members placed : List Member}
    (places : graph.Places start members placed finish) :
    ∀ member ∈ placed, ∃ offset extent, member.offset? = some offset ∧
      graph.Measures member.type extent ∧
      (0 < extent.align.toNat → extent.align.toNat ∣ offset.toNat) := by
  induction places with
  | none => simp
  | @next start offset stop finish member rest placed extent measured rounded _ _
      inductionHypothesis =>
    intro other within
    rcases List.mem_cons.mp within with rfl | later
    · refine ⟨offset, extent, rfl, measured, fun positive => ?_⟩
      rw [← rounded]
      exact dvd_alignedUp _ positive
    · exact inductionHypothesis other later

/-- In a reachable graph over such a model the members of a finalized record are on
their boundaries, wherever the record itself is on its boundary. -/
theorem Reachable.members_onBoundary (reachable : graph.Reachable)
    (powers : graph.model.PowerOfTwoAligned) {contents : Record}
    (there : graph.node type = .record contents) (final : contents.isFinalized = true) :
    ∀ member ∈ contents.members, ∃ offset, member.offset? = some offset ∧
      graph.OnBoundary contents.align.toNat member.type offset.toNat := by
  intro member within
  have settled : graph.Settled type contents := reachable.settled there final
  have widest : contents.align.toNat = widestFrom 1 (graph.spansOf contents.members) :=
    settled.stores.align
  have recordPower : contents.align.toNat.isPowerOfTwo :=
    reachable.align_isPowerOfTwo powers (measures_record there final)
  obtain ⟨_, _, _, _, settles⟩ := settled
  obtain ⟨offset, extent, resolved, measured, multiple⟩ := settles.places.offset_dvd member within
  have power : extent.align.toNat.isPowerOfTwo := reachable.align_isPowerOfTwo powers measured
  have positive : 0 < extent.align.toNat := Nat.pos_of_isPowerOfTwo power
  have bounded : extent.align.toNat ≤ contents.align.toNat := by
    have listed : extent.span ∈ graph.spansOf contents.members :=
      List.mem_map.mpr ⟨member, within, measured.spanOf_eq⟩
    rw [widest]
    exact align_le_widestFrom extent.span listed
  exact ⟨offset, resolved, extent.align, measured.align, positive, multiple positive,
    dvd_of_isPowerOfTwo power recordPower bounded⟩

/-- The fields of members that are on their boundaries are on their boundaries, given
that the same is true of the members of every finalized record. An inner record starts
on a multiple of its own alignment, which is a multiple of those of its members. -/
theorem Flattens.onBoundary {base unit : Nat} {members : List Member} {entries : List Entry}
    (flattens : graph.Flattens base members entries)
    (records : ∀ {type contents}, graph.node type = .record contents →
      contents.isFinalized = true → ∀ member ∈ contents.members, ∃ offset,
        member.offset? = some offset ∧
        graph.OnBoundary contents.align.toNat member.type offset.toNat)
    (started : unit ∣ base)
    (aligned : ∀ member ∈ members, ∃ offset, member.offset? = some offset ∧
      graph.OnBoundary unit member.type offset.toNat) :
    ∀ entry ∈ entries, graph.OnBoundary unit entry.type entry.offset := by
  induction flattens generalizing unit with
  | nil => simp
  | @keep base member rest offset entries _ placed _ inductionHypothesis =>
    obtain ⟨⟨offset', placed', align, given, positive, here, moved⟩, others⟩ :=
      List.forall_mem_cons.mp aligned
    rw [placed, Option.some.injEq] at placed'
    subst placed'
    refine List.forall_mem_cons.mpr ⟨⟨align, given, positive, ?_, moved⟩, ?_⟩
    · exact Nat.dvd_add (Nat.dvd_trans moved started) here
    · exact inductionHypothesis started others
  | @splice base member rest inner offset fields entries opened placed _ _ inductionWithin
      inductionOthers =>
    obtain ⟨⟨offset', placed', align, given, positive, here, moved⟩, others⟩ :=
      List.forall_mem_cons.mp aligned
    rw [placed, Option.some.injEq] at placed'
    subst placed'
    obtain ⟨innerThere, _⟩ := fieldsOf_opened opened
    have innerFinal : inner.isFinalized = true := by
      have fixed : (graph.node member.type).isSettled = true := (settled_of_byteAlign given).2
      rw [innerThere] at fixed
      exact fixed
    have same : align = inner.align :=
      Except.ok.inj (given.symm.trans (measures_record innerThere innerFinal).align)
    subst same
    have innerStarted : inner.align.toNat ∣ base + offset.toNat :=
      Nat.dvd_add (Nat.dvd_trans moved started) here
    intro entry listed
    rcases List.mem_append.mp listed with inside | behind
    · exact (inductionWithin innerStarted (records innerThere innerFinal) entry inside).coarsen
        moved
    · exact inductionOthers started others entry behind

/-- In a reachable graph over a model whose alignments are powers of two, such as both
presets, the alignment of a finalized record is a power of two, every field of it is at
a multiple of the alignment of its own type, and the alignment of the record is such a
multiple as well. That goes for the members as declared and for the flat list of fields,
from whatever depth they come. -/
theorem fields_aligned :
    DataModel.lp64.PowerOfTwoAligned ∧ DataModel.ilp32.PowerOfTwoAligned ∧
      ∀ {graph : Graph}, graph.Reachable → graph.model.PowerOfTwoAligned →
        ∀ {type contents}, graph.node type = .record contents → contents.isFinalized = true →
          graph.byteAlign type = .ok contents.align ∧ contents.align.toNat.isPowerOfTwo ∧
          (∀ field ∈ contents.exports, ∃ offset, field.offset? = some offset ∧
            graph.OnBoundary contents.align.toNat field.type offset.toNat) ∧
          ∀ member ∈ contents.members, ∃ offset, member.offset? = some offset ∧
            graph.OnBoundary contents.align.toNat member.type offset.toNat := by
  refine ⟨DataModel.lp64_powerOfTwoAligned, DataModel.ilp32_powerOfTwoAligned, ?_⟩
  intro graph reachable powers type contents there final
  have measured := measures_record there final
  have members := reachable.members_onBoundary powers there final
  refine ⟨measured.align, reachable.align_isPowerOfTwo powers measured, ?exports, members⟩
  case exports =>
    intro field within
    obtain ⟨offset, resolved, _⟩ := (reachable.exports_fill there final).resolved field within
    have entry : field.entryFrom 0 = ⟨field.name?, field.type, offset.toNat⟩ := by
      simp [Member.entryFrom, Member.offsetOrZero, resolved]
    have listed : field.entryFrom 0 ∈ contents.exports.map (·.entryFrom 0) :=
      List.mem_map_of_mem within
    have aligned := (reachable.flattens there final 0).onBoundary
      (reachable.members_onBoundary powers) (Nat.dvd_zero _) members _ listed
    rw [entry] at aligned
    exact ⟨offset, resolved, aligned⟩

end Graph

/-- The seven fields and the five members of the outermost struct are on their
boundaries, among them an `int` that comes out of two unnamed structs. -/
theorem nested_fields_aligned :
    nestedGraph.Reachable ∧ nestedGraph.model.PowerOfTwoAligned ∧
      nestedGraph.node ⟨4⟩ = .record nestedRecord ∧ nestedRecord.isFinalized = true ∧
      nestedGraph.byteAlign ⟨4⟩ = .ok 8 ∧ (8 : Nat).isPowerOfTwo ∧
      (∀ field ∈ nestedRecord.exports, ∃ offset, field.offset? = some offset ∧
        nestedGraph.OnBoundary 8 field.type offset.toNat) ∧
      ∀ member ∈ nestedRecord.members, ∃ offset, member.offset? = some offset ∧
        nestedGraph.OnBoundary 8 member.type offset.toNat := by
  have model : nestedGraph.model = .lp64 := by decide +kernel
  have powers : nestedGraph.model.PowerOfTwoAligned := model ▸ DataModel.lp64_powerOfTwoAligned
  obtain ⟨_, _, aligned⟩ := Graph.fields_aligned
  exact ⟨nestedGraph_reachable, powers, nestedGraph_record, rfl,
    aligned nestedGraph_reachable powers nestedGraph_record rfl⟩

/-- Where alignments are not powers of two, a promoted field can be off its boundary. A
struct of an `int` on a boundary of three and a `short` on a boundary of two is aligned to
three, and behind a `char` its `short` is at seven. -/
example :
    let graph := (Graph.empty { DataModel.lp64 with int := ⟨4, 3⟩ }).after
      [.internBasic ⟨.char, true⟩, .internBasic ⟨.short, true⟩, .internBasic ⟨.int, true⟩,
        .makeRecord false, .makeRecord false, .addMember ⟨3⟩ (some "count") ⟨2⟩ default,
        .addMember ⟨3⟩ (some "step") ⟨1⟩ default, .addMember ⟨4⟩ (some "tag") ⟨0⟩ default,
        .addMember ⟨4⟩ none ⟨3⟩ default, .finalize ⟨3⟩, .finalize ⟨4⟩]
    graph.fieldNamed? ⟨4⟩ "step" = .ok (some ⟨some "step", ⟨1⟩, some 7⟩) := by
  decide +kernel

end CTypeGraph
