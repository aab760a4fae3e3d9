import CTypeGraph.Proofs.Descent
import CTypeGraph.Proofs.ExactLayout
import CTypeGraph.Proofs.Faults

/-!
# When a record can be finalized

Finalizing goes through several questions, any of which may fail: the age of the
record, the alignment of each member, the placement of each member, and the last
rounding. All of them together come to one condition. The record is a struct that
is still being built, its members are measured, and its exact size fits into a
word. Nothing is lost by checking every intermediate number on the way, because
none of them is larger than the size in the end; and nothing has to be said about
a record that holds itself, because a record under construction is not measured.

`Finalizable` is that condition. The members of a record that meets it are
measured by their declarations, so no number has wrapped below it either. The
faults of all other attempts are the caller's mistake.
-/

namespace CTypeGraph

open Relation

/-- Where the answer is a fault, the fault is the caller's mistake. -/
def InternalFaultsOnly {α : Type} (answer : Except Fault α) : Prop :=
  ∀ fault, answer = .error fault → fault.isInternal = true

namespace Graph

variable {graph : Graph} {type : Handle}

/-- A record that is not finalized is refused as the caller's mistake. -/
theorem finalize_internalFaultsOnly : InternalFaultsOnly (graph.finalize type).value :=
  fun fault refused => (finalize_faults type fault refused).1

end Graph

/-! ## The exact condition -/

/-- The numbers that a placement from `start` on goes through: where each object
starts and where it ends, in turn. -/
def cursorFrom (start : Nat) : List Span → List Nat
  | [] => []
  | span :: rest =>
    alignedUp start span.align :: (alignedUp start span.align + span.size) ::
      cursorFrom (alignedUp start span.align + span.size) rest

/-- A placement never goes back. -/
theorem le_endFrom (start : Nat) (spans : List Span) : start ≤ endFrom start spans := by
  induction spans generalizing start with
  | nil => exact Nat.le_refl start
  | cons span rest inductionHypothesis =>
    calc start ≤ alignedUp start span.align := le_alignedUp _ _
      _ ≤ alignedUp start span.align + span.size := Nat.le_add_right _ _
      _ ≤ endFrom (alignedUp start span.align + span.size) rest := inductionHypothesis _

/-- No number on the way is larger than the end. -/
theorem le_endFrom_of_mem_cursorFrom {start number : Nat} {spans : List Span}
    (passed : number ∈ cursorFrom start spans) : number ≤ endFrom start spans := by
  induction spans generalizing start with
  | nil => cases passed
  | cons span rest inductionHypothesis =>
    have later := le_endFrom (alignedUp start span.align + span.size) rest
    rcases List.mem_cons.mp passed with rfl | passed
    · exact Nat.le_trans (Nat.le_add_right _ _) later
    · rcases List.mem_cons.mp passed with rfl | passed
      · exact later
      · exact inductionHypothesis passed

/-- No number on the way is larger than the size of the record. -/
theorem Placement.le_size_of_mem_cursorFrom {number : Nat} {spans : List Span}
    (passed : number ∈ cursorFrom 0 spans) : number ≤ (Placement.ofSpans spans).span.size :=
  Nat.le_trans (le_endFrom_of_mem_cursorFrom passed) (le_alignedUp _ _)

namespace Graph

variable {graph : Graph} {type : Handle}

/-- The condition for finalizing a record: it is a struct under construction, its
members have alignments and sizes, and its exact size fits into a word. -/
structure Finalizable (graph : Graph) (draft : Record) : Prop where
  struct : draft.isUnion = false
  building : draft.isFinalized = false
  aligned : ∀ member ∈ draft.members, ∃ align, graph.byteAlign member.type = .ok align
  sized : ∀ member ∈ draft.members, ∃ size, graph.byteSize member.type = .ok size
  fits : (Placement.ofSpans (graph.spansOf draft.members)).span.size < UInt64.size

/-- The members of such a record are measured. -/
theorem Finalizable.measured {draft : Record} (finalizable : graph.Finalizable draft) :
    ∀ member ∈ draft.members, ∃ extent, graph.Measures member.type extent := by
  intro member within
  obtain ⟨align, aligned⟩ := finalizable.aligned member within
  obtain ⟨size, sized⟩ := finalizable.sized member within
  exact ⟨⟨size, align⟩, sized, aligned⟩

/-- Measured members whose exact placement ends within a word can be placed. -/
theorem exists_places (start : ByteCount) {members : List Member}
    (measured : ∀ member ∈ members, ∃ extent, graph.Measures member.type extent)
    (fits : endFrom start.toNat (graph.spansOf members) < UInt64.size) :
    ∃ placed finish, graph.Places start members placed finish := by
  induction members generalizing start with
  | nil => exact ⟨[], start, .none⟩
  | cons member rest inductionHypothesis =>
    obtain ⟨extent, here⟩ := measured member List.mem_cons_self
    simp only [spansOf, List.map_cons, here.spanOf_eq, Extent.span, endFrom] at fits
    have stops : alignedUp start.toNat extent.align.toNat + extent.size.toNat < UInt64.size :=
      Nat.lt_of_le_of_lt (le_endFrom _ _) fits
    obtain ⟨offset, rounded⟩ :=
      ByteCount.exists_toNat_eq (Nat.lt_of_le_of_lt (Nat.le_add_right _ _) stops)
    obtain ⟨stop, advanced⟩ := ByteCount.exists_toNat_eq stops
    rw [← advanced] at fits
    have measuredRest : ∀ other ∈ rest, ∃ extent, graph.Measures other.type extent :=
      fun other later => measured other (List.mem_cons_of_mem _ later)
    obtain ⟨placed, finish, others⟩ := inductionHypothesis stop measuredRest fits
    exact ⟨_, finish, .next here rounded.symm (by rw [rounded, advanced]) others⟩

/-- Members that have alignments, and none the record's own type, have a largest one. -/
theorem exists_widestAlign (least : ByteCount) {members : List Member}
    (aligned : ∀ member ∈ members,
      member.type ≠ type ∧ ∃ align, graph.byteAlign member.type = .ok align) :
    ∃ widest, graph.widestAlign type least members = .ok widest := by
  induction members generalizing least with
  | nil => exact ⟨least, rfl⟩
  | cons member rest inductionHypothesis =>
    obtain ⟨⟨foreign, align, given⟩, others⟩ := List.forall_mem_cons.mp aligned
    obtain ⟨widest, found⟩ := inductionHypothesis (max least align) others
    refine ⟨widest, ?_⟩
    unfold widestAlign
    rw [if_neg foreign, bind_eq_ok_iff]
    exact ⟨align, given, found⟩

/-- An open record has a layout exactly when it is finalizable, as far as its
members are concerned. That no member has the record's own type is part of its
members being measured, since the record itself is not. -/
theorem exists_settles_iff {draft : Record} (there : graph.node type = .record draft)
    (isOpen : draft.IsOpen) (struct : draft.isUnion = false) :
    (∃ settled stop, graph.Settles type draft settled stop) ↔ graph.Finalizable draft := by
  have building : draft.isFinalized = false := by simp [Record.isFinalized, isOpen.stage]
  have least : (max draft.align 1).toNat = 1 := by
    rw [isOpen.align]
    rfl
  constructor
  · -- The stored size is the exact one, and being stored it fits.
    rintro ⟨settled, stop, settles⟩
    have measured := settles.places.measured
    refine ⟨struct, building, ?_, ?_, ?_⟩
    · intro member within
      obtain ⟨extent, here⟩ := measured member within
      exact ⟨extent.align, here.align⟩
    · intro member within
      obtain ⟨extent, here⟩ := measured member within
      exact ⟨extent.size, here.size⟩
    · obtain ⟨_, widest⟩ := widestAlign_eq_ok_iff.mp settles.widest
      have finish : stop.toNat = endFrom 0 (graph.spansOf draft.members) :=
        settles.places.finish_eq
      rw [least] at widest
      simp only [Placement.ofSpans]
      rw [widest, ← finish, settles.rounded]
      exact UInt64.toNat_lt_size _
  · -- The size bounds every number before it, so each checked step has its answer.
    intro finalizable
    have aligned : ∀ member ∈ draft.members,
        member.type ≠ type ∧ ∃ align, graph.byteAlign member.type = .ok align := by
      intro member within
      obtain ⟨align, given⟩ := finalizable.aligned member within
      refine ⟨?_, align, given⟩
      intro own
      have fixed : (graph.node member.type).isSettled = true := (settled_of_byteAlign given).2
      rw [own, there] at fixed
      exact absurd fixed (Bool.eq_false_iff.mp building)
    obtain ⟨widest, found⟩ := exists_widestAlign (max draft.align 1) aligned
    have exact : widestFrom 1 (graph.spansOf draft.members) = widest.toNat := by
      rw [← least]
      exact (widestAlign_eq_ok_iff.mp found).2
    have fits := finalizable.fits
    simp only [Placement.ofSpans, exact] at fits
    obtain ⟨placed, stop, places⟩ := exists_places 0 finalizable.measured
      (Nat.lt_of_le_of_lt (le_alignedUp _ _) fits)
    have finish : endFrom 0 (graph.spansOf draft.members) = stop.toNat := places.finish_eq.symm
    rw [finish] at fits
    obtain ⟨size, rounded⟩ := ByteCount.exists_toNat_eq fits
    exact ⟨⟨draft.isUnion, false, .finalized, placed, placed.flatMap graph.fieldsOf, size, widest⟩,
      stop, found, places, rounded.symm, rfl, rfl, rfl, rfl⟩

/-! ## What is accepted and what is refused -/

/-- The array has elements of the second type. -/
def HasElement (graph : Graph) (outer inner : Handle) : Prop :=
  ∃ count, graph.node outer = .array inner count

/-- The types that a record must not hold by value: the record itself, whatever is
not an object, unions, and records under construction. -/
def Unembeddable (graph : Graph) (type inner : Handle) : Prop :=
  inner = type ∨
    match graph.node inner with
    | .void | .function _ => True
    | .record contents => contents.isUnion = true ∨ contents.isFinalized = false
    | .basic _ | .enumeration | .pointer _ | .array .. => False

/-- What a measured array is made of is measured, through any number of arrays. -/
theorem Measures.element (ordered : graph.Ordered) {outer inner : Handle}
    (measured : ∃ extent, graph.Measures outer extent)
    (path : ReflTransGen graph.HasElement outer inner) :
    ∃ extent, graph.Measures inner extent := by
  induction path with
  | refl => exact measured
  | tail _ element inductionHypothesis =>
    obtain ⟨_, measured⟩ := inductionHypothesis
    obtain ⟨_, there⟩ := element
    exact ordered.measures_element there measured

/-- A type that is measured and must not be held is the record itself: whatever is
not an object is not measured, nor are records under construction, and a union is
never anything else. -/
theorem Reachable.eq_of_unembeddable (reachable : graph.Reachable) {inner : Handle}
    {extent : Extent} (measured : graph.Measures inner extent)
    (refused : graph.Unembeddable type inner) : inner = type := by
  refine refused.resolve_right fun misfit => ?_
  have known := reachable.ordered.measures_iff.mp measured
  cases there : graph.node inner with
  | void | function =>
    rw [there] at known
    exact known
  | basic | enumeration | pointer | array =>
    rw [there] at misfit
    exact misfit
  | record contents =>
    rw [there] at known misfit
    rcases misfit with union | building
    · rw [(reachable.settled there known.1).isUnion] at union
      cases union
    · rw [known.1] at building
      cases building

/-- No member of a finalized record, and nothing that a member is an array of, is a
type that the record must not hold. If it were the record itself, the record would
hold itself by value. -/
theorem Reachable.not_unembeddable (reachable : graph.Reachable) {contents : Record}
    (there : graph.node type = .record contents) (final : contents.isFinalized = true)
    {member : Member} (within : member ∈ contents.members) {inner : Handle}
    (path : ReflTransGen graph.HasElement member.type inner) :
    ¬ graph.Unembeddable type inner := by
  intro refused
  obtain ⟨_, measured⟩ := (reachable.settled there final).member member within
  obtain ⟨extent, measuredInner⟩ := Measures.element reachable.ordered measured path
  obtain rfl : inner = type := reachable.eq_of_unembeddable measuredInner refused
  have first : graph.Holds inner member.type := by
    simp only [Holds, held, there, final, if_true]
    exact List.mem_map_of_mem within
  have element : graph.HasElement ≤ graph.Holds := by
    rintro outer element ⟨count, known⟩
    simp [Holds, held, known]
  have others : ReflTransGen graph.Holds member.type inner := ReflTransGen.mono element _ _ path
  exact (reachable.record_grounded there final).not_holds_self (TransGen.head' first others)

/-- A record is not finalizable while one of its members, or what a member is an
array of, is a type that it must not hold. -/
theorem Finalizable.not_unembeddable (reachable : graph.Reachable) {draft : Record}
    (there : graph.node type = .record draft) (finalizable : graph.Finalizable draft)
    {member : Member} (within : member ∈ draft.members) {inner : Handle}
    (path : ReflTransGen graph.HasElement member.type inner) :
    ¬ graph.Unembeddable type inner := by
  intro refused
  obtain ⟨extent, measured⟩ :=
    Measures.element reachable.ordered (finalizable.measured member within) path
  obtain rfl : inner = type := reachable.eq_of_unembeddable measured refused
  have final : draft.isFinalized = true := (measured.of_record there).1
  rw [finalizable.building] at final
  cases final

/-- No number on the way to a stored layout needs more than a word. -/
theorem Reachable.cursor_lt (reachable : graph.Reachable) {contents : Record}
    (there : graph.node type = .record contents) (final : contents.isFinalized = true)
    {number : Nat} (passed : number ∈ cursorFrom 0 (graph.spansOf contents.members)) :
    number < UInt64.size := by
  have bound := Placement.le_size_of_mem_cursorFrom passed
  rw [← (reachable.settled there final).stores.size] at bound
  exact Nat.lt_of_le_of_lt bound (UInt64.toNat_lt_size _)

/-- Finalizing succeeds exactly on a record that is finalizable. -/
theorem Reachable.exists_finalize_iff (reachable : graph.Reachable) :
    (∃ after, (graph.finalize type).value = .ok after) ↔
      ∃ draft, graph.node type = .record draft ∧ graph.Finalizable draft := by
  constructor
  · rintro ⟨after, succeeded⟩
    obtain ⟨settled, layout, _⟩ := finalize_eq_ok_iff.mp succeeded
    obtain ⟨draft, stop, there, struct, building, settles⟩ := layoutOf_eq_ok_iff_settles.mp layout
    have isOpen : draft.IsOpen := reachable.isOpen there building
    exact ⟨draft, there, (exists_settles_iff there isOpen struct).mp ⟨settled, stop, settles⟩⟩
  · rintro ⟨draft, there, finalizable⟩
    have isOpen : draft.IsOpen := reachable.isOpen there finalizable.building
    obtain ⟨settled, stop, settles⟩ :=
      (exists_settles_iff there isOpen finalizable.struct).mpr finalizable
    have layout : graph.layoutOf type = .ok settled := layoutOf_eq_ok_iff_settles.mpr
      ⟨draft, stop, there, finalizable.struct, finalizable.building, settles⟩
    exact ⟨_, finalize_eq_ok_iff.mpr ⟨settled, layout, rfl⟩⟩

/-- Finalizing fails exactly on everything else, with the caller's mistake. -/
theorem Reachable.exists_breach_iff (reachable : graph.Reachable) :
    (∃ breach, (graph.finalize type).value = .error (.internal breach)) ↔
      ¬ ∃ draft, graph.node type = .record draft ∧ graph.Finalizable draft := by
  rw [← reachable.exists_finalize_iff]
  cases answered : (graph.finalize type).value with
  | ok after => simp
  | error fault =>
    have only : fault.isInternal = true := finalize_internalFaultsOnly fault answered
    cases fault with
    | internal breach => simp
    | unimplemented => cases only

/-- In a reachable graph finalizing succeeds exactly on a struct under construction
whose members are measured and whose exact size fits into a word, and fails with
the caller's mistake on everything else. What enters the exact size is exact itself.
A record whose placement passes a number beyond a word, or which holds itself, a
union, a type that is not an object or a record under construction, as a member or
through arrays, is not finalized and is refused. -/
theorem Reachable.finalize_accepts_iff (reachable : graph.Reachable) (type : Handle) :
    ((∃ after, (graph.finalize type).value = .ok after) ↔
        ∃ draft, graph.node type = .record draft ∧ graph.Finalizable draft) ∧
      ((∃ breach, (graph.finalize type).value = .error (.internal breach)) ↔
        ¬ ∃ draft, graph.node type = .record draft ∧ graph.Finalizable draft) ∧
      (∀ draft, graph.Finalizable draft →
        ∀ member ∈ draft.members, graph.Spans member.type (graph.spanOf member.type)) ∧
      ∀ contents, graph.node type = .record contents →
        ((∃ number ∈ cursorFrom 0 (graph.spansOf contents.members), UInt64.size ≤ number) ∨
          ∃ member ∈ contents.members, ∃ inner,
            ReflTransGen graph.HasElement member.type inner ∧ graph.Unembeddable type inner) →
        contents.isFinalized = false ∧
          ∃ breach, (graph.finalize type).value = .error (.internal breach) := by
  refine ⟨reachable.exists_finalize_iff, reachable.exists_breach_iff, ?exact, ?refused⟩
  case exact =>
    intro draft finalizable member within
    obtain ⟨extent, measured⟩ := finalizable.measured member within
    rw [measured.spanOf_eq]
    exact reachable.spans measured
  case refused =>
    intro contents there wrong
    rw [reachable.exists_breach_iff, ← Bool.not_eq_true]
    constructor
    · intro final
      rcases wrong with ⟨number, passed, beyond⟩ | ⟨member, within, inner, path, refused⟩
      · exact Nat.not_lt.mpr beyond (reachable.cursor_lt there final passed)
      · exact reachable.not_unembeddable there final within path refused
    · rintro ⟨draft, known, finalizable⟩
      rw [there, Node.record.injEq] at known
      subst known
      rcases wrong with ⟨number, passed, beyond⟩ | ⟨member, within, inner, path, refused⟩
      · have bound := Placement.le_size_of_mem_cursorFrom passed
        exact Nat.not_lt.mpr beyond (Nat.lt_of_le_of_lt bound finalizable.fits)
      · exact finalizable.not_unembeddable reachable there within path refused

end Graph

/-! ## At the edge of a word

An array of single bytes can take all of the bytes that a word can count. A struct
of that array alone can be finalized. One that also holds an `int` cannot, because
the padding in front of it is too much, and one that holds arrays of itself cannot
either. -/

/-- The types are, in order: `char`, `int`, the array of bytes, the three structs, an
array of the last one, and an array of that. -/
def brimGraph : Graph :=
  (Graph.empty .lp64).after
    [.internBasic ⟨.char, true⟩, .internBasic ⟨.int, true⟩, .makeArray ⟨0⟩ 18446744073709551615,
      .makeRecord false, .makeRecord false, .makeRecord false, .makeArray ⟨5⟩ 2,
      .makeArray ⟨6⟩ 2, .addMember ⟨3⟩ (some "bytes") ⟨2⟩ default,
      .addMember ⟨4⟩ (some "bytes") ⟨2⟩ default, .addMember ⟨4⟩ (some "count") ⟨1⟩ default,
      .addMember ⟨5⟩ (some "inner") ⟨7⟩ default]

/-- A history leads to the graph of arrays and structs at the edge of a word. -/
theorem brimGraph_reachable : brimGraph.Reachable :=
  ⟨.lp64, Graph.evolves_after (by decide +kernel)⟩

/-- The struct of the array alone is accepted, although its end, and so its size, is the
largest number of a word. The one with an `int` behind the array is refused for the number
that padding would lead to, and the one that holds itself through two arrays is
refused for that. -/
theorem brim_finalize_accepts :
    brimGraph.Reachable ∧
      (∃ after, (brimGraph.finalize ⟨3⟩).value = .ok after ∧
        (after.finalizedRecord ⟨3⟩).map (·.size) = .ok 18446744073709551615) ∧
      (∃ breach, (brimGraph.finalize ⟨4⟩).value = .error (.internal breach)) ∧
      ∃ breach, (brimGraph.finalize ⟨5⟩).value = .error (.internal breach) := by
  let bytes : Member := ⟨some "bytes", ⟨2⟩, none⟩
  let count : Member := ⟨some "count", ⟨1⟩, none⟩
  let inner : Member := ⟨some "inner", ⟨7⟩, none⟩
  have alone : brimGraph.node ⟨3⟩ = .record { Record.fresh false with members := [bytes] } := by
    decide +kernel
  have padded :
      brimGraph.node ⟨4⟩ = .record { Record.fresh false with members := [bytes, count] } := by
    decide +kernel
  have nested : brimGraph.node ⟨5⟩ = .record { Record.fresh false with members := [inner] } := by
    decide +kernel
  have finalizable : brimGraph.Finalizable { Record.fresh false with members := [bytes] } :=
    ⟨rfl, rfl, List.forall_mem_singleton.mpr ⟨1, by decide +kernel⟩,
      List.forall_mem_singleton.mpr ⟨18446744073709551615, by decide +kernel⟩, by decide +kernel⟩
  have outer : brimGraph.HasElement ⟨7⟩ ⟨6⟩ := ⟨2, by decide +kernel⟩
  have element : brimGraph.HasElement ⟨6⟩ ⟨5⟩ := ⟨2, by decide +kernel⟩
  obtain ⟨accepts, _⟩ := brimGraph_reachable.finalize_accepts_iff ⟨3⟩
  obtain ⟨_, _, _, overflows⟩ := brimGraph_reachable.finalize_accepts_iff ⟨4⟩
  obtain ⟨_, _, _, holdsItself⟩ := brimGraph_reachable.finalize_accepts_iff ⟨5⟩
  obtain ⟨after, accepted⟩ := accepts.mpr ⟨_, alone, finalizable⟩
  have full : ((brimGraph.finalize ⟨3⟩).value.bind (·.finalizedRecord ⟨3⟩)).map (·.size) =
      .ok 18446744073709551615 := by
    decide +kernel
  rw [accepted] at full
  refine ⟨brimGraph_reachable, ⟨after, accepted, full⟩, ?_, ?_⟩
  · exact (overflows _ padded (Or.inl ⟨2 ^ 64, by decide +kernel, by decide +kernel⟩)).2
  · exact (holdsItself _ nested (Or.inr ⟨inner, List.mem_singleton_self inner, ⟨5⟩,
      .tail (.single outer) element, Or.inl rfl⟩)).2

end CTypeGraph
