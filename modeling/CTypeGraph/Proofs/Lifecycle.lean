import CTypeGraph.Proofs.Order
import Mathlib.Data.List.Basic

/-!
# The two ages of a record

In a reachable graph a record is either open, with nothing settled about it, or
it is settled: its layout is the one that its own members have in this very
graph. The second half is the useful one. The layout was computed when the
record was finalized, in an earlier graph, and it is still the right answer
because nothing that it read has changed since.
-/

namespace CTypeGraph

/-- A record whose layout is not fixed, in the shape in which it is made and extended. -/
structure Record.IsOpen (record : Record) : Prop where
  incomplete : record.incomplete = true
  stage : record.stage = .building
  exports : record.exports = []
  size : record.size = 0
  align : record.align = 0
  unplaced : ∀ member ∈ record.members, member.offset? = none

namespace Graph

variable {graph after : Graph} {type : Handle}

/-- The record is the layout of an open struct, computed in this graph. -/
def Settled (graph : Graph) (type : Handle) (contents : Record) : Prop :=
  ∃ draft stop, draft.IsOpen ∧ draft.isUnion = false ∧ graph.Settles type draft contents stop

/-- The largest alignment is the same in every later graph. -/
theorem widestAlign_stable (later : graph.Extends after) {least widest : ByteCount}
    {members : List Member} (found : graph.widestAlign type least members = .ok widest) :
    after.widestAlign type least members = .ok widest := by
  induction members generalizing least with
  | nil => exact found
  | cons member rest inductionHypothesis =>
    unfold widestAlign at found ⊢
    by_cases own : member.type = type
    · simp [own] at found
    · rw [if_neg own, bind_eq_ok_iff] at found ⊢
      obtain ⟨align, given, others⟩ := found
      exact ⟨align, byteAlign_stable later given, inductionHypothesis others⟩

/-- A member whose type has an alignment contributes the same fields in every
later graph: if the type is a record, its own fields are fixed. -/
theorem fieldsOf_stable (later : graph.Extends after) {member : Member} {align : ByteCount}
    (given : graph.byteAlign member.type = .ok align) :
    after.fieldsOf member = graph.fieldsOf member := by
  obtain ⟨solid, fixed⟩ := settled_of_byteAlign given
  have kept : after.node member.type = graph.node member.type := later.node_eq rfl solid fixed
  simp only [fieldsOf, kept]

namespace Settles

variable {draft settled : Record} {stop : ByteCount}

/-- A laid-out record is finalized. -/
theorem isFinalized (settles : graph.Settles type draft settled stop) :
    settled.isFinalized = true := by
  simp [Record.isFinalized, settles.final]

/-- Every member of a laid-out record is measured, and none has the record's own type. -/
theorem member (settles : graph.Settles type draft settled stop) :
    ∀ member ∈ settled.members,
      member.type ≠ type ∧ ∃ extent, graph.Measures member.type extent := by
  intro member within
  obtain ⟨original, declared, same⟩ := List.mem_map.mp (settles.type_mem within)
  obtain ⟨others, _⟩ := widestAlign_eq_ok_iff.mp settles.widest
  rw [← same]
  exact ⟨(others original declared).1, settles.places.measured original declared⟩

/-- A layout stands in every later graph. -/
theorem stable (later : graph.Extends after) (settles : graph.Settles type draft settled stop) :
    after.Settles type draft settled stop where
  widest := widestAlign_stable later settles.widest
  places := settles.places.stable later
  rounded := settles.rounded
  exports := by
    rw [settles.exports]
    apply List.flatMap_congr
    intro member within
    obtain ⟨_, extent, measured⟩ := settles.member member within
    exact (fieldsOf_stable later measured.align).symm
  isUnion := settles.isUnion
  complete := settles.complete
  final := settles.final

end Settles

/-- A settled record is settled in every later graph. -/
theorem Settled.stable (later : graph.Extends after) {contents : Record}
    (settled : graph.Settled type contents) : after.Settled type contents := by
  obtain ⟨draft, stop, isOpen, struct, settles⟩ := settled
  exact ⟨draft, stop, isOpen, struct, settles.stable later⟩

/-- A settled record is finalized. -/
theorem Settled.isFinalized {contents : Record} (settled : graph.Settled type contents) :
    contents.isFinalized = true := by
  obtain ⟨_, _, _, _, settles⟩ := settled
  exact settles.isFinalized

/-- A settled record is a struct. -/
theorem Settled.isUnion {contents : Record} (settled : graph.Settled type contents) :
    contents.isUnion = false := by
  obtain ⟨_, _, _, struct, settles⟩ := settled
  exact settles.isUnion.trans struct

/-- Every member of a settled record is measured, and none has the record's own type. -/
theorem Settled.member {contents : Record} (settled : graph.Settled type contents) :
    ∀ member ∈ contents.members,
      member.type ≠ type ∧ ∃ extent, graph.Measures member.type extent := by
  obtain ⟨_, _, _, _, settles⟩ := settled
  exact settles.member

/-- In a reachable graph every record is open or settled. Making a record and
adding members keeps it open; finalizing makes it settled; and whatever happens
to other nodes, a settled record stays settled. -/
theorem Reachable.open_or_settled (reachable : graph.Reachable) {contents : Record}
    (there : graph.node type = .record contents) :
    contents.IsOpen ∨ graph.Settled type contents := by
  refine reachable.record_induction (motive := fun graph type contents =>
    contents.IsOpen ∨ graph.Settled type contents) ?kept ?opened ?extended ?finalized there
  case kept =>
    rintro before after type contents effect _ (isOpen | settled)
    · exact Or.inl isOpen
    · exact Or.inr (settled.stable effect.extension)
  case opened =>
    intro after type isUnion
    exact Or.inl ⟨rfl, rfl, rfl, rfl, rfl, by simp [Record.fresh]⟩
  case extended =>
    rintro before after type contents member _ building unplaced (isOpen | settled)
    · refine Or.inl ⟨isOpen.incomplete, isOpen.stage, isOpen.exports, isOpen.size,
        isOpen.align, ?_⟩
      intro other within
      rcases List.mem_append.mp within with old | new
      · exact isOpen.unplaced other old
      · rw [List.mem_singleton.mp new]
        exact unplaced
    · rw [settled.isFinalized] at building
      cases building
  case finalized =>
    intro before after type draft settled _ effect inductionHypothesis earlier struct building
      laid _
    obtain ⟨stop, settles⟩ := laidOut_eq_ok_iff.mp laid
    rcases inductionHypothesis earlier with isOpen | settledBefore
    · exact Or.inr ⟨draft, stop, isOpen, struct, settles.stable effect.extension⟩
    · rw [settledBefore.isFinalized] at building
      cases building

/-- In a reachable graph a finalized record is settled. -/
theorem Reachable.settled (reachable : graph.Reachable) {contents : Record}
    (there : graph.node type = .record contents) (final : contents.isFinalized = true) :
    graph.Settled type contents := by
  rcases reachable.open_or_settled there with isOpen | settled
  · simp [Record.isFinalized, isOpen.stage] at final
  · exact settled

/-- In a reachable graph a record that is not finalized is open. -/
theorem Reachable.isOpen (reachable : graph.Reachable) {contents : Record}
    (there : graph.node type = .record contents) (building : contents.isFinalized = false) :
    contents.IsOpen := by
  rcases reachable.open_or_settled there with isOpen | settled
  · exact isOpen
  · rw [settled.isFinalized] at building
    cases building

/-- In a reachable graph a record is marked incomplete as long as it is not finalized. -/
theorem Reachable.isFinalized_eq (reachable : graph.Reachable) {contents : Record}
    (there : graph.node type = .record contents) :
    contents.isFinalized = !contents.incomplete := by
  rcases reachable.open_or_settled there with isOpen | settled
  · simp [Record.isFinalized, isOpen.stage, isOpen.incomplete]
  · obtain ⟨_, _, _, _, settles⟩ := settled
    simp [Record.isFinalized, settles.final, settles.complete]

end Graph

end CTypeGraph
