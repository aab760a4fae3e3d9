import CTypeGraph.Proofs.ExactLayout

/-!
# The tightest layout

Members are placed greedily, each at the first boundary of its own after the end of the
one before. Nothing is gained by placing one of them later, for then the next one cannot
start any earlier than it would have. So the offsets are the least ones, member by member,
and the end of the record is the least end. This does not depend on how the alignments
relate to one another, and they need not be powers of two.

`Arranges` says what any placement in the order of the declarations has to obey, and
nothing about how it is found. `Arranges.least` compares an arbitrary placement with the
greedy one, by induction on the arbitrary one; the greedy one may start ahead of it and
stays ahead. `Reachable.layout_least` is the comparison for the offsets and the size that a
finalized record states.
-/

namespace CTypeGraph

/-- The boundary on which an object starts. An alignment of zero asks for no more than an
alignment of one does. -/
def Span.boundary (span : Span) : Nat := max span.align 1

/-- Rounding up to the alignment of an object finds the first offset on its boundary. -/
theorem Span.alignedUp_isLeast_boundary (span : Span) (start : Nat) :
    IsLeast {offset | start ≤ offset ∧ span.boundary ∣ offset} (alignedUp start span.align) := by
  rcases Nat.eq_zero_or_pos span.align with absent | positive
  · rw [boundary, absent, alignedUp_zero_align]
    exact ⟨⟨Nat.le_refl start, Nat.one_dvd start⟩, fun _ bound => bound.1⟩
  · rw [boundary, Nat.max_eq_left positive]
    exact alignedUp_isLeast start positive

/-- Objects of these spans may stand at these offsets, in this order, and the last of them
ends at `stop`. Each is on its boundary and starts no earlier than the one before ends, the
first no earlier than `start`. -/
inductive Arranges : (start : Nat) → List Span → (offsets : List Nat) → (stop : Nat) → Prop
  | none {start : Nat} : Arranges start [] [] start
  | next {start offset stop : Nat} {span : Span} {spans : List Span} {offsets : List Nat}
      (behind : start ≤ offset) (aligned : span.boundary ∣ offset)
      (others : Arranges (offset + span.size) spans offsets stop) :
      Arranges start (span :: spans) (offset :: offsets) stop

/-- The greedy placement is such an arrangement. -/
theorem arranges_offsetsFrom (start : Nat) (spans : List Span) :
    Arranges start spans (offsetsFrom start spans) (endFrom start spans) := by
  induction spans generalizing start with
  | nil => exact .none
  | cons span rest inductionHypothesis =>
    obtain ⟨behind, aligned⟩ := (span.alignedUp_isLeast_boundary start).1
    exact .next behind aligned (inductionHypothesis _)

/-- The greedy placement is ahead of any other that does not start before it: no offset of
it is larger, nor is its end. -/
theorem Arranges.least {start earlier stop : Nat} {spans : List Span} {offsets : List Nat}
    (arranges : Arranges start spans offsets stop) (ahead : earlier ≤ start) :
    List.Forall₂ (· ≤ ·) (offsetsFrom earlier spans) offsets ∧ endFrom earlier spans ≤ stop := by
  induction arranges generalizing earlier with
  | none => exact ⟨.nil, ahead⟩
  | @next start offset stop span spans offsets behind aligned _ inductionHypothesis =>
    have first : alignedUp earlier span.align ≤ offset :=
      (span.alignedUp_isLeast_boundary earlier).2 ⟨Nat.le_trans ahead behind, aligned⟩
    obtain ⟨others, finish⟩ := inductionHypothesis (Nat.add_le_add_right first span.size)
    exact ⟨.cons first others, finish⟩

/-- Among the sizes of records that hold such objects, whatever their placement is, that of
the greedy placement is the least. -/
theorem Placement.ofSpans_size_isLeast (spans : List Span) :
    IsLeast {size | (Placement.ofSpans spans).span.align ∣ size ∧
        ∃ offsets stop, Arranges 0 spans offsets stop ∧ stop ≤ size}
      (Placement.ofSpans spans).span.size := by
  obtain ⟨⟨enough, multiple⟩, least⟩ :=
    alignedUp_isLeast (endFrom 0 spans) (le_widestFrom 1 spans)
  refine ⟨⟨multiple, _, _, arranges_offsetsFrom 0 spans, enough⟩, ?_⟩
  rintro size ⟨multiple', offsets, stop, arranges, inside⟩
  obtain ⟨_, finish⟩ := arranges.least (Nat.le_refl 0)
  exact least ⟨Nat.le_trans finish inside, multiple'⟩

namespace Graph

variable {graph : Graph} {type : Handle}

/-- In a reachable graph the layout of a finalized record is the tightest one. Its members
are measured, and they may stand where it puts them. In any other arrangement of them no
member stands earlier, and no multiple of the record's alignment that has room for the
arrangement is smaller than the record's size, which is such a multiple itself. -/
theorem Reachable.layout_least (reachable : graph.Reachable) {contents : Record}
    (there : graph.node type = .record contents) (final : contents.isFinalized = true) :
    (∀ member ∈ contents.members, ∃ extent,
        graph.Measures member.type extent ∧ graph.spanOf member.type = extent.span) ∧
      ∃ stored, ∃ stop : Nat,
        contents.members.map (fun member => member.offset?.map UInt64.toNat) = stored.map some ∧
        Arranges 0 (graph.spansOf contents.members) stored stop ∧
        stop ≤ contents.size.toNat ∧ contents.align.toNat ∣ contents.size.toNat ∧
        ∀ offsets finish, Arranges 0 (graph.spansOf contents.members) offsets finish →
          List.Forall₂ (· ≤ ·) stored offsets ∧
            ∀ size, contents.align.toNat ∣ size → finish ≤ size → contents.size.toNat ≤ size := by
  have settled : graph.Settled type contents := reachable.settled there final
  have stores : contents.Stores (.ofSpans (graph.spansOf contents.members)) := settled.stores
  have smallest := Placement.ofSpans_size_isLeast (graph.spansOf contents.members)
  rw [← stores.size, ← stores.align] at smallest
  obtain ⟨⟨multiple, _, _, arranges, inside⟩, least⟩ := smallest
  have room := Nat.le_trans (arranges.least (Nat.le_refl 0)).2 inside
  refine ⟨?measured, _, _, stores.offsets, arranges_offsetsFrom 0 _, room, multiple, ?tightest⟩
  case measured =>
    intro member within
    obtain ⟨_, extent, measured⟩ := settled.member member within
    exact ⟨extent, measured, measured.spanOf_eq⟩
  case tightest =>
    intro offsets finish arranges'
    refine ⟨(arranges'.least (Nat.le_refl 0)).1, fun size multiple' inside' => ?_⟩
    exact least ⟨multiple', offsets, finish, arranges', inside'⟩

end Graph

/-! ## Uneven boundaries -/

/-- A model in which `int` starts on a multiple of three and `short` wherever it likes. -/
def unevenModel : DataModel :=
  { DataModel.lp64 with short := ⟨2, 0⟩, int := ⟨4, 3⟩ }

/-- The types are, in order: `char`, `short`, `int`, and a struct of a `char`, an `int` and
a `short`. -/
def unevenGraph : Graph :=
  (Graph.empty unevenModel).after
    [.internBasic ⟨.char, true⟩, .internBasic ⟨.short, true⟩, .internBasic ⟨.int, true⟩,
      .makeRecord false, .addMember ⟨3⟩ (some "tag") ⟨0⟩ default,
      .addMember ⟨3⟩ (some "count") ⟨2⟩ default, .addMember ⟨3⟩ (some "step") ⟨1⟩ default,
      .finalize ⟨3⟩]

/-- The struct as it is laid out. The third member ends where the struct does. -/
def unevenRecord : Record where
  isUnion := false
  incomplete := false
  stage := .finalized
  members := [⟨some "tag", ⟨0⟩, some 0⟩, ⟨some "count", ⟨2⟩, some 3⟩, ⟨some "step", ⟨1⟩, some 7⟩]
  exports := [⟨some "tag", ⟨0⟩, some 0⟩, ⟨some "count", ⟨2⟩, some 3⟩, ⟨some "step", ⟨1⟩, some 7⟩]
  size := 9
  align := 3

/-- The struct takes nine bytes. Its members could also stand at 1, 6 and 11, but nowhere
earlier than at 0, 3 and 7, and a struct with room for them could not be smaller. -/
theorem uneven_layout_least :
    unevenGraph.Reachable ∧ unevenGraph.node ⟨3⟩ = .record unevenRecord ∧
      unevenRecord.isFinalized = true ∧
      Arranges 0 [⟨1, 1⟩, ⟨4, 3⟩, ⟨2, 0⟩] [1, 6, 11] 13 ∧
      List.Forall₂ (· ≤ ·) [0, 3, 7] [1, 6, 11] ∧
      ∀ size, 3 ∣ size → 13 ≤ size → 9 ≤ size := by
  have reachable : unevenGraph.Reachable := ⟨unevenModel, Graph.evolves_after (by decide +kernel)⟩
  have there : unevenGraph.node ⟨3⟩ = .record unevenRecord := by decide +kernel
  have other : Arranges 0 [⟨1, 1⟩, ⟨4, 3⟩, ⟨2, 0⟩] [1, 6, 11] 13 :=
    .next (by decide) (by decide) (.next (by decide) (by decide)
      (.next (by decide) (by decide) .none))
  have spans : unevenGraph.spansOf unevenRecord.members = [⟨1, 1⟩, ⟨4, 3⟩, ⟨2, 0⟩] := by
    decide +kernel
  obtain ⟨_, stored, _, offsets, _, _, _, tightest⟩ := reachable.layout_least there rfl
  have read : stored = [0, 3, 7] :=
    List.map_injective_iff.mpr (Option.some_injective Nat) offsets.symm
  rw [spans, read] at tightest
  exact ⟨reachable, there, rfl, other, tightest _ _ other⟩

end CTypeGraph
