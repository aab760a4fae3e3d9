import CTypeGraph.Proofs.Measure
import CTypeGraph.Proofs.Rounding

/-!
# Placing members with exact numbers

The placement of members is stated here once more without a word size: objects
of given spans go one after the other, each at the first boundary of its own
after the end of the one before. Laying out a record succeeds exactly when every
number of this placement fits into a word, and then yields these numbers.
`Places` is the step by step form of that agreement. It is what later arguments
about offsets do their induction on; none of them opens the checked operations.
-/

namespace CTypeGraph

/-- A size and an alignment as plain numbers. -/
structure Span where
  size : Nat
  align : Nat
  deriving DecidableEq, Repr

/-- The extent of a scalar without its word size. -/
def Extent.span (extent : Extent) : Span :=
  ⟨extent.size.toNat, extent.align.toNat⟩

/-- Where objects start that are put one after the other from `start` on. -/
def offsetsFrom (start : Nat) : List Span → List Nat
  | [] => []
  | span :: rest =>
    alignedUp start span.align :: offsetsFrom (alignedUp start span.align + span.size) rest

/-- Where the last of these objects ends. -/
def endFrom (start : Nat) : List Span → Nat
  | [] => start
  | span :: rest => endFrom (alignedUp start span.align + span.size) rest

/-- The largest alignment among the objects and `least`. -/
def widestFrom (least : Nat) : List Span → Nat
  | [] => least
  | span :: rest => widestFrom (max least span.align) rest

/-- The largest alignment is at least what it started from. -/
theorem le_widestFrom (least : Nat) (spans : List Span) : least ≤ widestFrom least spans := by
  induction spans generalizing least with
  | nil => exact Nat.le_refl least
  | cons span rest inductionHypothesis =>
    exact Nat.le_trans (Nat.le_max_left _ _) (inductionHypothesis _)

/-- The largest alignment is at least that of each object. -/
theorem align_le_widestFrom {least : Nat} {spans : List Span} :
    ∀ span ∈ spans, span.align ≤ widestFrom least spans := by
  induction spans generalizing least with
  | nil => simp
  | cons span rest inductionHypothesis =>
    intro other within
    rcases List.mem_cons.mp within with rfl | later
    · exact Nat.le_trans (Nat.le_max_right _ _) (le_widestFrom _ rest)
    · exact inductionHypothesis other later

/-- The larger of two words is the larger of two numbers. -/
theorem ByteCount.toNat_max (a b : ByteCount) : (max a b).toNat = max a.toNat b.toNat := by
  have unfolded : max a b = if a ≤ b then b else a := rfl
  rw [unfolded]
  split
  case isTrue below => rw [Nat.max_eq_right (UInt64.le_iff_toNat_le.mp below)]
  case isFalse above =>
    rw [UInt64.le_iff_toNat_le, Nat.not_le] at above
    rw [Nat.max_eq_left (Nat.le_of_lt above)]

namespace Graph

variable {graph after : Graph} {type : Handle}

/-- What a graph says about size and alignment, as plain numbers. A missing
answer reads as zero; statements that use a span establish that it is measured. -/
def spanOf (graph : Graph) (type : Handle) : Span where
  size := (graph.byteSize type).toOption.elim 0 UInt64.toNat
  align := (graph.byteAlign type).toOption.elim 0 UInt64.toNat

/-- The span of a measured type is the one that was measured. -/
theorem Measures.spanOf_eq {extent : Extent} (measured : graph.Measures type extent) :
    graph.spanOf type = extent.span := by
  simp [spanOf, Extent.span, measured.size, measured.align, Except.toOption]

/-- The spans of the members of a record, in order. -/
def spansOf (graph : Graph) (members : List Member) : List Span :=
  members.map fun member => graph.spanOf member.type

/-- The largest alignment is found exactly when no member has the record's own
type and every member has an alignment, and it is the exact maximum. -/
theorem widestAlign_eq_ok_iff {least widest : ByteCount} {members : List Member} :
    graph.widestAlign type least members = .ok widest ↔
      (∀ member ∈ members, member.type ≠ type ∧ ∃ align, graph.byteAlign member.type = .ok align) ∧
        widestFrom least.toNat (graph.spansOf members) = widest.toNat := by
  induction members generalizing least with
  | nil => simp [widestAlign, widestFrom, spansOf, UInt64.toNat_inj]
  | cons member rest inductionHypothesis =>
    unfold widestAlign
    by_cases own : member.type = type
    · simp [own]
    · rw [if_neg own, bind_eq_ok_iff]
      simp only [spansOf, List.map_cons, widestFrom, List.mem_cons, forall_eq_or_imp]
      constructor
      · rintro ⟨align, given, found⟩
        obtain ⟨others, exact⟩ := inductionHypothesis.mp found
        have read : (graph.spanOf member.type).align = align.toNat := by
          simp [spanOf, given, Except.toOption]
        refine ⟨⟨⟨own, align, given⟩, others⟩, ?_⟩
        rw [read, ← ByteCount.toNat_max]
        exact exact
      · rintro ⟨⟨⟨_, align, given⟩, others⟩, exact⟩
        have read : (graph.spanOf member.type).align = align.toNat := by
          simp [spanOf, given, Except.toOption]
        rw [read, ← ByteCount.toNat_max] at exact
        exact ⟨align, given, inductionHypothesis.mpr ⟨others, exact⟩⟩

/-- The members, placed one after the other from `start` to `finish`. Every
equation is between plain numbers, so nothing has wrapped. -/
inductive Places (graph : Graph) :
    (start : ByteCount) → (members placed : List Member) → (finish : ByteCount) → Prop
  | none {start : ByteCount} : Places graph start [] [] start
  | next {start offset stop finish : ByteCount} {member : Member} {rest placed : List Member}
      {extent : Extent} (measured : graph.Measures member.type extent)
      (rounded : alignedUp start.toNat extent.align.toNat = offset.toNat)
      (advanced : offset.toNat + extent.size.toNat = stop.toNat)
      (others : Places graph stop rest placed finish) :
      Places graph start (member :: rest) ({ member with offset? := some offset } :: placed) finish

/-- Placing members succeeds exactly where the exact placement fits into words. -/
theorem placeMembers_eq_ok_iff {start finish : ByteCount} {members placed : List Member} :
    graph.placeMembers type start members = .ok (placed, finish) ↔
      graph.Places start members placed finish := by
  induction members generalizing start placed with
  | nil =>
    simp only [placeMembers, Except.ok.injEq, Prod.mk.injEq]
    constructor
    · rintro ⟨rfl, rfl⟩
      exact .none
    · rintro ⟨⟩
      exact ⟨rfl, rfl⟩
  | cons member rest inductionHypothesis =>
    unfold placeMembers
    simp only [bind_eq_ok_iff, fitting_eq_ok_iff, ByteCount.roundUp?_eq_some_iff,
      ByteCount.add?_eq_some_iff]
    constructor
    · rintro ⟨align, aligned, offset, rounded, size, sized, stop, advanced, ⟨following, finish'⟩,
        others, settled⟩
      simp only [Except.ok.injEq, Prod.mk.injEq] at settled
      obtain ⟨rfl, rfl⟩ := settled
      have measured : graph.Measures member.type ⟨size, align⟩ := ⟨sized, aligned⟩
      exact .next measured rounded advanced (inductionHypothesis.mp others)
    · intro places
      cases places with
      | @next _ offset stop _ _ _ following extent measured rounded advanced others =>
        exact ⟨extent.align, measured.align, offset, rounded, extent.size, measured.size, stop,
          advanced, (following, finish), inductionHypothesis.mpr others, rfl⟩

namespace Places

variable {start finish : ByteCount} {members placed : List Member}

/-- Every member that was placed is measured. -/
theorem measured (places : graph.Places start members placed finish) :
    ∀ member ∈ members, ∃ extent, graph.Measures member.type extent := by
  induction places with
  | none => simp
  | next measured _ _ _ inductionHypothesis =>
    intro member within
    rcases List.mem_cons.mp within with rfl | within
    · exact ⟨_, measured⟩
    · exact inductionHypothesis member within

/-- The offsets are those of the exact placement. -/
theorem offsets (places : graph.Places start members placed finish) :
    placed.map (fun member => member.offset?.map UInt64.toNat) =
      (offsetsFrom start.toNat (graph.spansOf members)).map some := by
  induction places with
  | none => rfl
  | next measured rounded advanced _ inductionHypothesis =>
    simp only [spansOf, List.map_cons, offsetsFrom, measured.spanOf_eq, Extent.span, rounded,
      advanced] at inductionHypothesis ⊢
    rw [inductionHypothesis]
    rfl

/-- The end is that of the exact placement. -/
theorem finish_eq (places : graph.Places start members placed finish) :
    finish.toNat = endFrom start.toNat (graph.spansOf members) := by
  induction places with
  | none => rfl
  | next measured rounded advanced _ inductionHypothesis =>
    simp only [spansOf, List.map_cons, endFrom, measured.spanOf_eq, Extent.span, rounded,
      advanced] at inductionHypothesis ⊢
    exact inductionHypothesis

/-- Placing changes offsets only: names, types and order are as declared. -/
theorem declared (places : graph.Places start members placed finish) :
    placed.map (fun member => (member.name?, member.type)) =
      members.map (fun member => (member.name?, member.type)) := by
  induction places with
  | none => rfl
  | next _ _ _ _ inductionHypothesis =>
    simp only [List.map_cons, inductionHypothesis]

/-- A placement stands in every later graph. -/
theorem stable (later : graph.Extends after) (places : graph.Places start members placed finish) :
    after.Places start members placed finish := by
  induction places with
  | none => exact .none
  | next measured rounded advanced _ inductionHypothesis =>
    exact .next (measured.stable later) rounded advanced inductionHypothesis

end Places

/-- The second record is the first with its layout fixed, where the last member
ends at `stop`. -/
structure Settles (graph : Graph) (type : Handle) (draft settled : Record) (stop : ByteCount) :
    Prop where
  widest : graph.widestAlign type (max draft.align 1) draft.members = .ok settled.align
  places : graph.Places 0 draft.members settled.members stop
  rounded : alignedUp stop.toNat settled.align.toNat = settled.size.toNat
  exports : settled.exports = settled.members.flatMap graph.fieldsOf
  isUnion : settled.isUnion = draft.isUnion
  complete : settled.incomplete = false
  final : settled.stage = .finalized

/-- The types of the members are those that were declared. -/
theorem Settles.types {draft settled : Record} {stop : ByteCount}
    (settles : graph.Settles type draft settled stop) :
    settled.members.map (·.type) = draft.members.map (·.type) := by
  simpa [Function.comp_def] using congrArg (List.map Prod.snd) settles.places.declared

/-- A member of a laid-out record has a type that was declared. -/
theorem Settles.type_mem {draft settled : Record} {stop : ByteCount}
    (settles : graph.Settles type draft settled stop) {member : Member}
    (within : member ∈ settled.members) : member.type ∈ draft.members.map (·.type) := by
  rw [← settles.types]
  exact List.mem_map.mpr ⟨member, within, rfl⟩

/-- Laying out a record succeeds exactly with a layout in this sense. -/
theorem laidOut_eq_ok_iff {draft settled : Record} :
    graph.laidOut type draft = .ok settled ↔ ∃ stop, graph.Settles type draft settled stop := by
  unfold laidOut
  simp only [bind_eq_ok_iff, fitting_eq_ok_iff, ByteCount.roundUp?_eq_some_iff]
  constructor
  · rintro ⟨align, widest, ⟨placed, stop⟩, places, size, rounded, result⟩
    simp only [Except.ok.injEq] at result
    subst result
    exact ⟨stop, widest, placeMembers_eq_ok_iff.mp places, rounded, rfl, rfl, rfl, rfl⟩
  · rintro ⟨stop, widest, places, rounded, exports, isUnion, complete, final⟩
    refine ⟨settled.align, widest, (settled.members, stop), placeMembers_eq_ok_iff.mpr places,
      settled.size, rounded, ?_⟩
    cases settled
    simp only at exports isUnion complete final
    subst exports isUnion complete final
    rfl

/-- A record is given a layout exactly when it is a struct under construction whose
members have that layout. -/
theorem layoutOf_eq_ok_iff_settles {settled : Record} :
    graph.layoutOf type = .ok settled ↔
      ∃ draft stop, graph.node type = .record draft ∧ draft.isUnion = false ∧
        draft.isFinalized = false ∧ graph.Settles type draft settled stop := by
  simp only [layoutOf_eq_ok_iff, laidOut_eq_ok_iff, exists_and_left]

end Graph

end CTypeGraph
