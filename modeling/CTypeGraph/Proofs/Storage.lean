import CTypeGraph.Proofs.ExactLayout
import Mathlib.Data.List.Chain

/-!
# The storage of fields

Every field of a finalized record has bytes of its own: fields follow one another
without overlap and the last one ends within the record. For the members as
declared this is the way they were placed. For the flat list it has to survive
the splicing, where the fields of an inner record are moved out by the offset of
that record; there it holds because they end within the inner record.

`Fills` is the invariant, a list of fields between two positions, and it is kept
by concatenation and by moving. It also shows that moving a field never wraps.
-/

namespace CTypeGraph

/-- The bytes of one field, from `start` up to and without `stop`. -/
structure Stretch where
  start : Nat
  stop : Nat
  deriving DecidableEq, Repr

/-- Stretches in the order of a list, one behind the other and all within `limit`:
each ends before the next one starts, and the last one ends within the limit. In
particular starts never decrease, and of those that start together only the last
can be other than empty. -/
structure Stretch.Disjoint (stretches : List Stretch) (limit : Nat) : Prop where
  apart : stretches.IsChain fun first second => first.stop ≤ second.start
  inside : ∀ last ∈ stretches.getLast?, last.stop ≤ limit
  ordered : stretches.Pairwise fun first second => first.start ≤ second.start
  shared : stretches.Pairwise fun first second =>
    first.start = second.start → first.stop = first.start

/-- Stretches of which each ends before every later one starts are disjoint in the
sense of the list. -/
theorem Stretch.Disjoint.of_pairwise {stretches : List Stretch} {limit : Nat}
    (bounds : ∀ stretch ∈ stretches, stretch.start ≤ stretch.stop ∧ stretch.stop ≤ limit)
    (apart : stretches.Pairwise fun first second => first.stop ≤ second.start) :
    Stretch.Disjoint stretches limit where
  apart := apart.isChain
  inside := fun last within => (bounds last (List.mem_of_getLast? within)).2
  ordered := by
    refine apart.imp_of_mem fun within _ before => ?_
    exact Nat.le_trans (bounds _ within).1 before
  shared := by
    refine apart.imp_of_mem fun within _ before together => ?_
    exact Nat.le_antisymm (together ▸ before) (bounds _ within).1

namespace Graph

variable {graph : Graph} {type : Handle}

/-- The bytes of a field, when its offset is resolved and its type has a size. -/
def stretch? (graph : Graph) (field : Member) : Option Stretch :=
  match field.offset?, graph.byteSize field.type with
  | some offset, .ok size => some ⟨offset.toNat, offset.toNat + size.toNat⟩
  | _, _ => none

/-- The fields lie one behind the other from `start` on and end by `limit`. -/
inductive Fills (graph : Graph) : (start : Nat) → List Member → (limit : Nat) → Prop
  | done {start limit : Nat} (room : start ≤ limit) : Fills graph start [] limit
  | next {start limit : Nat} {field : Member} {rest : List Member} {offset : ByteCount}
      {extent : Extent} (resolved : field.offset? = some offset)
      (measured : graph.Measures field.type extent) (beyond : start ≤ offset.toNat)
      (others : Fills graph (offset.toNat + extent.size.toNat) rest limit) :
      Fills graph start (field :: rest) limit

namespace Fills

variable {start middle limit : Nat} {fields others : List Member}

/-- Fields that fit leave the end behind the start. -/
theorem room (fills : graph.Fills start fields limit) : start ≤ limit := by
  induction fills with
  | done room => exact room
  | next _ _ beyond _ inductionHypothesis =>
    exact Nat.le_trans (Nat.le_trans beyond (Nat.le_add_right _ _)) inductionHypothesis

/-- Room may be added on either side. -/
theorem widen (fills : graph.Fills start fields limit) {earlier later : Nat}
    (before : earlier ≤ start) (behind : limit ≤ later) : graph.Fills earlier fields later := by
  induction fills generalizing earlier with
  | done room => exact .done (Nat.le_trans before (Nat.le_trans room behind))
  | next resolved measured beyond _ inductionHypothesis =>
    exact .next resolved measured (Nat.le_trans before beyond)
      (inductionHypothesis (Nat.le_refl _) behind)

/-- Every one of the fields is resolved and measured and ends by the limit. -/
theorem inside (fills : graph.Fills start fields limit) :
    ∀ field ∈ fields, ∃ offset extent, field.offset? = some offset ∧
      graph.Measures field.type extent ∧ offset.toNat + extent.size.toNat ≤ limit := by
  induction fills with
  | done => simp
  | next resolved measured _ others inductionHypothesis =>
    intro field within
    rcases List.mem_cons.mp within with rfl | later
    · exact ⟨_, _, resolved, measured, others.room⟩
    · exact inductionHypothesis field later

/-- Two lists of fields that meet are one list of fields. -/
theorem append (first : graph.Fills start fields middle)
    (second : graph.Fills middle others limit) : graph.Fills start (fields ++ others) limit := by
  induction first with
  | done room => exact second.widen room (Nat.le_refl _)
  | next resolved measured beyond _ inductionHypothesis =>
    exact .next resolved measured beyond (inductionHypothesis second)

/-- Fields seen from further out lie behind one another as before. The distance is
added without wrapping, because every field starts by the limit and the limit
stays within a word. -/
theorem shift (fills : graph.Fills start fields limit) {distance : ByteCount}
    (fits : limit + distance.toNat < UInt64.size) :
    graph.Fills (start + distance.toNat) (fields.map (·.shiftedBy distance))
      (limit + distance.toNat) := by
  induction fills with
  | done room => exact .done (Nat.add_le_add_right room _)
  | @next start limit field rest offset extent resolved measured beyond others
      inductionHypothesis =>
    have within : offset.toNat ≤ limit :=
      Nat.le_trans (Nat.le_add_right _ extent.size.toNat) others.room
    have exact : (offset + distance).toNat = offset.toNat + distance.toNat :=
      ByteCount.toNat_add_of_lt (Nat.lt_of_le_of_lt (Nat.add_le_add_right within _) fits)
    have moved : (field.shiftedBy distance).offset? = some (offset + distance) := by
      simp [Member.shiftedBy, Member.offsetOrZero, resolved]
    refine .next moved measured ?_ ?_
    · rw [exact]
      exact Nat.add_le_add_right beyond _
    · have tail := inductionHypothesis fits
      rw [exact, Nat.add_right_comm]
      exact tail

/-- The fields that members contribute fill what the members fill, if the fields of
inner records fill those records. A member that gives way to the fields of its
record leaves them exactly its own bytes. -/
theorem flatten (fills : graph.Fills start fields limit) (fits : limit < UInt64.size)
    (inner : ∀ field ∈ fields, ∀ contents, graph.node field.type = .record contents →
      graph.Fills 0 contents.exports contents.size.toNat) :
    graph.Fills start (fields.flatMap graph.fieldsOf) limit := by
  induction fills with
  | done room => exact .done room
  | @next start limit field rest offset extent resolved measured beyond others
      inductionHypothesis =>
    have tail := inductionHypothesis fits fun other within =>
      inner other (List.mem_cons_of_mem _ within)
    have head : graph.Fills start (graph.fieldsOf field) (offset.toNat + extent.size.toNat) := by
      unfold fieldsOf
      split
      case h_1 contents unnamed there =>
        obtain ⟨_, same⟩ := measured.of_record there
        have moved : field.offsetOrZero = offset := by simp [Member.offsetOrZero, resolved]
        have bound : contents.size.toNat + offset.toNat < UInt64.size := by
          have room := others.room
          rw [same] at room
          rw [Nat.add_comm]
          exact Nat.lt_of_le_of_lt room fits
        have shifted := (inner field List.mem_cons_self contents there).shift bound
        rw [moved, same, Nat.add_comm offset.toNat]
        exact shifted.widen (by omega) (Nat.le_refl _)
      case h_2 => exact .next resolved measured beyond (.done (Nat.le_refl _))
    rw [List.flatMap_cons]
    exact head.append tail

/-- Fields that lie behind one another have disjoint stretches. -/
theorem disjoint (fills : graph.Fills start fields limit) :
    ∃ stretches : List Stretch, fields.map graph.stretch? = stretches.map some ∧
      (∀ stretch ∈ stretches, start ≤ stretch.start ∧ stretch.start ≤ stretch.stop ∧
        stretch.stop ≤ limit) ∧
      stretches.Pairwise fun first second => first.stop ≤ second.start := by
  induction fills with
  | done room => exact ⟨[], rfl, by simp, .nil⟩
  | @next start limit field rest offset extent resolved measured beyond others
      inductionHypothesis =>
    obtain ⟨stretches, known, bounds, apart⟩ := inductionHypothesis
    have here : graph.stretch? field =
        some ⟨offset.toNat, offset.toNat + extent.size.toNat⟩ := by
      simp [stretch?, resolved, measured.size]
    refine ⟨⟨offset.toNat, offset.toNat + extent.size.toNat⟩ :: stretches, ?_, ?_, ?_⟩
    · rw [List.map_cons, List.map_cons, here, known]
    · intro stretch within
      rcases List.mem_cons.mp within with rfl | later
      · exact ⟨beyond, Nat.le_add_right _ _, others.room⟩
      · obtain ⟨after, proper, inside⟩ := bounds stretch later
        refine ⟨?_, proper, inside⟩
        exact Nat.le_trans (Nat.le_trans beyond (Nat.le_add_right _ _)) after
    · exact List.pairwise_cons.mpr ⟨fun stretch later => (bounds stretch later).1, apart⟩

end Fills

/-- Placed members lie behind one another. -/
theorem Places.fills {start finish : ByteCount} {members placed : List Member}
    (places : graph.Places start members placed finish) :
    graph.Fills start.toNat placed finish.toNat := by
  induction places with
  | none => exact .done (Nat.le_refl _)
  | next measured rounded advanced _ inductionHypothesis =>
    refine .next rfl measured ?_ ?_
    · rw [← rounded]
      exact le_alignedUp _ _
    · rw [advanced]
      exact inductionHypothesis

/-- The members of a settled record fill it. -/
theorem Settled.members_fill {contents : Record} (settled : graph.Settled type contents) :
    graph.Fills 0 contents.members contents.size.toNat := by
  obtain ⟨draft, stop, _, _, settles⟩ := settled
  have within : stop.toNat ≤ contents.size.toNat := by
    rw [← settles.rounded]
    exact le_alignedUp _ _
  exact settles.places.fills.widen (Nat.le_refl _) within

/-- In a reachable graph the flat list of a finalized record fills it. By induction
over nested records the fields of the inner ones fill those, and moving them out
puts them where the inner record is. -/
theorem Reachable.exports_fill (reachable : graph.Reachable) {contents : Record}
    (there : graph.node type = .record contents) (final : contents.isFinalized = true) :
    graph.Fills 0 contents.exports contents.size.toNat := by
  refine reachable.settled_induction
    (motive := fun _ contents => graph.Fills 0 contents.exports contents.size.toNat) ?_ there final
  intro type contents _ settled inner
  have exports : contents.exports = contents.members.flatMap graph.fieldsOf := by
    obtain ⟨_, _, _, _, settles⟩ := settled
    exact settles.exports
  rw [exports]
  exact settled.members_fill.flatten (UInt64.toNat_lt_size _)
    fun member within innerContents innerThere => (inner member within innerContents innerThere).2

/-- In a reachable graph the fields of a finalized record have disjoint bytes within
the record, in the flat list as among the members. Every one of them has a
resolved offset and a type with a size. -/
theorem Reachable.storage_disjoint (reachable : graph.Reachable) {contents : Record}
    (there : graph.node type = .record contents) (final : contents.isFinalized = true) :
    ∃ exported declared : List Stretch,
      contents.exports.map graph.stretch? = exported.map some ∧
      contents.members.map graph.stretch? = declared.map some ∧
      Stretch.Disjoint exported contents.size.toNat ∧
      Stretch.Disjoint declared contents.size.toNat := by
  obtain ⟨exported, knownExported, boundsExported, apartExported⟩ :=
    (reachable.exports_fill there final).disjoint
  obtain ⟨declared, knownDeclared, boundsDeclared, apartDeclared⟩ :=
    (reachable.settled there final).members_fill.disjoint
  exact ⟨exported, declared, knownExported, knownDeclared,
    .of_pairwise (fun stretch within => (boundsExported stretch within).2) apartExported,
    .of_pairwise (fun stretch within => (boundsDeclared stretch within).2) apartDeclared⟩

end Graph

/-- The bytes of the seven fields of the outermost struct, two of them from a struct
in a struct, and of its five members. -/
theorem nested_storage_disjoint :
    nestedGraph.Reachable ∧ nestedGraph.node ⟨4⟩ = .record nestedRecord ∧
      nestedRecord.isFinalized = true ∧
      ∃ exported declared : List Stretch,
        nestedRecord.exports.map nestedGraph.stretch? = exported.map some ∧
        nestedRecord.members.map nestedGraph.stretch? = declared.map some ∧
        Stretch.Disjoint exported nestedRecord.size.toNat ∧
        Stretch.Disjoint declared nestedRecord.size.toNat :=
  ⟨nestedGraph_reachable, nestedGraph_record, rfl,
    nestedGraph_reachable.storage_disjoint nestedGraph_record rfl⟩

end CTypeGraph
