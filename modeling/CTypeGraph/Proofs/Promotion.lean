import CTypeGraph.Proofs.Flattening
import CTypeGraph.Proofs.Stability

/-!
# Promoted fields do not wrap

Every number of a layout is found with a checked operation, except one. The fields of an unnamed
inner record are moved out to where that record is, and for this their offsets and the offset of
the record are added with the plain sum of the word, where a missing offset would count as zero.
`checkedLayoutOf` does the same work with checks in this place too. In a reachable graph they
never find anything, so a record is laid out or refused as without them.

The reason is that the fields end within the inner record, and that the end of the inner record
was found with a checked sum when it was placed. The rounding of the size comes later and has no
part in this: the sums are exact as well when the rounding is refused in the end.
-/

namespace CTypeGraph

/-- The same member seen from `distance` bytes further out, unless it has no offset or the sum
needs more than one word. -/
def Member.shiftedBy? (member : Member) (distance : ByteCount) : Option Member := do
  let offset ← member.offset?
  let moved ← ByteCount.add? offset distance
  some { member with offset? := some moved }

/-- A member with an offset is seen from further out as far as the sum fits. -/
theorem Member.shiftedBy?_eq {member : Member} {offset distance : ByteCount}
    (resolved : member.offset? = some offset)
    (fits : offset.toNat + distance.toNat < UInt64.size) :
    member.shiftedBy? distance = some (member.shiftedBy distance) := by
  simp [shiftedBy?, shiftedBy, offsetOrZero, resolved, ByteCount.add?, fits]

namespace Graph

variable {graph : Graph} {type : Handle}

/-- The fields that a placed member contributes, found with checks. -/
def fieldsOf? (graph : Graph) (member : Member) : Option (List Member) :=
  match graph.opened? member with
  | none => some [member]
  | some inner => do
    let distance ← member.offset?
    inner.exports.mapM (·.shiftedBy? distance)

/-- The record behind a handle with its layout fixed, where the fields of the inner records are
moved out with checks as well. The alarm is the fault if one of these checks fails. -/
def checkedLayoutOf (graph : Graph) (alarm : Fault) (type : Handle) : Except Fault Record := do
  let contents ← graph.record type
  if contents.isUnion then
    .error (.internal (.unionLayout (graph.spelling type)))
  else if contents.isFinalized then
    .error (.internal (.finalizedTwice (graph.spelling type)))
  else
    let align ← graph.widestAlign type (max contents.align 1) contents.members
    let (placed, stop) ← graph.placeMembers type 0 contents.members
    let fields ← (placed.mapM graph.fieldsOf?).elim (.error alarm) .ok
    let size ← graph.fitting type (stop.roundUp? align)
    .ok { contents with
      incomplete := false
      stage := .finalized
      members := placed
      exports := fields.flatten
      size := size
      align := align }

/-- In a reachable graph the fields of an inner record that has been placed start by the end of
the members when they are moved out. They end within their record, and it ends by there. -/
theorem Reachable.promoted_le (reachable : graph.Reachable) {start stop : ByteCount}
    {members placed : List Member} (places : graph.Places start members placed stop)
    {member : Member} (within : member ∈ placed) {inner : Record}
    (there : graph.node member.type = .record inner) :
    ∃ distance, member.offset? = some distance ∧ ∀ field ∈ inner.exports,
      ∃ offset, field.offset? = some offset ∧ offset.toNat + distance.toNat ≤ stop.toNat := by
  obtain ⟨distance, extent, placedAt, measured, ends⟩ := places.fills.inside member within
  obtain ⟨final, same⟩ := measured.of_record there
  rw [same] at ends
  refine ⟨distance, placedAt, fun field among => ?_⟩
  obtain ⟨offset, resolved, bounded⟩ := (reachable.exports_fill there final).resolved field among
  refine ⟨offset, resolved, ?_⟩
  calc offset.toNat + distance.toNat
      ≤ inner.size.toNat + distance.toNat := Nat.add_le_add_right bounded _
    _ = distance.toNat + inner.size.toNat := Nat.add_comm _ _
    _ ≤ stop.toNat := ends

/-- In a reachable graph the checks find nothing in the fields of a placed member. -/
theorem Reachable.fieldsOf?_eq (reachable : graph.Reachable) {start stop : ByteCount}
    {members placed : List Member} (places : graph.Places start members placed stop)
    {member : Member} (within : member ∈ placed) :
    graph.fieldsOf? member = some (graph.fieldsOf member) := by
  unfold fieldsOf?
  cases opening : graph.opened? member with
  | none => rw [fieldsOf_closed opening]
  | some inner =>
    obtain ⟨there, fields⟩ := fieldsOf_opened opening
    obtain ⟨distance, placedAt, bounds⟩ := reachable.promoted_le places within there
    have read : member.offsetOrZero = distance := by simp [Member.offsetOrZero, placedAt]
    have moved : ∀ field ∈ inner.exports,
        field.shiftedBy? distance = some (field.shiftedBy distance) := by
      intro field among
      obtain ⟨offset, resolved, bounded⟩ := bounds field among
      exact Member.shiftedBy?_eq resolved (Nat.lt_of_le_of_lt bounded stop.toNat_lt_size)
    rw [fields, read, placedAt]
    exact (mapM_congr moved).trans List.mapM_pure

/-- In a reachable graph the checks find nothing in the fields of all placed members. -/
theorem Reachable.mapM_fieldsOf?_eq (reachable : graph.Reachable) {start stop : ByteCount}
    {members placed : List Member} (places : graph.Places start members placed stop) :
    placed.mapM graph.fieldsOf? = some (placed.map graph.fieldsOf) :=
  (mapM_congr fun _ within => reachable.fieldsOf?_eq places within).trans List.mapM_pure

/-- In a reachable graph a record is laid out, or refused, as it is with the checks. -/
theorem Reachable.checkedLayoutOf_eq (reachable : graph.Reachable) (alarm : Fault)
    (type : Handle) : graph.checkedLayoutOf alarm type = graph.layoutOf type := by
  unfold checkedLayoutOf layoutOf laidOut
  -- Both ask the same in the same order, so only what follows a placement is to be compared.
  rcases graph.record type with fault | contents
  · rfl
  simp only [ok_bind]
  cases contents.isUnion with
  | true => rfl
  | false =>
    cases contents.isFinalized with
    | true => rfl
    | false =>
      simp only [Bool.false_eq_true, if_false]
      rcases graph.widestAlign type (max contents.align 1) contents.members with fault | align
      · rfl
      simp only [ok_bind]
      rcases placement : graph.placeMembers type 0 contents.members with fault | ⟨placed, stop⟩
      · rfl
      have places : graph.Places 0 contents.members placed stop :=
        placeMembers_eq_ok_iff.mp placement
      simp only [ok_bind, reachable.mapM_fieldsOf?_eq places, Option.elim_some, List.flatMap_def]

/-- In a reachable graph the plain sums that move fields out are exact. Finalizing gives what it
gives with checks in their place, whatever the fault would be if one failed. And wherever
members are placed, every field of an unnamed inner record has an offset, and that offset and the
offset of the inner record make a number that fits a word and is the offset of the field
outside. The rounding of the size has not been asked at this point. -/
theorem Reachable.promotion_exact (reachable : graph.Reachable) (type : Handle) :
    (∀ alarm, graph.checkedLayoutOf alarm type = graph.layoutOf type) ∧
      ∀ members placed stop, graph.placeMembers type 0 members = .ok (placed, stop) →
        ∀ member ∈ placed, member.name? = none →
          ∀ inner, graph.node member.type = .record inner →
            ∃ distance, member.offset? = some distance ∧ ∀ field ∈ inner.exports,
              ∃ offset, field.offset? = some offset ∧
                offset.toNat + distance.toNat < UInt64.size ∧
                (field.shiftedBy member.offsetOrZero).offset? = some (offset + distance) ∧
                (offset + distance).toNat = offset.toNat + distance.toNat := by
  refine ⟨fun alarm => reachable.checkedLayoutOf_eq alarm type, ?_⟩
  intro members placed stop placement member within _ inner there
  have places : graph.Places 0 members placed stop := placeMembers_eq_ok_iff.mp placement
  obtain ⟨distance, placedAt, bounds⟩ := reachable.promoted_le places within there
  refine ⟨distance, placedAt, fun field among => ?_⟩
  obtain ⟨offset, resolved, bounded⟩ := bounds field among
  have fits : offset.toNat + distance.toNat < UInt64.size :=
    Nat.lt_of_le_of_lt bounded stop.toNat_lt_size
  have moved : (field.shiftedBy member.offsetOrZero).offset? = some (offset + distance) := by
    simp [Member.shiftedBy, Member.offsetOrZero, resolved, placedAt]
  exact ⟨offset, resolved, fits, moved, ByteCount.toNat_add_of_lt fits⟩

end Graph

/-- A struct of all but six of the bytes that a word can count and one more stands unnamed behind
an `int`. The types are, in order: `char`, `int`, the array of bytes and the two structs. -/
def loadedGraph : Graph :=
  (Graph.empty .lp64).after
    [.internBasic ⟨.char, true⟩, .internBasic ⟨.int, true⟩, .makeArray ⟨0⟩ 18446744073709551610,
      .makeRecord false, .makeRecord false, .addMember ⟨3⟩ (some "bytes") ⟨2⟩ default,
      .addMember ⟨3⟩ (some "mark") ⟨0⟩ default, .finalize ⟨3⟩,
      .addMember ⟨4⟩ (some "count") ⟨1⟩ default, .addMember ⟨4⟩ none ⟨3⟩ default]

/-- The fields of the inner struct, of which the last one starts six bytes before the end of the
word. -/
def loadedFields : List Member :=
  [⟨some "bytes", ⟨2⟩, some 0⟩, ⟨some "mark", ⟨0⟩, some 18446744073709551610⟩]

/-- The inner struct, which is finalized. -/
def loadedRecord : Record where
  isUnion := false
  incomplete := false
  stage := .finalized
  members := loadedFields
  exports := loadedFields
  size := 18446744073709551611
  align := 1

/-- The end of the outer struct is the largest number of a word, and its size cannot be rounded.
By then its fields have been moved out by four bytes, and no check would have found anything. -/
theorem loaded_promotion_exact :
    loadedGraph.Reachable ∧ loadedGraph.node ⟨3⟩ = .record loadedRecord ∧
      (∀ alarm, loadedGraph.checkedLayoutOf alarm ⟨4⟩ =
        .error (.internal (.sizeOverflow "struct <#4>"))) ∧
      ∀ field ∈ loadedFields, ∃ offset, field.offset? = some offset ∧
        (field.shiftedBy 4).offset? = some (offset + 4) ∧
        (offset + 4).toNat = offset.toNat + 4 := by
  have reachable : loadedGraph.Reachable := ⟨.lp64, Graph.evolves_after (by decide +kernel)⟩
  have there : loadedGraph.node ⟨3⟩ = .record loadedRecord := by decide +kernel
  have placement :
      loadedGraph.placeMembers ⟨4⟩ 0 [⟨some "count", ⟨1⟩, none⟩, ⟨none, ⟨3⟩, none⟩] =
        .ok ([⟨some "count", ⟨1⟩, some 0⟩, ⟨none, ⟨3⟩, some 4⟩], 18446744073709551615) := by
    decide +kernel
  have refused :
      loadedGraph.layoutOf ⟨4⟩ = .error (.internal (.sizeOverflow "struct <#4>")) := by
    decide +kernel
  obtain ⟨checked, exact⟩ := reachable.promotion_exact ⟨4⟩
  obtain ⟨distance, placedAt, fields⟩ :=
    exact _ _ _ placement ⟨none, ⟨3⟩, some 4⟩ (by decide) rfl loadedRecord there
  obtain rfl : 4 = distance := Option.some.inj placedAt
  refine ⟨reachable, there, fun alarm => (checked alarm).trans refused, fun field among => ?_⟩
  obtain ⟨offset, resolved, _, moved, sum⟩ := fields field among
  exact ⟨offset, resolved, moved, sum⟩

end CTypeGraph
