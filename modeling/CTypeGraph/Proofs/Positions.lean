import CTypeGraph.Proofs.Flattening
import Mathlib.Data.Finset.Card
import Mathlib.Data.List.Destutter

/-!
# Positions of fields

The fields of a record are numbered by runs: consecutive fields at one offset share a
position. The lookups scan for runs and compare offsets, and nothing keeps a list of
fields from coming back to an offset that it has left, in which case the offset would
have two positions and only the first would be found for a name.

A laid-out record has no such list. Its fields fill it from the front, so their offsets
never go down, however deep the records are that the fields were taken from. All fields
at one offset are then neighbours, the runs are the different offsets in their natural
order, and the position of an offset is the number of smaller ones.
-/

namespace CTypeGraph

/-! ## Runs of any list of fields -/

/-- The offsets of the leaders are the offsets of the fields without immediate repetitions,
counted from the offset before them. -/
theorem offsets_runLeadersAfter (previous : Option ByteCount) (fields : List Member) :
    previous :: (runLeadersAfter previous fields).map (·.offset?) =
      (fields.map (·.offset?)).destutter' (· ≠ ·) previous := by
  induction fields generalizing previous with
  | nil => rfl
  | cons field rest inductionHypothesis =>
    rw [runLeadersAfter, List.map_cons]
    by_cases repeated : field.offset? = previous
    · rw [if_pos repeated, List.destutter'_cons_neg _ (not_not.mpr repeated.symm),
        inductionHypothesis]
    · rw [if_neg repeated, List.destutter'_cons_pos _ (Ne.symm repeated), List.map_cons,
        inductionHypothesis]

/-- The offsets of the leaders are the offsets of the fields without immediate repetitions. -/
theorem offsets_runLeaders (fields : List Member) :
    (runLeaders fields).map (·.offset?) = (fields.map (·.offset?)).destutter (· ≠ ·) := by
  cases fields with
  | nil => rfl
  | cons field rest => exact offsets_runLeadersAfter field.offset? rest

/-- Behind another offset, the first field at an offset opens a run. -/
theorem find?_runLeadersAfter {previous offset : Option ByteCount} (new : offset ≠ previous)
    (fields : List Member) :
    (runLeadersAfter previous fields).find? (·.offset? == offset) =
      fields.find? (·.offset? == offset) := by
  induction fields generalizing previous with
  | nil => rfl
  | cons field rest inductionHypothesis =>
    rw [runLeadersAfter, List.find?_cons]
    by_cases repeated : field.offset? = previous
    · have passed : (field.offset? == offset) = false := by simp [repeated, Ne.symm new]
      rw [if_pos repeated, passed]
      exact inductionHypothesis new
    · rw [if_neg repeated, List.find?_cons]
      by_cases here : field.offset? = offset
      · simp [here]
      · have passed : (field.offset? == offset) = false := by simp [here]
        rw [passed]
        exact inductionHypothesis (Ne.symm here)

/-- The first field at an offset opens a run. -/
theorem find?_runLeaders (offset : Option ByteCount) (fields : List Member) :
    (runLeaders fields).find? (·.offset? == offset) = fields.find? (·.offset? == offset) := by
  cases fields with
  | nil => rfl
  | cons field rest =>
    rw [runLeaders, List.find?_cons, List.find?_cons]
    by_cases here : field.offset? = offset
    · simp [here]
    · have passed : (field.offset? == offset) = false := by simp [here]
      rw [passed]
      exact find?_runLeadersAfter (Ne.symm here) rest

/-- A field that is found by name has a position, in any record whatever. It is the first
run at the offset of the field, and is opened by the first field at this offset. -/
theorem Record.fieldIndex?_of_fieldNamed? {record : Record} {name : String} {field : Member}
    (found : record.fieldNamed? name = some field) :
    ∃ position first, record.fieldIndex? name = .ok (some position) ∧
      record.fieldAt? position = some first ∧
      record.exports.find? (·.offset? == field.offset?) = some first := by
  have listed : field ∈ record.exports := List.mem_of_find?_eq_some found
  obtain ⟨first, earliest⟩ : ∃ first,
      record.exports.find? (·.offset? == field.offset?) = some first := by
    rw [← Option.isSome_iff_exists, List.find?_isSome]
    exact ⟨field, listed, beq_self_eq_true _⟩
  have leader := earliest
  rw [← find?_runLeaders, List.find?_eq_some_iff_getElem] at leader
  obtain ⟨atOffset, position, inside, read, before⟩ := leader
  have located : (runLeaders record.exports).findIdx? (·.offset? == field.offset?) =
      some position := by
    refine List.findIdx?_eq_some_iff_getElem.mpr ⟨inside, read ▸ atOffset, fun other earlier => ?_⟩
    simpa using before other earlier
  refine ⟨position, first, ?_, ?_, earliest⟩
  · simp only [Record.fieldIndex?, found, located]
  · exact List.getElem?_eq_some_iff.mpr ⟨inside, read⟩

/-! ## Offsets in order -/

/-- In an ascending list the place of an entry is the number of smaller ones. -/
theorem card_below_eq {starts : List ByteCount} (ascending : starts.Pairwise (· < ·))
    {place : Nat} {offset : ByteCount} (found : starts[place]? = some offset) :
    {start ∈ starts.toFinset | start < offset}.card = place := by
  induction starts generalizing place with
  | nil => cases found
  | cons first rest inductionHypothesis =>
    obtain ⟨least, ascendingRest⟩ := List.pairwise_cons.mp ascending
    rw [List.toFinset_cons, Finset.filter_insert]
    cases place with
    | zero =>
      obtain rfl : first = offset := Option.some.inj found
      rw [if_neg (UInt64.lt_irrefl first), Finset.card_eq_zero, Finset.filter_eq_empty_iff]
      intro start within below
      exact UInt64.lt_asymm below (least start (List.mem_toFinset.mp within))
    | succ place =>
      have later : rest[place]? = some offset := found
      have below : first < offset := least offset (List.mem_of_getElem? later)
      have absent : first ∉ {start ∈ rest.toFinset | start < offset} := by
        intro within
        have again : first ∈ rest := List.mem_toFinset.mp (Finset.mem_filter.mp within).1
        exact UInt64.lt_irrefl first (least first again)
      rw [if_pos below, Finset.card_insert_of_notMem absent,
        inductionHypothesis ascendingRest later]

namespace Record

/-- The different offsets of the fields, in the order in which they are first met. -/
def starts (record : Record) : List ByteCount :=
  (record.exports.filterMap (·.offset?)).dedup

/-- The different offsets of the fields. -/
def offsets (record : Record) : Finset ByteCount :=
  record.starts.toFinset

/-- There are as many different offsets as are listed. -/
theorem card_offsets (record : Record) : record.offsets.card = record.starts.length :=
  List.toFinset_card_of_nodup (List.nodup_dedup _)

end Record

namespace Graph

variable {graph : Graph} {type : Handle}

/-- The field that opens this position is at this offset. -/
def OpensAt (graph : Graph) (type : Handle) (position : Nat) (offset : ByteCount) : Prop :=
  ∃ field, graph.fieldAt? type position = .ok (some field) ∧ field.offset? = some offset

/-- Fields that lie behind one another are at offsets that never go down. -/
theorem Fills.ascending {start limit : Nat} {fields : List Member}
    (fills : graph.Fills start fields limit) :
    ∃ offsets : List ByteCount, fields.map (·.offset?) = offsets.map some ∧
      (∀ offset ∈ offsets, start ≤ offset.toNat) ∧ offsets.Pairwise (· ≤ ·) := by
  induction fills with
  | done => exact ⟨[], rfl, by simp, .nil⟩
  | @next start limit field rest offset extent resolved _ beyond _ inductionHypothesis =>
    obtain ⟨offsets, known, bounds, ascending⟩ := inductionHypothesis
    have behind : ∀ later ∈ offsets, offset ≤ later := by
      intro later within
      rw [UInt64.le_iff_toNat_le]
      exact Nat.le_trans (Nat.le_add_right _ _) (bounds later within)
    refine ⟨offset :: offsets, ?_, ?_, List.pairwise_cons.mpr ⟨behind, ascending⟩⟩
    · rw [List.map_cons, List.map_cons, resolved, known]
    · intro later within
      rcases List.mem_cons.mp within with rfl | further
      · exact beyond
      · exact Nat.le_trans beyond (UInt64.le_iff_toNat_le.mp (behind later further))

/-- The offsets of a finalized record are first met in ascending order, and the fields
that open its positions are at these offsets in this order. -/
theorem Reachable.starts_ascending (reachable : graph.Reachable) {contents : Record}
    (there : graph.node type = .record contents) (final : contents.isFinalized = true) :
    contents.starts.Pairwise (· < ·) ∧
      (runLeaders contents.exports).map (·.offset?) = contents.starts.map some := by
  obtain ⟨offsets, known, _, ascending⟩ := (reachable.exports_fill there final).ascending
  have starts : contents.starts = offsets.dedup := by
    have read := congrArg (List.filterMap id) known
    rw [Record.starts]
    congr 1
    simpa [List.filterMap_map, Function.comp_def] using read
  have distinct : offsets.dedup.Pairwise (· ≠ ·) := offsets.nodup_dedup
  rw [starts]
  constructor
  · exact (ascending.sublist offsets.dedup_sublist).imp₂ (fun _ _ => UInt64.lt_of_le_of_ne) distinct
  · rw [offsets_runLeaders, known, ← List.map_destutter_ne _ (Option.some_injective _),
      ascending.destutter_eq_dedup]

/-- Reading something off the layout of a finalized record is reading it off the record. -/
theorem finalizedRecord_bind {α : Type} {contents : Record}
    (there : graph.node type = .record contents) (final : contents.isFinalized = true)
    (read : Record → Except Fault α) : (graph.finalizedRecord type >>= read) = read contents := by
  rw [finalizedRecord_eq_ok_iff.mpr ⟨there, final⟩]
  rfl

/-- The positions of a finalized record are opened at the offsets in their order. -/
theorem Reachable.opensAt_iff (reachable : graph.Reachable) {contents : Record}
    (there : graph.node type = .record contents) (final : contents.isFinalized = true)
    {position : Nat} {offset : ByteCount} :
    graph.OpensAt type position offset ↔ contents.starts[position]? = some offset := by
  have read : graph.fieldAt? type position = .ok (contents.fieldAt? position) :=
    finalizedRecord_bind there final _
  have known := congrArg (·[position]?) (reachable.starts_ascending there final).2
  simp only [List.getElem?_map] at known
  simp only [OpensAt, read, Except.ok.injEq]
  rw [← Option.map_eq_some_iff, Record.fieldAt?, known, Option.map_eq_some_iff]
  simp

/-- The number of smaller offsets is the position of a field that is found by name. -/
theorem Reachable.index_of_named (reachable : graph.Reachable) {contents : Record}
    (there : graph.node type = .record contents) (final : contents.isFinalized = true)
    {name : String} {field : Member} (found : graph.fieldNamed? type name = .ok (some field)) :
    ∃ offset position first, field.offset? = some offset ∧
      position = {start ∈ contents.offsets | start < offset}.card ∧
      graph.fieldIndex? type name = .ok (some position) ∧
      graph.fieldAt? type position = .ok (some first) ∧
      contents.exports.find? (·.offset? == some offset) = some first := by
  have named : contents.fieldNamed? name = some field :=
    Except.ok.inj ((finalizedRecord_bind there final _).symm.trans found)
  obtain ⟨position, first, index, opened, earliest⟩ := Record.fieldIndex?_of_fieldNamed? named
  have read : graph.fieldAt? type position = .ok (some first) :=
    (finalizedRecord_bind there final _).trans (congrArg _ opened)
  obtain ⟨offset, placed, _⟩ := (reachable.exports_fill there final).resolved field
    (List.mem_of_find?_eq_some named)
  have together : first.offset? = some offset := by
    simpa [placed] using List.find?_some earliest
  have started : contents.starts[position]? = some offset :=
    (reachable.opensAt_iff there final).mp ⟨first, read, together⟩
  refine ⟨offset, position, first, placed, ?_, ?_, read, placed ▸ earliest⟩
  · exact (card_below_eq (reachable.starts_ascending there final).1 started).symm
  · exact (finalizedRecord_bind there final _).trans index

/-- In a reachable graph the positions of a finalized record are its offsets, numbered from
below. A field that is found by name has the position that is the number of smaller
offsets, and this position is opened by the first field at its offset. There are as many
positions as offsets, the offsets go up with the positions, and each offset belongs to
one position only. -/
theorem Reachable.positions_are_offsets (reachable : graph.Reachable) {contents : Record}
    (there : graph.node type = .record contents) (final : contents.isFinalized = true) :
    (∀ name field, graph.fieldNamed? type name = .ok (some field) →
        ∃ offset position first, field.offset? = some offset ∧
          position = {start ∈ contents.offsets | start < offset}.card ∧
          graph.fieldIndex? type name = .ok (some position) ∧
          graph.fieldAt? type position = .ok (some first) ∧
          contents.exports.find? (·.offset? == some offset) = some first) ∧
      (∀ position,
        (position < contents.offsets.card → ∃ offset, graph.OpensAt type position offset) ∧
          (contents.offsets.card ≤ position → graph.fieldAt? type position = .ok none)) ∧
      (∀ early late first second, early < late → graph.OpensAt type early first →
        graph.OpensAt type late second → first < second) ∧
      ∀ offset ∈ contents.offsets, ∃! position, graph.OpensAt type position offset := by
  obtain ⟨ascending, leaders⟩ := reachable.starts_ascending there final
  have opens : ∀ position offset, graph.OpensAt type position offset ↔
      contents.starts[position]? = some offset := fun _ _ => reachable.opensAt_iff there final
  refine ⟨fun _ _ => reachable.index_of_named there final, fun position => ⟨?some, ?none⟩,
    ?ordered, ?unique⟩
  case some =>
    intro below
    rw [Record.card_offsets] at below
    exact ⟨_, (opens _ _).mpr (List.getElem?_eq_getElem below)⟩
  case none =>
    intro beyond
    have length := congrArg List.length leaders
    rw [List.length_map, List.length_map, ← Record.card_offsets] at length
    have nothing : contents.fieldAt? position = none :=
      List.getElem?_eq_none (length ▸ beyond)
    exact (finalizedRecord_bind there final _).trans (congrArg _ nothing)
  case ordered =>
    intro early late first second before opensEarly opensLate
    obtain ⟨_, rfl⟩ := List.getElem?_eq_some_iff.mp ((opens _ _).mp opensEarly)
    obtain ⟨_, rfl⟩ := List.getElem?_eq_some_iff.mp ((opens _ _).mp opensLate)
    exact List.pairwise_iff_getElem.mp ascending _ _ _ _ before
  case unique =>
    intro offset listed
    obtain ⟨position, started⟩ := List.mem_iff_getElem?.mp (List.mem_toFinset.mp listed)
    refine ⟨position, (opens _ _).mpr started, fun other again => ?_⟩
    rw [← card_below_eq ascending started, ← card_below_eq ascending ((opens _ _).mp again)]

end Graph

/-! ## Fields at one offset -/

/-- A struct of a counter, an unnamed struct and a closing mark. The unnamed struct opens
with an array of no elements at the offset of its value, and the mark is another one at
the end. The types are, in order: `char`, `int`, the array and the two structs. -/
def sharedGraph : Graph :=
  (Graph.empty .lp64).after
    [.internBasic ⟨.char, true⟩, .internBasic ⟨.int, true⟩, .makeArray ⟨0⟩ 0, .makeRecord false,
      .makeRecord false, .addMember ⟨3⟩ (some "bytes") ⟨2⟩ default,
      .addMember ⟨3⟩ (some "value") ⟨1⟩ default, .addMember ⟨4⟩ (some "count") ⟨1⟩ default,
      .addMember ⟨4⟩ none ⟨3⟩ default, .addMember ⟨4⟩ (some "tail") ⟨2⟩ default,
      .finalize ⟨3⟩, .finalize ⟨4⟩]

/-- The outer struct, with four fields at three offsets. -/
def sharedRecord : Record where
  isUnion := false
  incomplete := false
  stage := .finalized
  members := [⟨some "count", ⟨1⟩, some 0⟩, ⟨none, ⟨3⟩, some 4⟩, ⟨some "tail", ⟨2⟩, some 8⟩]
  exports := [⟨some "count", ⟨1⟩, some 0⟩, ⟨some "bytes", ⟨2⟩, some 4⟩,
    ⟨some "value", ⟨1⟩, some 4⟩, ⟨some "tail", ⟨2⟩, some 8⟩]
  size := 8
  align := 4

/-- The value shares the second of three positions with the empty array before it, which
opens the position. -/
theorem shared_positions_are_offsets :
    sharedGraph.Reachable ∧ sharedGraph.node ⟨4⟩ = .record sharedRecord ∧
      sharedRecord.isFinalized = true ∧
      sharedGraph.fieldNamed? ⟨4⟩ "value" = .ok (some ⟨some "value", ⟨1⟩, some 4⟩) ∧
      sharedGraph.fieldIndex? ⟨4⟩ "value" = .ok (some 1) ∧
      sharedGraph.fieldAt? ⟨4⟩ 1 = .ok (some ⟨some "bytes", ⟨2⟩, some 4⟩) ∧
      (∃! position, sharedGraph.OpensAt ⟨4⟩ position 4) ∧
      sharedGraph.fieldAt? ⟨4⟩ 3 = .ok none := by
  have reachable : sharedGraph.Reachable := ⟨.lp64, Graph.evolves_after (by decide +kernel)⟩
  have there : sharedGraph.node ⟨4⟩ = .record sharedRecord := by decide +kernel
  have found : sharedGraph.fieldNamed? ⟨4⟩ "value" = .ok (some ⟨some "value", ⟨1⟩, some 4⟩) := by
    decide +kernel
  obtain ⟨named, counted, _, unique⟩ := reachable.positions_are_offsets there rfl
  obtain ⟨offset, position, first, placed, below, index, opened, earliest⟩ := named _ _ found
  obtain rfl : 4 = offset := Option.some.inj placed
  obtain rfl : position = 1 := below.trans (by decide +kernel)
  obtain rfl : ⟨some "bytes", ⟨2⟩, some 4⟩ = first := Option.some.inj earliest
  exact ⟨reachable, there, rfl, found, index, opened, unique 4 (by decide +kernel),
    (counted 3).2 (by decide +kernel)⟩

end CTypeGraph
