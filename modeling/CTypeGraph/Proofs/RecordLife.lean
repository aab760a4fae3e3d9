import CTypeGraph.Proofs.Interning
import CTypeGraph.Proofs.Positions
import CTypeGraph.Proofs.Termination

/-!
# The life of a record

Whether the layout of a record is fixed is noted twice. Comparing types reads the mark of
incompleteness, everything else reads the stage, and beside the two stand offsets, fields,
size and alignment that mean something only when the layout is fixed. In a reachable graph
all of this goes together: a record is open or it is laid out, and nothing in between.
`Answers` says what follows for the questions about a record, each in terms of the mark
that it does not read itself.

`Passage` is what one operation can make of a record. Most operations spare it. The two
that name it may be refused, and then it is spared as well; otherwise an open record gets a
member, or it is laid out as it was declared. A laid-out record has no such way to go on,
so along a history there is one success in finalizing it at most, and none before its last
member was declared.
-/

namespace CTypeGraph

namespace Record

/-- A record whose layout is fixed, with no number missing. -/
structure IsLaidOut (record : Record) : Prop where
  complete : record.incomplete = false
  stage : record.stage = .finalized
  struct : record.isUnion = false
  placed : ∀ member ∈ record.members, ∃ offset, member.offset? = some offset
  exported : ∀ field ∈ record.exports, ∃ offset, field.offset? = some offset
  one_le_align : 1 ≤ record.align.toNat
  size_le : record.size.toNat ≤ 2 ^ 64 - 1

/-- The names and types of the members, in order. -/
def declared (record : Record) : List (Option String × Handle) :=
  record.members.map fun member => (member.name?, member.type)

/-- An open record is not finalized. -/
theorem IsOpen.isFinalized {record : Record} (isOpen : record.IsOpen) :
    record.isFinalized = false := by
  simp [Record.isFinalized, isOpen.stage]

/-- A laid-out record is finalized. -/
theorem IsLaidOut.isFinalized {record : Record} (laidOut : record.IsLaidOut) :
    record.isFinalized = true := by
  simp [Record.isFinalized, laidOut.stage]

/-- No record is both open and laid out. -/
theorem IsOpen.not_isLaidOut {record : Record} (isOpen : record.IsOpen) : ¬ record.IsLaidOut := by
  intro laidOut
  have final := laidOut.isFinalized
  rw [isOpen.isFinalized] at final
  cases final

end Record

/-- The record that an operation names to change it. -/
def Operation.subject? : Operation → Option Handle
  | .addMember record .. | .finalize record => some record
  | .internVoid | .internBasic _ | .internPointer _ | .makeEnumeration | .makeFunction _
  | .makeArray .. | .makeRecord _ => none

/-- An operation that names another record, or none, does not finalize this one. -/
theorem Operation.ne_finalize_of_subject?_ne {type : Handle} {operation : Operation}
    (other : operation.subject? ≠ some type) : (operation == .finalize type) = false := by
  rw [beq_eq_false_iff_ne]
  rintro rfl
  exact other rfl

/-- What one operation with this result can make of a record. -/
inductive Passage (type : Handle) :
    Operation → Except Fault (Option Handle) → Record → Record → Prop
  /-- The operation is about something else. -/
  | spared {operation : Operation} {result : Except Fault (Option Handle)} {record : Record}
      (other : operation.subject? ≠ some type) : Passage type operation result record record
  /-- The operation was refused. -/
  | refused {operation : Operation} {fault : Fault} {record : Record} :
      Passage type operation (.error fault) record record
  /-- An open record received a member at the end. -/
  | extended {name? : Option String} {memberType : Handle} {location : Location} {record : Record}
      (isOpen : record.IsOpen) :
      Passage type (.addMember type name? memberType location) (.ok none) record
        { record with members := record.members ++ [⟨name?, memberType, none⟩] }
  /-- An open struct was laid out. -/
  | laidOut {draft settled : Record} (isOpen : draft.IsOpen) (struct : draft.isUnion = false)
      (laidOut : settled.IsLaidOut) (declared : settled.declared = draft.declared) :
      Passage type (.finalize type) (.ok none) draft settled

namespace Passage

variable {type : Handle} {operation : Operation} {result : Except Fault (Option Handle)}
  {before later : Record}

/-- A laid-out record passes through everything as it is. -/
theorem eq_of_isFinalized (passage : Passage type operation result before later)
    (final : before.isFinalized = true) : later = before := by
  cases passage with
  | spared | refused => rfl
  | extended isOpen | laidOut isOpen =>
    rw [isOpen.isFinalized] at final
    cases final

/-- What has been declared stays declared, and more may follow. -/
theorem declared_prefix (passage : Passage type operation result before later) :
    before.declared <+: later.declared := by
  cases passage with
  | spared | refused => exact List.prefix_rfl
  | extended =>
    simp only [Record.declared, List.map_append]
    exact List.prefix_append _ _
  | laidOut _ _ _ declared => rw [declared]

/-- A record becomes finalized exactly through an operation that finalizes it and succeeds. -/
theorem isFinalized_toNat (passage : Passage type operation result before later) :
    before.isFinalized.toNat + (operation == .finalize type && result.isOk).toNat =
      later.isFinalized.toNat := by
  cases passage with
  | spared other => simp [Operation.ne_finalize_of_subject?_ne other]
  | refused => simp [Except.isOk, Except.toBool]
  | extended => simp [Record.isFinalized]
  | laidOut isOpen _ laidOut =>
    simp [isOpen.isFinalized, laidOut.isFinalized, Except.isOk, Except.toBool]

end Passage

namespace Graph

variable {graph after : Graph} {type : Handle} {contents : Record} {operation : Operation}

/-- In a reachable graph a finalized record is laid out. -/
theorem Reachable.isLaidOut (reachable : graph.Reachable)
    (there : graph.node type = .record contents) (final : contents.isFinalized = true) :
    contents.IsLaidOut := by
  have settled : graph.Settled type contents := reachable.settled there final
  have resolved : ∀ {fields : List Member}, graph.Fills 0 fields contents.size.toNat →
      ∀ field ∈ fields, ∃ offset, field.offset? = some offset :=
    fun fills field within => (fills.resolved field within).imp fun _ => And.left
  have one_le_align : 1 ≤ contents.align.toNat := by
    rw [settled.stores.align]
    exact le_widestFrom 1 _
  have complete : contents.incomplete = false := by
    obtain ⟨_, _, _, _, settles⟩ := settled
    exact settles.complete
  have stage : contents.stage = .finalized := beq_iff_eq.mp final
  exact ⟨complete, stage, settled.isUnion, resolved settled.members_fill,
    resolved (reachable.exports_fill there final), one_le_align,
    Nat.le_sub_one_of_lt contents.size.toNat_lt⟩

/-- In a reachable graph a record is open or laid out. -/
theorem Reachable.isOpen_or_isLaidOut (reachable : graph.Reachable)
    (there : graph.node type = .record contents) : contents.IsOpen ∨ contents.IsLaidOut := by
  cases final : contents.isFinalized with
  | true => exact Or.inr (reachable.isLaidOut there final)
  | false => exact Or.inl (reachable.isOpen there final)

/-! ## What a record answers -/

/-- The answers to all questions about a record, by the mark of incompleteness. -/
structure Answers (graph : Graph) (type : Handle) (contents : Record) : Prop where
  isFinalized : contents.isFinalized = !contents.incomplete
  /-- A record under construction is the same as the record exactly when it is
  under construction too. -/
  sameType : ∀ {other draft}, type ≠ other → graph.node other = .record draft →
    draft.incomplete = true → graph.sameType type other = contents.incomplete
  finalizedRecord : graph.finalizedRecord type =
    if contents.incomplete then .error (.internal (.stillBuilding (graph.spelling type)))
    else .ok contents
  byteSize : graph.byteSize type =
    if contents.incomplete then .error (.internal (.stillBuilding (graph.spelling type)))
    else .ok contents.size
  byteAlign : graph.byteAlign type =
    if contents.incomplete then .error (.internal (.stillBuilding (graph.spelling type)))
    else .ok contents.align
  fieldNamed? : ∀ name, graph.fieldNamed? type name =
    if contents.incomplete then .error (.internal (.stillBuilding (graph.spelling type)))
    else .ok (contents.fieldNamed? name)
  fieldAt? : ∀ position, graph.fieldAt? type position =
    if contents.incomplete then .error (.internal (.stillBuilding (graph.spelling type)))
    else .ok (contents.fieldAt? position)
  fieldIndex? : ∀ name, graph.fieldIndex? type name =
    if contents.incomplete then .error (.internal (.stillBuilding (graph.spelling type)))
    else contents.fieldIndex? name
  addMember : ∀ name? memberType location, graph.addMember type name? memberType location =
    if contents.incomplete then .ok (graph.replace type (.record
      { contents with members := contents.members ++ [⟨name?, memberType, none⟩] }))
    else .error (.internal (.memberAfterFinalize type location.line))
  finalize_ok : ∀ {after}, (graph.finalize type).value = .ok after →
    contents.incomplete = true ∧ contents.isUnion = false
  finalize_again : contents.incomplete = false →
    (graph.finalize type).value = .error (.internal (.finalizedTwice (graph.spelling type)))

/-- What reads the layout of a record is answered with it or refused, by the stage. -/
theorem finalizedRecord_bind_eq {α : Type} (there : graph.node type = .record contents)
    (read : Record → Except Fault α) :
    (graph.finalizedRecord type >>= read) =
      if contents.isFinalized then read contents
      else .error (.internal (.stillBuilding (graph.spelling type))) := by
  have found : graph.record type = .ok contents := record_eq_ok_iff.mpr there
  cases final : contents.isFinalized with
  | true => exact finalizedRecord_bind there final read
  | false => simp [finalizedRecord, found, final, bind, Except.bind]

/-- Two records of which one is under construction are the same when both are. -/
theorem sameType_of_incomplete {other : Handle} {draft : Record} (different : type ≠ other)
    (there : graph.node type = .record contents) (there' : graph.node other = .record draft)
    (incomplete : draft.incomplete = true) : graph.sameType type other = contents.incomplete := by
  have unfinished : (graph.node other).isUnfinished = true :=
    Node.isUnfinished_iff.mpr ⟨draft, there', incomplete⟩
  have answered : graph.sameWithin 1 .followed type other = some contents.incomplete := by
    rw [sameWithin_unfinished_right different unfinished, there, Node.isUnfinished]
  exact sameType_eq_of_answered answered

/-- In a reachable graph all questions about a record are answered by its mark of
incompleteness, whichever note of its age they read. -/
theorem Reachable.answers (reachable : graph.Reachable)
    (there : graph.node type = .record contents) : graph.Answers type contents := by
  have agreed : contents.isFinalized = !contents.incomplete := reachable.isFinalized_eq there
  have asked : ∀ {α : Type} (read : Record → Except Fault α),
      (graph.finalizedRecord type >>= read) =
        if contents.incomplete then .error (.internal (.stillBuilding (graph.spelling type)))
        else read contents := by
    intro α read
    rw [finalizedRecord_bind_eq there, agreed]
    cases contents.incomplete <;> rfl
  have layout : graph.finalizedRecord type =
      if contents.incomplete then .error (.internal (.stillBuilding (graph.spelling type)))
      else .ok contents := by
    rw [← asked Except.ok]
    cases graph.finalizedRecord type <;> rfl
  refine {
    isFinalized := agreed
    sameType := fun different there' incomplete =>
      sameType_of_incomplete different there there' incomplete
    finalizedRecord := layout
    byteSize := ?size
    byteAlign := ?align
    fieldNamed? := fun _ => asked _
    fieldAt? := fun _ => asked _
    fieldIndex? := fun _ => asked _
    addMember := ?addMember
    finalize_ok := ?finalize_ok
    finalize_again := ?finalize_again }
  case size =>
    simp only [byteSize, byteSizeWithin, there, layout, Option.getD_some]
    cases contents.incomplete <;> rfl
  case align =>
    simp only [byteAlign, byteAlignWithin, there, layout, Option.getD_some]
    cases contents.incomplete <;> rfl
  case addMember =>
    intro name? memberType location
    have found : graph.record type = .ok contents := record_eq_ok_iff.mpr there
    simp only [addMember, found, agreed, bind, Except.bind]
    cases contents.incomplete <;> rfl
  case finalize_ok =>
    intro after finalized
    obtain ⟨_, layout, _⟩ := finalize_eq_ok_iff.mp finalized
    obtain ⟨draft, there', struct, building, _⟩ := layoutOf_eq_ok_iff.mp layout
    rw [there, Node.record.injEq] at there'
    subst there'
    rw [agreed, Bool.not_eq_false'] at building
    exact ⟨building, struct⟩
  case finalize_again =>
    intro complete
    have final : contents.isFinalized = true := by rw [agreed, complete]; rfl
    have struct : contents.isUnion = false := (reachable.settled there final).isUnion
    have found : graph.record type = .ok contents := record_eq_ok_iff.mpr there
    simp [finalize, layoutOf, found, struct, final, bind, Except.bind, Logged.silent]

/-! ## What an operation makes of a record -/

/-- An operation that does not name a type leaves its node alone. -/
theorem perform_node_other (present : type.index < graph.size)
    (other : operation.subject? ≠ some type) :
    (graph.perform operation).graph.node type = graph.node type := by
  have enrolls : ∀ {node}, operation.asked? = some node ∨ operation.made? = some node →
      (graph.perform operation).graph.node type = graph.node type := by
    intro node wanted
    rcases perform_enrolls wanted with same | ⟨_, done⟩
    · rw [same]
    · rw [done]
      exact node_enroll_old node present
  cases operation with
  | internVoid | internBasic | internPointer => exact enrolls (Or.inl rfl)
  | makeEnumeration | makeFunction | makeArray | makeRecord => exact enrolls (Or.inr rfl)
  | addMember record name? memberType location =>
    have different : type ≠ record := by
      rintro rfl
      exact other rfl
    rcases graph.perform_addMember_cases record name? memberType location with
      ⟨_, _, _, done⟩ | same
    · rw [done]
      exact node_replace_other graph _ different
    · rw [same]
  | finalize record =>
    have different : type ≠ record := by
      rintro rfl
      exact other rfl
    rcases graph.perform_finalize_cases record with ⟨_, _, done⟩ | same
    · rw [done]
      exact node_replace_other graph _ different
    · rw [same]

/-- In a reachable graph a record passes through every operation, and remains a record. -/
theorem Reachable.passage (reachable : graph.Reachable) (fits : operation.Fits graph)
    (there : graph.node type = .record contents) :
    ∃ later, (graph.perform operation).graph.node type = .record later ∧
      Passage type operation (graph.perform operation).result contents later := by
  have present : type.index < graph.size := present_of_record there
  by_cases named : operation.subject? = some type
  · cases operation with
    | addMember record name? memberType location =>
      obtain rfl : record = type := Option.some.inj named
      cases answered : graph.addMember record name? memberType location with
      | ok after =>
        obtain ⟨contents', there', building, rfl⟩ := addMember_eq_ok_iff.mp answered
        rw [there, Node.record.injEq] at there'
        subst there'
        simp only [perform, Outcome.ofChange, Logged.silent, answered]
        exact ⟨_, node_replace_same graph _ present, .extended (reachable.isOpen there building)⟩
      | error fault =>
        simp only [perform, Outcome.ofChange, Logged.silent, answered]
        exact ⟨contents, there, .refused⟩
    | finalize record =>
      obtain rfl : record = type := Option.some.inj named
      have reached : (graph.perform (.finalize record)).graph.Reachable :=
        reachable.evolved (.step .refl fits)
      cases answered : (graph.finalize record).value with
      | ok after =>
        obtain ⟨settled, layout, rfl⟩ := finalize_eq_ok_iff.mp answered
        obtain ⟨draft, stop, there', struct, building, settles⟩ :=
          layoutOf_eq_ok_iff_settles.mp layout
        rw [there, Node.record.injEq] at there'
        subst there'
        simp only [perform, Outcome.ofChange, answered] at reached ⊢
        have replaced := node_replace_same graph (.record settled) present
        exact ⟨settled, replaced, .laidOut (reachable.isOpen there building) struct
          (reached.isLaidOut replaced settles.isFinalized) settles.places.declared⟩
      | error fault =>
        simp only [perform, Outcome.ofChange, answered]
        exact ⟨contents, there, .refused⟩
    | internVoid | internBasic | internPointer | makeEnumeration | makeFunction | makeArray
    | makeRecord => cases named
  · exact ⟨contents, (perform_node_other present named).trans there, .spared named⟩

/-- How many of the operations finalize the record and succeed. -/
def finalizations (graph : Graph) (type : Handle) (operations : List Operation) : Nat :=
  (operations.zip (graph.performAll operations)).countP fun performed =>
    performed.1 == .finalize type && performed.2.result.isOk

/-- The first operation counts when it finalizes the record and succeeds. -/
theorem finalizations_cons (rest : List Operation) :
    graph.finalizations type (operation :: rest) =
      (operation == .finalize type && (graph.perform operation).result.isOk).toNat +
        (graph.perform operation).graph.finalizations type rest := by
  simp only [finalizations, performAll, List.zip_cons_cons, List.countP_cons, Nat.add_comm]
  cases operation == .finalize type && (graph.perform operation).result.isOk <;> rfl

/-- Along a history what was declared of a record stays declared, a finalized record stays
as it is, and the record becomes finalized through the one success in finalizing it. -/
theorem Reachable.record_after (reachable : graph.Reachable) {operations : List Operation}
    (admitted : graph.Admits operations) (there : graph.node type = .record contents) :
    ∃ last, (graph.after operations).node type = .record last ∧
      contents.declared <+: last.declared ∧ (contents.isFinalized = true → last = contents) ∧
      contents.isFinalized.toNat + graph.finalizations type operations =
        last.isFinalized.toNat := by
  induction operations generalizing graph contents with
  | nil => exact ⟨contents, there, List.prefix_rfl, fun _ => rfl, rfl⟩
  | cons operation rest inductionHypothesis =>
    obtain ⟨fits, admittedRest⟩ := admitted
    obtain ⟨next, thereNext, passage⟩ := reachable.passage fits there
    have reached : (graph.perform operation).graph.Reachable :=
      reachable.evolved (.step .refl fits)
    obtain ⟨last, thereLast, declared, kept, counted⟩ :=
      inductionHypothesis reached admittedRest thereNext
    refine ⟨last, thereLast, passage.declared_prefix.trans declared, fun final => ?_, ?_⟩
    · have same : next = contents := passage.eq_of_isFinalized final
      rw [same] at kept
      exact kept final
    · have step := passage.isFinalized_toNat
      rw [finalizations_cons, ← counted, ← step, Nat.add_assoc]

/-- In a reachable graph every record is either open or laid out, and all questions about
it are answered accordingly. An operation spares it, is refused, puts a member at the end of
an open record, or lays out an open struct with the members that it has declared. So in any
history there is at most one success in finalizing it, and that success is all that tells a
record under construction from a finalized one. -/
theorem Reachable.record_lifecycle (reachable : graph.Reachable)
    (there : graph.node type = .record contents) :
    ((contents.IsOpen ∨ contents.IsLaidOut) ∧ ¬ (contents.IsOpen ∧ contents.IsLaidOut)) ∧
      graph.Answers type contents ∧
      (∀ operation, operation.Fits graph →
        ∃ later, (graph.perform operation).graph.node type = .record later ∧
          Passage type operation (graph.perform operation).result contents later) ∧
      ∀ operations, graph.Admits operations →
        graph.finalizations type operations ≤ 1 ∧
          ∃ last, (graph.after operations).node type = .record last ∧
            contents.declared <+: last.declared ∧
            (contents.isFinalized = true → last = contents) ∧
            contents.isFinalized.toNat + graph.finalizations type operations =
              last.isFinalized.toNat := by
  refine ⟨⟨reachable.isOpen_or_isLaidOut there, fun both => both.1.not_isLaidOut both.2⟩,
    reachable.answers there, fun _ fits => reachable.passage fits there, ?_⟩
  intro operations admitted
  obtain ⟨last, thereLast, declared, kept, counted⟩ := reachable.record_after admitted there
  have once : last.isFinalized.toNat ≤ 1 := Bool.toNat_le _
  exact ⟨by omega, last, thereLast, declared, kept, counted⟩

end Graph

/-- The nested record before anything is finalized: the inner structs have their members,
and the outermost struct has two of its five. -/
def draftNestedGraph : Graph :=
  (Graph.empty .lp64).after (nestedHistory.take 15)

/-- The outermost struct under construction. -/
def draftNestedRecord : Record :=
  { Record.fresh false with members := [⟨some "flag", ⟨0⟩, none⟩, ⟨none, ⟨3⟩, none⟩] }

/-- In what is left of the history the outermost struct is finalized twice. The first
attempt comes too early and is refused, so that the other members can still be declared. -/
theorem draftNested_record_lifecycle :
    draftNestedGraph.Reachable ∧ draftNestedGraph.node ⟨4⟩ = .record draftNestedRecord ∧
      draftNestedRecord.IsOpen ∧
      draftNestedGraph.byteSize ⟨4⟩ =
        .error (.internal (.stillBuilding (draftNestedGraph.spelling ⟨4⟩))) ∧
      draftNestedGraph.Admits (nestedHistory.drop 15) ∧
      (nestedHistory.drop 15).count (.finalize ⟨4⟩) = 2 ∧
      draftNestedGraph.finalizations ⟨4⟩ (nestedHistory.drop 15) = 1 ∧
      draftNestedRecord.declared <+: nestedRecord.declared := by
  have reachable : draftNestedGraph.Reachable := ⟨.lp64, Graph.evolves_after (by decide +kernel)⟩
  have there : draftNestedGraph.node ⟨4⟩ = .record draftNestedRecord := by decide +kernel
  have admitted : draftNestedGraph.Admits (nestedHistory.drop 15) := by decide +kernel
  have leads : draftNestedGraph.after (nestedHistory.drop 15) = nestedGraph := by decide +kernel
  obtain ⟨⟨shape, _⟩, answers, _, along⟩ := reachable.record_lifecycle there
  have isOpen : draftNestedRecord.IsOpen :=
    shape.resolve_right fun laidOut => Bool.noConfusion laidOut.complete
  obtain ⟨_, last, thereLast, declared, _, counted⟩ := along _ admitted
  rw [leads, nestedGraph_record, Node.record.injEq] at thereLast
  subst thereLast
  refine ⟨reachable, there, isOpen, answers.byteSize, admitted, by decide +kernel, ?_, declared⟩
  exact (Nat.zero_add _).symm.trans counted

end CTypeGraph
