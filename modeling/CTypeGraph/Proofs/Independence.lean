import CTypeGraph.Proofs.RecordLife
import CTypeGraph.Proofs.Stability

/-!
# Additions to a record keep to themselves

Declaring a member of one record and declaring or finalizing another one can be done in either
order. The graph at the end is the same, and so is what becomes of either operation, down to the
wording of a refusal. This holds however the two records are made of one another, and whether
or not they are records at all.

It would be plain if a layout read nothing but the record that it is for. But it reads the records
in it as well: their sizes, alignments and fields, and their spellings where something is wrong.
So there are two things to see. A record that can still receive a member is under construction,
before the addition and after it, and of such a record a layout reads nothing that its members
have a part in: it is refused, in the same words. And an addition reads nothing of other records
but what they look like from outside, which is not changed by giving them members or a layout.

`Node.Redrafted` is the first observation and `Node.Alike` the second. `DoesSame` says of one
operation and two graphs that it does the same in both, and two operations are `Independent`
when each of them does the same before and after the other.
-/

namespace CTypeGraph

/-- What additions make of a node: it is the node that it was, or it is a record under
construction with other members. -/
inductive Node.Redrafted : Node → Node → Prop
  | same (node : Node) : Redrafted node node
  | draft {draft : Record} (building : draft.isFinalized = false) (members : List Member) :
      Redrafted (.record draft) (.record { draft with members := members })

/-- A record with other members looks the same from outside. -/
theorem Node.Redrafted.alike {one other : Node} (redrafted : one.Redrafted other) :
    one.Alike other := by
  cases redrafted with
  | same => exact .same _
  | draft => exact .records rfl

namespace Graph

variable {graph after : Graph} {type : Handle}

/-- Exchanges of two different nodes can be made in either order. -/
theorem replace_comm (graph : Graph) {first second : Handle} (different : first ≠ second)
    (one other : Node) :
    (graph.replace first one).replace second other =
      (graph.replace second other).replace first one := by
  have apart : first.index ≠ second.index := Handle.index_ne different
  simp only [replace, Array.setIfInBounds_comm _ _ apart]

/-- What holds between a node and itself, and between a node and the one that it is exchanged
for, holds between all nodes before and after the exchange. -/
theorem replace_related {relation : Node → Node → Prop} (refl : ∀ node, relation node node)
    {node : Node} (exchanged : relation (graph.node type) node) (other : Handle) :
    relation (graph.node other) ((graph.replace type node).node other) := by
  by_cases same : other = type
  · subst same
    by_cases present : other.index < graph.size
    · rw [node_replace_same graph node present]
      exact exchanged
    · have outside : graph.size ≤ other.index := Nat.le_of_not_lt present
      rw [node_of_size_le outside, node_of_size_le (by rw [size_replace]; exact outside)]
      exact refl .void
  · rw [node_replace_other graph node same]
    exact refl _

/-- Where all types look alike they are spelled the same. -/
theorem spelling_eq_of_alike (looks : ∀ other, (graph.node other).Alike (after.node other))
    (type : Handle) : after.spelling type = graph.spelling type := by
  have within (steps : Nat) :
      ∀ type, after.spellingWithin steps type = graph.spellingWithin steps type := by
    induction steps with
    | zero => exact fun _ => rfl
    | succ steps inductionHypothesis =>
      intro type
      apply spellingWithin_succ_congr (looks type)
      · exact fun part _ => looks part
      · exact fun part _ => inductionHypothesis part
  unfold spelling
  rw [within]

/-- A record that is the same, in a graph where all types look alike, is read the same. -/
theorem record_eq_of_alike (looks : ∀ other, (graph.node other).Alike (after.node other))
    (kept : after.node type = graph.node type) : after.record type = graph.record type := by
  unfold record
  rw [kept, spelling_eq_of_alike looks]

/-! ## What a layout does not see -/

/-- The second graph is the first one except for the members of records under construction. -/
structure Redraft (before after : Graph) : Prop where
  model : after.model = before.model
  node : ∀ type, (before.node type).Redrafted (after.node type)

namespace Redraft

/-- All types look alike. -/
theorem looks (redraft : Redraft graph after) (type : Handle) :
    (graph.node type).Alike (after.node type) :=
  (redraft.node type).alike

/-- Reading a layout gives the same layout or the same refusal. -/
theorem finalizedRecord_eq (redraft : Redraft graph after) (type : Handle) :
    after.finalizedRecord type = graph.finalizedRecord type := by
  have redrafted := redraft.node type
  unfold finalizedRecord record
  rw [spelling_eq_of_alike redraft.looks]
  generalize graph.node type = node at redrafted ⊢
  generalize after.node type = later at redrafted ⊢
  cases redrafted with
  | same => rfl
  | @draft draft building members =>
    -- Neither is finalized, so neither is read.
    have building' : Record.isFinalized { draft with members := members } = false := building
    simp only [ok_bind, building, building', Bool.false_eq_true, reduceIte]

/-- A count of bytes fits or does not, in the same words. -/
theorem fitting_eq (redraft : Redraft graph after) (type : Handle) (count : Option ByteCount) :
    after.fitting type count = graph.fitting type count := by
  cases count with
  | some count => rfl
  | none => rw [fitting, fitting, spelling_eq_of_alike redraft.looks]

/-- A type that is not an object is refused in the same words. -/
theorem noObjectLayout_eq (redraft : Redraft graph after) (type : Handle) :
    after.noObjectLayout type = graph.noObjectLayout type := by
  rw [noObjectLayout, noObjectLayout, spelling_eq_of_alike redraft.looks]

/-- A type has the same size, in as many steps. -/
theorem byteSizeWithin_eq (redraft : Redraft graph after) (steps : Nat) (type : Handle) :
    after.byteSizeWithin steps type = graph.byteSizeWithin steps type := by
  induction steps generalizing type with
  | zero => rfl
  | succ steps inductionHypothesis =>
    have redrafted := redraft.node type
    unfold byteSizeWithin
    rw [redraft.model, redraft.finalizedRecord_eq, redraft.noObjectLayout_eq]
    generalize graph.node type = node at redrafted ⊢
    generalize after.node type = later at redrafted ⊢
    cases redrafted with
    | draft => rfl
    | same =>
      cases node with
      | array element count => simp only [inductionHypothesis element, redraft.fitting_eq]
      | void | basic | enumeration | pointer | function | record => rfl

/-- A type has the same alignment, in as many steps. -/
theorem byteAlignWithin_eq (redraft : Redraft graph after) (steps : Nat) (type : Handle) :
    after.byteAlignWithin steps type = graph.byteAlignWithin steps type := by
  induction steps generalizing type with
  | zero => rfl
  | succ steps inductionHypothesis =>
    have redrafted := redraft.node type
    unfold byteAlignWithin
    rw [redraft.model, redraft.finalizedRecord_eq, redraft.noObjectLayout_eq]
    generalize graph.node type = node at redrafted ⊢
    generalize after.node type = later at redrafted ⊢
    cases redrafted with
    | draft => rfl
    | same =>
      cases node with
      | array element count => exact inductionHypothesis element
      | void | basic | enumeration | pointer | function | record => rfl

/-- A type has the same size, or has none for the same reason. -/
theorem byteSize_eq (redraft : Redraft graph after) (type : Handle) :
    after.byteSize type = graph.byteSize type := by
  rw [byteSize, byteSize, redraft.byteSizeWithin_eq, redraft.noObjectLayout_eq]

/-- A type has the same alignment, or has none for the same reason. -/
theorem byteAlign_eq (redraft : Redraft graph after) (type : Handle) :
    after.byteAlign type = graph.byteAlign type := by
  rw [byteAlign, byteAlign, redraft.byteAlignWithin_eq, redraft.noObjectLayout_eq]

/-- A member contributes the same fields. Those of a record under construction are none of its
members. -/
theorem fieldsOf_eq (redraft : Redraft graph after) (member : Member) :
    after.fieldsOf member = graph.fieldsOf member := by
  have redrafted := redraft.node member.type
  unfold fieldsOf
  generalize graph.node member.type = node at redrafted ⊢
  generalize after.node member.type = later at redrafted ⊢
  cases redrafted with
  | same => rfl
  | draft => cases member.name? <;> rfl

/-- The largest alignment among the members is the same. -/
theorem widestAlign_eq (redraft : Redraft graph after) (type : Handle) (least : ByteCount)
    (members : List Member) :
    after.widestAlign type least members = graph.widestAlign type least members := by
  induction members generalizing least with
  | nil => rfl
  | cons member rest inductionHypothesis =>
    simp only [widestAlign, spelling_eq_of_alike redraft.looks, redraft.byteAlign_eq,
      inductionHypothesis]

/-- The members are placed the same. -/
theorem placeMembers_eq (redraft : Redraft graph after) (type : Handle) (start : ByteCount)
    (members : List Member) :
    after.placeMembers type start members = graph.placeMembers type start members := by
  induction members generalizing start with
  | nil => rfl
  | cons member rest inductionHypothesis =>
    simp only [placeMembers, redraft.byteAlign_eq, redraft.byteSize_eq, redraft.fitting_eq,
      inductionHypothesis]

/-- A record that is the same has the same layout, or has none for the same reason. -/
theorem layoutOf_eq (redraft : Redraft graph after) (kept : after.node type = graph.node type) :
    after.layoutOf type = graph.layoutOf type := by
  have fields : after.fieldsOf = graph.fieldsOf := funext redraft.fieldsOf_eq
  simp only [layoutOf, laidOut, record_eq_of_alike redraft.looks kept,
    spelling_eq_of_alike redraft.looks, redraft.widestAlign_eq, redraft.placeMembers_eq,
    redraft.fitting_eq, fields]

end Redraft

/-- An addition is an exchange of its record for one with other members, and that is all. -/
theorem perform_addMember_redrafts (graph : Graph) (type : Handle) (name? : Option String)
    (memberType : Handle) (location : Location) :
    ∃ node, (graph.perform (.addMember type name? memberType location)).graph =
      graph.replace type node ∧ (graph.node type).Redrafted node := by
  rcases graph.perform_addMember_cases type name? memberType location with
    ⟨contents, there, building, done⟩ | same
  · refine ⟨_, done, ?_⟩
    rw [there]
    exact .draft building _
  · exact ⟨graph.node type, by rw [same, replace_node_self], .same _⟩

/-- An operation that names a record exchanges it for one of the same kind, and that is all. -/
theorem perform_subject_alike {operation : Operation} (named : operation.subject? = some type) :
    ∃ node, (graph.perform operation).graph = graph.replace type node ∧
      (graph.node type).Alike node := by
  cases operation with
  | addMember record name? memberType location =>
    obtain rfl : record = type := Option.some.inj named
    obtain ⟨node, done, redrafted⟩ :=
      graph.perform_addMember_redrafts record name? memberType location
    exact ⟨node, done, redrafted.alike⟩
  | finalize record =>
    obtain rfl : record = type := Option.some.inj named
    rcases graph.perform_finalize_cases record with ⟨settled, layout, done⟩ | same
    · obtain ⟨draft, _, there, _, _, settles⟩ := layoutOf_eq_ok_iff_settles.mp layout
      refine ⟨_, done, ?_⟩
      rw [there]
      exact .records settles.isUnion.symm
    · exact ⟨graph.node record, by rw [same, replace_node_self], .same _⟩
  | internVoid | internBasic | internPointer | makeEnumeration | makeFunction | makeArray
  | makeRecord => cases named

/-! ## Operations that do not meet -/

/-- The operation does the same in both graphs: it puts the same node in the place of its
record, with the same result and the same events. -/
structure DoesSame (operation : Operation) (type : Handle) (one other : Graph) : Prop where
  exchange : ∃ node, (one.perform operation).graph = one.replace type node ∧
    (other.perform operation).graph = other.replace type node
  result : (other.perform operation).result = (one.perform operation).result
  events : (other.perform operation).events = (one.perform operation).events

/-- The record with one more member, or the reason why there is none that takes it. -/
def withMember (graph : Graph) (type : Handle) (name? : Option String) (memberType : Handle)
    (location : Location) : Except Fault Record := do
  let contents ← graph.record type
  if contents.isFinalized then .error (.internal (.memberAfterFinalize type location.line))
  else .ok { contents with members := contents.members ++ [⟨name?, memberType, none⟩] }

/-- An addition puts the record with one more member in its place. -/
theorem addMember_eq_map (graph : Graph) (type : Handle) (name? : Option String)
    (memberType : Handle) (location : Location) :
    graph.addMember type name? memberType location =
      (graph.withMember type name? memberType location).map fun contents =>
        graph.replace type (.record contents) := by
  unfold addMember withMember
  cases graph.record type with
  | error fault => rfl
  | ok contents => cases final : contents.isFinalized <;> simp [ok_bind, final, Except.map]

/-- Finalizing puts the layout in its place. -/
theorem finalize_value_eq_map (graph : Graph) (type : Handle) :
    (graph.finalize type).value =
      (graph.layoutOf type).map fun contents => graph.replace type (.record contents) := by
  unfold finalize
  cases graph.layoutOf type <;> rfl

/-- An operation that revises a record that is the same does the same, if it comes to the same
revision with the same events. -/
theorem doesSame_of_revision {operation : Operation} (kept : after.node type = graph.node type)
    (revision : Except Fault Record) (events : List Event)
    (before : graph.perform operation = .ofChange graph
      ⟨revision.map fun contents => graph.replace type (.record contents), events⟩)
    (later : after.perform operation = .ofChange after
      ⟨revision.map fun contents => after.replace type (.record contents), events⟩) :
    DoesSame operation type graph after := by
  have result : (after.perform operation).result = (graph.perform operation).result := by
    rw [before, later]
    cases revision <;> rfl
  have reported : (after.perform operation).events = (graph.perform operation).events := by
    rw [before, later]
    cases revision <;> rfl
  refine ⟨?_, result, reported⟩
  rw [before, later]
  cases revision with
  | ok contents => exact ⟨.record contents, rfl, rfl⟩
  | error fault =>
    -- A refusal is the exchange of the node for itself.
    refine ⟨graph.node type, ?_, ?_⟩
    · rw [replace_node_self]
      rfl
    · rw [← kept, replace_node_self]
      rfl

/-- An addition to a record that is the same does the same where all types look alike. -/
theorem addMember_doesSame (looks : ∀ other, (graph.node other).Alike (after.node other))
    (kept : after.node type = graph.node type) (name? : Option String) (memberType : Handle)
    (location : Location) :
    DoesSame (.addMember type name? memberType location) type graph after := by
  have revision : after.withMember type name? memberType location =
      graph.withMember type name? memberType location := by
    rw [withMember, withMember, record_eq_of_alike looks kept]
  apply doesSame_of_revision kept (graph.withMember type name? memberType location) []
  · rw [perform, Logged.silent, addMember_eq_map]
  · rw [perform, Logged.silent, addMember_eq_map, revision]

/-- Finalizing a record that is the same does the same after additions to other records. -/
theorem finalize_doesSame (redraft : Redraft graph after)
    (kept : after.node type = graph.node type) :
    DoesSame (.finalize type) type graph after := by
  have revision : after.layoutOf type = graph.layoutOf type := redraft.layoutOf_eq kept
  have events : (after.finalize type).events = (graph.finalize type).events := by
    unfold finalize
    rw [revision, spelling_eq_of_alike redraft.looks]
    cases graph.layoutOf type <;> rfl
  apply doesSame_of_revision kept (graph.layoutOf type) (graph.finalize type).events
  · rw [perform, ← finalize_value_eq_map]
  · rw [perform, ← revision, ← finalize_value_eq_map, ← events]

/-- It makes no difference which of the two operations comes first, neither to the graph at the
end nor to what becomes of either of them. -/
structure Independent (graph : Graph) (one other : Operation) : Prop where
  graph_eq : ((graph.perform one).graph.perform other).graph =
    ((graph.perform other).graph.perform one).graph
  one_result : ((graph.perform other).graph.perform one).result = (graph.perform one).result
  one_events : ((graph.perform other).graph.perform one).events = (graph.perform one).events
  other_result : ((graph.perform one).graph.perform other).result = (graph.perform other).result
  other_events : ((graph.perform one).graph.perform other).events = (graph.perform other).events

/-- Operations on two different records that do the same after each other are independent. -/
theorem independent_of_doesSame {one other : Operation} {first second : Handle}
    (different : first ≠ second) (same : DoesSame one first graph (graph.perform other).graph)
    (same' : DoesSame other second graph (graph.perform one).graph) :
    graph.Independent one other := by
  obtain ⟨node, done, later⟩ := same.exchange
  obtain ⟨node', done', later'⟩ := same'.exchange
  have graphs : ((graph.perform one).graph.perform other).graph =
      ((graph.perform other).graph.perform one).graph :=
    calc ((graph.perform one).graph.perform other).graph
      _ = (graph.replace first node).replace second node' := by rw [later', done]
      _ = (graph.replace second node').replace first node := graph.replace_comm different _ _
      _ = ((graph.perform other).graph.perform one).graph := by rw [later, done']
  exact ⟨graphs, same.result, same.events, same'.result, same'.events⟩

/-- After additions to other records an operation does the same to the record that it names. -/
theorem Redraft.doesSame {operation : Operation} (redraft : Redraft graph after)
    (named : operation.subject? = some type) (kept : after.node type = graph.node type) :
    DoesSame operation type graph after := by
  cases operation with
  | addMember record name? memberType location =>
    obtain rfl : record = type := Option.some.inj named
    exact addMember_doesSame redraft.looks kept name? memberType location
  | finalize record =>
    obtain rfl : record = type := Option.some.inj named
    exact finalize_doesSame redraft kept
  | internVoid | internBasic | internPointer | makeEnumeration | makeFunction | makeArray
  | makeRecord => cases named

/-- An addition to a record is independent of every operation that names another one. -/
theorem addMember_independent (graph : Graph) {operation : Operation} {first second : Handle}
    (different : first ≠ second) (named : operation.subject? = some second)
    (name? : Option String) (memberType : Handle) (location : Location) :
    graph.Independent (.addMember first name? memberType location) operation := by
  obtain ⟨node, done, redrafted⟩ := graph.perform_addMember_redrafts first name? memberType location
  obtain ⟨node', done', alike⟩ := graph.perform_subject_alike named
  apply independent_of_doesSame different
  -- The addition reads its own record, and of the other one no more than its look.
  · rw [done']
    have kept : (graph.replace second node').node first = graph.node first :=
      node_replace_other graph node' different
    exact addMember_doesSame (graph.replace_related .same alike) kept name? memberType location
  -- The operation may read the layouts of other records, but not the members of a draft.
  · rw [done]
    have kept : (graph.replace first node).node second = graph.node second :=
      node_replace_other graph node different.symm
    have redraft : Redraft graph (graph.replace first node) :=
      ⟨rfl, graph.replace_related .same redrafted⟩
    exact redraft.doesSame named kept

/-- An addition can be put off until after any number of operations that name other records. The
graph at the end is the same, and neither the addition nor any of the operations notices. -/
theorem addMember_postponed (graph : Graph) (type : Handle) (name? : Option String)
    (memberType : Handle) (location : Location) {operations : List Operation}
    (apart : ∀ operation ∈ operations, ∃ other, type ≠ other ∧ operation.subject? = some other) :
    (graph.perform (.addMember type name? memberType location)).graph.after operations =
        ((graph.after operations).perform (.addMember type name? memberType location)).graph ∧
      ((graph.after operations).perform (.addMember type name? memberType location)).result =
        (graph.perform (.addMember type name? memberType location)).result ∧
      ((graph.perform (.addMember type name? memberType location)).graph.performAll
          operations).map Outcome.result =
        (graph.performAll operations).map Outcome.result := by
  induction operations generalizing graph with
  | nil => exact ⟨rfl, rfl, rfl⟩
  | cons operation rest inductionHypothesis =>
    obtain ⟨⟨other, different, named⟩, apartRest⟩ := List.forall_mem_cons.mp apart
    have independent := graph.addMember_independent different named name? memberType location
    obtain ⟨graphs, result, results⟩ :=
      inductionHypothesis (graph.perform operation).graph apartRest
    refine ⟨?_, ?_, ?_⟩
    · rw [after_cons, independent.graph_eq, graphs, after_cons]
    · rw [after_cons, result, independent.one_result]
    · simp only [performAll, List.map_cons, independent.other_result, independent.graph_eq, results]

/-- In any graph, an addition to a record is independent of finalizing another record and of an
addition to another record, whatever the two are made of and whether or not they are records
under construction. -/
theorem additions_independent (graph : Graph) {first second : Handle} (different : first ≠ second)
    (name? : Option String) (memberType : Handle) (location : Location) :
    graph.Independent (.addMember first name? memberType location) (.finalize second) ∧
      ∀ name?' memberType' location',
        graph.Independent (.addMember first name? memberType location)
          (.addMember second name?' memberType' location') := by
  have independent := fun {operation : Operation} (named : operation.subject? = some second) =>
    graph.addMember_independent different named name? memberType location
  exact ⟨independent rfl, fun _ _ _ => independent rfl⟩

end Graph

/-- The outermost struct holds the second one, and both are under construction. A member can be
added to the second one before or after the outermost one is finalized, which is refused both
times because the second one is still being built. And the innermost struct can be finalized
before or after a member is added to the second one, which holds it. -/
theorem draftNested_additions_independent :
    draftNestedGraph.Independent (.addMember ⟨3⟩ (some "late") ⟨5⟩ default) (.finalize ⟨4⟩) ∧
      draftNestedRecord.members[1]? = some ⟨none, ⟨3⟩, none⟩ ∧
      ((draftNestedGraph.perform (.addMember ⟨3⟩ (some "late") ⟨5⟩ default)).graph.perform
          (.finalize ⟨4⟩)).result = .error (.internal (.stillBuilding "struct <#3>")) ∧
      draftNestedGraph.Independent (.addMember ⟨3⟩ (some "late") ⟨5⟩ default) (.finalize ⟨2⟩) ∧
      ((draftNestedGraph.perform (.addMember ⟨3⟩ (some "late") ⟨5⟩ default)).graph.perform
          (.finalize ⟨2⟩)).result = .ok none := by
  have outer := (draftNestedGraph.additions_independent (by decide : (⟨3⟩ : Handle) ≠ ⟨4⟩)
    (some "late") ⟨5⟩ default).1
  have inner := (draftNestedGraph.additions_independent (by decide : (⟨3⟩ : Handle) ≠ ⟨2⟩)
    (some "late") ⟨5⟩ default).1
  refine ⟨outer, rfl, ?_, inner, ?_⟩
  · rw [outer.other_result]
    decide +kernel
  · rw [inner.other_result]
    decide +kernel

/-- It has to be another record. The innermost struct takes a member before it is finalized, and
not afterwards. -/
example : ¬ draftNestedGraph.Independent (.addMember ⟨2⟩ (some "late") ⟨0⟩ default)
    (.finalize ⟨2⟩) := by
  intro independent
  exact absurd independent.one_result (by decide +kernel)

end CTypeGraph
