import CTypeGraph.Proofs.ExactLayout

/-!
# Refused operations leave no trace

An operation either gives a graph or a fault, and with a fault the graph is what it was. Put
like this there is nothing to prove, but it says nothing about a layout that is written where
the record stands, member by member and number by number, and that may have to be given up at
any of several points. `Edit` is such a way of working: it changes the graph as it goes, and
what has been written by the time of a fault stays written. `Operation.edit` does every
operation in this way, and `performInPlace_eq` says that nothing half-finished is ever left,
because all that can go wrong has been asked before the first number is written.

So an operation that is refused can be left out of a list of operations, and all such
operations can be, without a difference to the graph in the end, to the handles and to the
results of the others.
-/

namespace CTypeGraph

/-- A change made where the graph stands, which collects events on the way. The graph and the
events are kept as they are when a fault ends the change. -/
abbrev Edit (α : Type) : Type :=
  EStateM Fault (Logged Graph) α

namespace Edit

variable {α β : Type} {graph : Graph} {events : List Event} {type : Handle} {contents : Record}

/-- Ask the graph as it stands. If there is no answer, the change ends. -/
def ask (question : Graph → Except Fault α) : Edit α := fun current =>
  match question current.value with
  | .ok answer => .ok answer current
  | .error fault => .error fault current

/-- Find a type, or make it. -/
def make (making : Graph → Logged (Handle × Graph)) : Edit (Option Handle) := fun current =>
  let made := making current.value
  .ok (some made.value.1) ⟨made.value.2, current.events ++ made.events⟩

/-- Leave a log line. -/
def report (event : Event) : Edit Unit :=
  modify fun current => { current with events := current.events ++ [event] }

/-- Write to a record. -/
def write (type : Handle) (change : Record → Record) : Edit Unit := do
  let contents ← ask (·.record type)
  modify fun current =>
    { current with value := current.value.replace type (.record (change contents)) }

/-- Write the offsets of the members, one after the other, from this position on. -/
def writeOffsets (type : Handle) (position : Nat) : List (Option ByteCount) → Edit Unit
  | [] => pure ()
  | offset? :: rest => do
    write type fun contents => { contents with
      members := contents.members.modify position fun member => { member with offset? := offset? } }
    writeOffsets type (position + 1) rest

/-- Put a member at the end of a record that is being built. -/
def addMember (type : Handle) (name? : Option String) (memberType : Handle) (location : Location) :
    Edit Unit := do
  let contents ← ask (·.record type)
  if contents.isFinalized then throw (.internal (.memberAfterFinalize type location.line))
  write type fun contents =>
    { contents with members := contents.members ++ [⟨name?, memberType, none⟩] }

/-- Write down a layout, one thing after the other. -/
def commit (type : Handle) (placed exports : List Member) (align size : ByteCount) : Edit Unit := do
  writeOffsets type 0 (placed.map (·.offset?))
  write type fun contents => { contents with exports := exports }
  write type fun contents => { contents with align := align }
  write type fun contents => { contents with size := size }
  write type fun contents => { contents with incomplete := false }
  write type fun contents => { contents with stage := .finalized }

/-- Lay out a record: measure and place its members, collect its fields, round its size, and
then write down what was found. -/
def finalize (type : Handle) : Edit Unit := do
  let draft ← ask (·.record type)
  if draft.isUnion then
    ask fun graph => .error (.internal (.unionLayout (graph.spelling type)))
  if draft.isFinalized then
    ask fun graph => .error (.internal (.finalizedTwice (graph.spelling type)))
  let align ← ask (·.widestAlign type (max draft.align 1) draft.members)
  let (placed, stop) ← ask (·.placeMembers type 0 draft.members)
  let exports ← ask fun graph => .ok (placed.flatMap graph.fieldsOf)
  let size ← ask fun graph => graph.fitting type (stop.roundUp? align)
  let spelling ← ask fun graph => .ok (graph.spelling type)
  report (.recordFinalized spelling size align placed.length exports.length)
  commit type placed exports align size

/-! ## What an edit comes to -/

/-- An edit that asks goes on with the answer, or ends with the fault and with everything as
it stands. -/
theorem run_ask_bind (question : Graph → Except Fault α) (next : α → Edit β)
    (current : Logged Graph) :
    (ask question >>= next).run current =
      match question current.value with
      | .ok answer => (next answer).run current
      | .error fault => .error fault current := by
  rw [EStateM.run_bind]
  unfold EStateM.run ask
  cases question current.value <;> rfl

/-- A record that was written to is written to once more. -/
theorem run_write (present : type.index < graph.size) (change : Record → Record) :
    (write type change).run ⟨graph.replace type (.record contents), events⟩ =
      .ok () ⟨graph.replace type (.record (change contents)), events⟩ := by
  have there : (graph.replace type (.record contents)).record type = .ok contents :=
    Graph.record_eq_ok_iff.mpr (graph.node_replace_same _ present)
  simp only [write, run_ask_bind, there, EStateM.run_modify, Graph.replace_replace]

/-- The same in front of what is still to do. -/
theorem run_write_bind (present : type.index < graph.size) (change : Record → Record)
    (next : Unit → Edit β) :
    (write type change >>= next).run ⟨graph.replace type (.record contents), events⟩ =
      (next ()).run ⟨graph.replace type (.record (change contents)), events⟩ := by
  rw [EStateM.run_bind, run_write present]

/-- A list is changed behind its first part. -/
theorem modify_length_append {α : Type} (done : List α) (head : α) (rest : List α)
    (change : α → α) :
    (done ++ head :: rest).modify done.length change = done ++ change head :: rest := by
  induction done with
  | nil => simp
  | cons first done inductionHypothesis => simp [inductionHypothesis]

/-- Writing offsets gives one to each of the members from a position on. By induction on the
offsets, where the members that have theirs are put aside. -/
theorem run_writeOffsets (present : type.index < graph.size) {offsets : List (Option ByteCount)}
    (done todo : List Member) (each : todo.length = offsets.length) :
    (writeOffsets type done.length offsets).run
        ⟨graph.replace type (.record { contents with members := done ++ todo }), events⟩ =
      .ok () ⟨graph.replace type (.record { contents with
        members := done ++ List.zipWith (fun member offset? => { member with offset? := offset? })
          todo offsets }), events⟩ := by
  induction offsets generalizing done todo with
  | nil =>
    obtain rfl := List.length_eq_zero_iff.mp each
    rfl
  | cons offset? rest inductionHypothesis =>
    cases todo with
    | nil => cases each
    | cons member todo =>
      have tail := inductionHypothesis (done ++ [{ member with offset? := offset? }]) todo
        (Nat.succ.inj each)
      rw [List.length_append, List.append_assoc, List.append_assoc] at tail
      rw [writeOffsets, run_write_bind present, modify_length_append]
      exact tail

/-- Members that differ in their offsets only are the same with the same offsets. -/
theorem zipWith_offsets_eq {members placed : List Member}
    (declared : placed.map (fun member => (member.name?, member.type)) =
      members.map (fun member => (member.name?, member.type))) :
    List.zipWith (fun member offset? => { member with offset? := offset? }) members
      (placed.map (·.offset?)) = placed := by
  induction placed generalizing members with
  | nil => simp
  | cons first placed inductionHypothesis =>
    cases members with
    | nil => cases declared
    | cons member members =>
      simp only [List.map_cons, List.cons.injEq, Prod.mk.injEq] at declared
      obtain ⟨⟨name, type⟩, others⟩ := declared
      rw [List.map_cons, List.zipWith_cons_cons, inductionHypothesis others, ← name, ← type]

/-- Writing down a layout puts it in place of the draft. -/
theorem run_commit (there : graph.node type = .record contents) {placed exports : List Member}
    {align size : ByteCount}
    (declared : placed.map (fun member => (member.name?, member.type)) =
      contents.members.map (fun member => (member.name?, member.type))) :
    (commit type placed exports align size).run ⟨graph, events⟩ =
      .ok () ⟨graph.replace type (.record { contents with
        incomplete := false
        stage := .finalized
        members := placed
        exports := exports
        size := size
        align := align }), events⟩ := by
  have present : type.index < graph.size := Graph.present_of_record there
  have start : graph.replace type (.record contents) = graph := by
    rw [← there, Graph.replace_node_self]
  have each : contents.members.length = (placed.map (·.offset?)).length := by
    simpa using (congrArg List.length declared).symm
  have offsets : (writeOffsets type 0 (placed.map (·.offset?))).run ⟨graph, events⟩ =
      .ok () ⟨graph.replace type (.record { contents with members := placed }), events⟩ := by
    have written : (writeOffsets type 0 (placed.map (·.offset?))).run
        ⟨graph.replace type (.record contents), events⟩ = _ :=
      run_writeOffsets present [] contents.members each
    rw [start, List.nil_append, zipWith_offsets_eq declared] at written
    exact written
  rw [commit, EStateM.run_bind, offsets]
  simp only [run_write_bind present, run_write present]

/-- Finalizing in place has the layout in place of the draft, or leaves everything as it was. -/
theorem run_finalize (graph : Graph) (type : Handle) :
    (finalize type).run (.silent graph) =
      match graph.layoutOf type with
      | .ok settled => .ok () ⟨graph.replace type (.record settled),
          [.recordFinalized (graph.spelling type) settled.size settled.align
            settled.members.length settled.exports.length]⟩
      | .error fault => .error fault (.silent graph) := by
  unfold finalize Graph.layoutOf Graph.laidOut
  -- The edit and the layout ask the same in the same order, so a fault ends both at once.
  rcases found : graph.record type with fault | draft
  · simp only [run_ask_bind, Logged.silent, found, error_bind]
  simp only [run_ask_bind, Logged.silent, found, ok_bind]
  cases struct : draft.isUnion with
  | true => simp only [if_true, run_ask_bind]
  | false =>
    cases draft.isFinalized with
    | true => simp only [Bool.false_eq_true, if_false, if_true, run_ask_bind]
    | false =>
      simp only [Bool.false_eq_true, if_false, run_ask_bind]
      rcases graph.widestAlign type (max draft.align 1) draft.members with fault | align
      · simp only [error_bind]
      simp only [ok_bind]
      rcases places : graph.placeMembers type 0 draft.members with fault | ⟨placed, stop⟩
      · simp only [error_bind]
      simp only [ok_bind]
      rcases graph.fitting type (stop.roundUp? align) with fault | size
      · simp only [error_bind]
      have declared := (Graph.placeMembers_eq_ok_iff.mp places).declared
      simp only [ok_bind, EStateM.run_bind, report, EStateM.run_modify, List.nil_append]
      rw [run_commit (Graph.record_eq_ok_iff.mp found) declared, struct]

/-- Declaring a member in place has the member at its end, or leaves everything as it was. -/
theorem run_addMember (graph : Graph) (type : Handle) (name? : Option String) (memberType : Handle)
    (location : Location) :
    (addMember type name? memberType location).run (.silent graph) =
      match graph.addMember type name? memberType location with
      | .ok after => .ok () (.silent after)
      | .error fault => .error fault (.silent graph) := by
  unfold addMember Graph.addMember
  rcases found : graph.record type with fault | contents
  · simp only [run_ask_bind, Logged.silent, found, error_bind]
  simp only [run_ask_bind, Logged.silent, found, ok_bind]
  cases contents.isFinalized with
  | true => simp only [if_true, EStateM.run_bind, EStateM.run_throw]
  | false =>
    simp only [Bool.false_eq_true, if_false, write, run_ask_bind, found, EStateM.run_modify]

end Edit

/-- The operation done in place. -/
def Operation.edit : Operation → Edit (Option Handle)
  | .internVoid => .make fun graph => .silent graph.internVoid
  | .internBasic type => .make (·.internBasic type)
  | .internPointer pointee => .make (·.internPointer pointee)
  | .makeEnumeration => .make fun graph => .silent graph.makeEnumeration
  | .makeFunction signature => .make fun graph => .silent (graph.makeFunction signature)
  | .makeArray element count => .make fun graph => .silent (graph.makeArray element count)
  | .makeRecord isUnion => .make fun graph => .silent (graph.makeRecord isUnion)
  | .addMember record name? type location => do
    Edit.addMember record name? type location
    pure none
  | .finalize record => do
    Edit.finalize record
    pure none

/-- What became of an edit, with the graph and the events as it leaves them. -/
def Outcome.ofEdit : EStateM.Result Fault (Logged Graph) (Option Handle) → Outcome
  | .ok made current => ⟨.ok made, current.value, current.events⟩
  | .error fault current => ⟨.error fault, current.value, current.events⟩

namespace Graph

variable {graph : Graph}

/-- Perform one operation in place. -/
def performInPlace (graph : Graph) (operation : Operation) : Outcome :=
  .ofEdit (operation.edit.run (.silent graph))

/-- An operation done in place has the result, the graph and the events that it is said to
have, whether it succeeds or not. -/
theorem performInPlace_eq (graph : Graph) (operation : Operation) :
    graph.performInPlace operation = graph.perform operation := by
  cases operation with
  | internVoid | internBasic | internPointer | makeEnumeration | makeFunction | makeArray
  | makeRecord => rfl
  | addMember record name? type location =>
    simp only [performInPlace, Operation.edit, EStateM.run_bind, Edit.run_addMember, perform]
    cases graph.addMember record name? type location <;> rfl
  | finalize record =>
    simp only [performInPlace, Operation.edit, EStateM.run_bind, Edit.run_finalize, perform,
      Graph.finalize]
    cases graph.layoutOf record <;> rfl

/-- Perform the operations of a list in place, each on what the one before left there. -/
def performAllInPlace (graph : Graph) : List Operation → List Outcome
  | [] => []
  | operation :: rest =>
    let outcome := graph.performInPlace operation
    outcome :: outcome.graph.performAllInPlace rest

/-- A list of operations done in place has the outcomes that it is said to have. -/
theorem performAllInPlace_eq (graph : Graph) (operations : List Operation) :
    graph.performAllInPlace operations = graph.performAll operations := by
  induction operations generalizing graph with
  | nil => rfl
  | cons operation rest inductionHypothesis =>
    simp only [performAllInPlace, performAll, performInPlace_eq, inductionHypothesis]

/-! ## Leaving out what was refused -/

/-- A refused operation leaves the graph as it was, and nothing in the log. -/
theorem perform_of_error {operation : Operation} {fault : Fault}
    (refused : (graph.perform operation).result = .error fault) :
    graph.perform operation = ⟨.error fault, graph, []⟩ := by
  cases operation with
  | internVoid | internBasic | internPointer | makeEnumeration | makeFunction | makeArray
  | makeRecord => cases refused
  | addMember record name? type location =>
    simp only [perform, Outcome.ofChange, Logged.silent] at refused ⊢
    cases added : graph.addMember record name? type location with
    | ok after => simp [added] at refused
    | error breach => simpa [added] using refused
  | finalize record =>
    simp only [perform, Outcome.ofChange, Graph.finalize] at refused ⊢
    cases layout : graph.layoutOf record with
    | ok contents => simp [layout] at refused
    | error breach => simpa [layout, Logged.silent] using refused

/-- Operations are performed on what the operations before them left. -/
theorem performAll_append (early late : List Operation) :
    graph.performAll (early ++ late) =
      graph.performAll early ++ (graph.after early).performAll late := by
  induction early generalizing graph with
  | nil => rfl
  | cons operation early inductionHypothesis =>
    simp only [List.cons_append, performAll, after_cons, inductionHypothesis]

/-- What a list of operations leaves is where the operations after it begin. -/
theorem after_append (early late : List Operation) :
    graph.after (early ++ late) = (graph.after early).after late :=
  List.foldl_append

/-- The operations of a list that succeed when the list is performed. -/
def accepted (graph : Graph) (operations : List Operation) : List Operation :=
  ((operations.zip (graph.performAll operations)).filter fun performed =>
    performed.2.result.isOk).map (·.1)

/-- An operation that succeeds is accepted in front of what is accepted after it. -/
theorem accepted_cons_of_ok {operation : Operation} {made : Option Handle}
    (succeeded : (graph.perform operation).result = .ok made) (rest : List Operation) :
    graph.accepted (operation :: rest) =
      operation :: (graph.perform operation).graph.accepted rest := by
  simp [accepted, performAll, succeeded, Except.isOk, Except.toBool]

/-- After an operation that is refused the same is accepted as without it. -/
theorem accepted_cons_of_error {operation : Operation} {fault : Fault}
    (refused : (graph.perform operation).result = .error fault) (rest : List Operation) :
    graph.accepted (operation :: rest) = graph.accepted rest := by
  simp [accepted, performAll, refused, perform_graph_of_error refused, Except.isOk, Except.toBool]

/-- Without the refused operations the others have the outcomes that they have with them, and
the same graph is left. -/
theorem performAll_accepted (graph : Graph) (operations : List Operation) :
    graph.performAll (graph.accepted operations) =
        (graph.performAll operations).filter (·.result.isOk) ∧
      graph.after (graph.accepted operations) = graph.after operations := by
  induction operations generalizing graph with
  | nil => exact ⟨rfl, rfl⟩
  | cons operation rest inductionHypothesis =>
    cases result : (graph.perform operation).result with
    | ok made =>
      obtain ⟨outcomes, leaves⟩ := inductionHypothesis (graph.perform operation).graph
      have kept : (graph.perform operation).result.isOk = true := by rw [result]; rfl
      rw [accepted_cons_of_ok result, performAll, performAll, List.filter_cons, if_pos kept,
        outcomes, after_cons, after_cons, leaves]
      exact ⟨rfl, rfl⟩
    | error fault =>
      obtain ⟨outcomes, leaves⟩ := inductionHypothesis graph
      have dropped : ¬ (graph.perform operation).result.isOk = true := by
        rw [result]
        exact Bool.false_ne_true
      rw [accepted_cons_of_error result, performAll, List.filter_cons, if_neg dropped, after_cons,
        perform_graph_of_error result]
      exact ⟨outcomes, leaves⟩

/-- Refused operations leave no trace. However far a layout or a member was written in place
before a fault, the graph is what it is without the attempt. So all operations of a list that
are refused can be left out: the outcomes of the others, with their handles, and the graph in
the end are the same. A single one can be left out too, wherever it stands, and what follows
it, be it another attempt on the same record, has the outcomes it has without it. -/
theorem refused_leave_no_trace (graph : Graph) (operations : List Operation) :
    graph.performAllInPlace operations = graph.performAll operations ∧
      graph.performAll (graph.accepted operations) =
        (graph.performAll operations).filter (·.result.isOk) ∧
      graph.after (graph.accepted operations) = graph.after operations ∧
      ∀ early refused late fault, operations = early ++ refused :: late →
        ((graph.after early).perform refused).result = .error fault →
        graph.performAll operations = graph.performAll early ++
          ⟨.error fault, graph.after early, []⟩ :: (graph.after early).performAll late ∧
        graph.performAll (early ++ late) =
          graph.performAll early ++ (graph.after early).performAll late ∧
        graph.after (early ++ late) = graph.after operations := by
  obtain ⟨outcomes, leaves⟩ := performAll_accepted graph operations
  refine ⟨performAllInPlace_eq graph operations, outcomes, leaves, ?_⟩
  rintro early operation late fault rfl refused
  have same : (graph.after early).perform operation = ⟨.error fault, graph.after early, []⟩ :=
    perform_of_error refused
  refine ⟨?_, performAll_append early late, ?_⟩
  · rw [performAll_append, performAll, same]
  · rw [after_append, after_append, after_cons, same]

end Graph

/-- The first attempt on the outermost struct is made before the structs in it are finalized.
It is refused at the second member, when the first one is placed already. Without it the other
twenty-one operations have the same outcomes, the second attempt among them. -/
theorem nestedHistory_without_refused :
    nestedHistory[15]? = some (.finalize ⟨4⟩) ∧
      (((Graph.empty .lp64).after (nestedHistory.take 15)).perform (.finalize ⟨4⟩)).result =
        .error (.internal (.stillBuilding "struct <#3>")) ∧
      (Graph.empty .lp64).performAll (nestedHistory.eraseIdx 15) =
        ((Graph.empty .lp64).performAll nestedHistory).filter (·.result.isOk) ∧
      (Graph.empty .lp64).after (nestedHistory.eraseIdx 15) = nestedGraph := by
  have split : nestedHistory =
      nestedHistory.take 15 ++ .finalize ⟨4⟩ :: nestedHistory.drop 16 := by decide +kernel
  have refused :
      (((Graph.empty .lp64).after (nestedHistory.take 15)).perform (.finalize ⟨4⟩)).result =
        .error (.internal (.stillBuilding "struct <#3>")) := by decide +kernel
  have accepted : (Graph.empty .lp64).accepted nestedHistory = nestedHistory.eraseIdx 15 := by
    decide +kernel
  obtain ⟨_, outcomes, _, alone⟩ := (Graph.empty .lp64).refused_leave_no_trace nestedHistory
  obtain ⟨_, _, leaves⟩ := alone _ _ _ _ split refused
  rw [accepted] at outcomes
  refine ⟨by decide +kernel, refused, outcomes, ?_⟩
  rw [List.eraseIdx_eq_take_drop_succ]
  exact leaves

end CTypeGraph
