import CTypeGraph.Proofs.Declarations
import CTypeGraph.Proofs.Faults
import CTypeGraph.Proofs.Stability

/-!
# Log lines are events

A line of the log stands for something that has happened to the graph, and for one thing only.
At the level of traces it says that a basic type or a pointer was asked for and found. At the
level of debugging it says that a record was laid out or that a comparison was given up. No line
is missing, and none is written for an attempt that fails.

The line for a layout is written from the layout before it is stored, so that the numbers in it
have to be compared with those that the record has afterwards. `Performed` tells, for each thing
that an operation can do, its result, the graph and the lines side by side, and everything else
on operations is read off it.

Lines can then be counted against nodes. A request for a basic type or a pointer leaves one line
or one node, and a layout leaves one line and turns one record into a finalized one. Questions
leave the graph alone. Both sums are kept by a single call, and so by a run of any length, in
which operations and questions come in any order. Questions other than the two that `Call` has
are answered by a value alone, which has no room for a line.
-/

namespace CTypeGraph

/-- Whether it is worth a line to find the node instead of making it. -/
def Node.isTraced : Node → Bool
  | .basic _ | .pointer _ => true
  | .void | .enumeration | .function _ | .record _ | .array .. => false

/-- What is logged when the node is found. -/
def Node.finding? (node : Node) (found : Handle) : Option Event :=
  match node with
  | .basic type => some (.basicFound type.kind found)
  | .pointer pointee => some (.pointerFound pointee found)
  | .void | .enumeration | .function _ | .record _ | .array .. => none

/-- Whether the operation asks for a basic type or a pointer. -/
def Operation.asksTraced : Operation → Bool
  | .internBasic _ | .internPointer _ => true
  | .internVoid | .makeEnumeration | .makeFunction _ | .makeArray .. | .makeRecord _
  | .addMember .. | .finalize _ => false

/-- The number of lines of one level. -/
def linesAt (level : Level) (events : List Event) : Nat :=
  events.countP (·.level == level)

/-- Nothing logged is no line. -/
@[simp]
theorem linesAt_nil (level : Level) : linesAt level [] = 0 := rfl

/-- The lines of two stretches add up. -/
theorem linesAt_append (level : Level) (early late : List Event) :
    linesAt level (early ++ late) = linesAt level early + linesAt level late :=
  List.countP_append

/-- The first entry of a list counts as one or as none. -/
theorem countP_cons_eq_add {α : Type} (test : α → Bool) (head : α) (tail : List α) :
    (head :: tail).countP test = (test head).toNat + tail.countP test := by
  rw [List.countP_cons, Nat.add_comm]
  cases test head <;> rfl

/-- There is exactly one line, of this level, on the occasion, and otherwise there is none. -/
def LogsWhen (occasion : Prop) (level : Level) (events : List Event) : Prop :=
  (occasion → events.map Event.level = [level]) ∧ (¬ occasion → events = [])

/-- What is logged about finding a node is one line at the level of traces or nothing. -/
theorem Node.levels_finding? (node : Node) (found : Handle) :
    (node.finding? found).toList.map Event.level = if node.isTraced then [.trace] else [] := by
  cases node <;> rfl

/-- Finding a node adds a trace when the node is traced, and never a line at debug. -/
theorem Node.linesAt_finding? (node : Node) (found : Handle) :
    linesAt .trace (node.finding? found).toList = node.isTraced.toNat ∧
      linesAt .debug (node.finding? found).toList = 0 := by
  cases node <;> exact ⟨rfl, rfl⟩

/-- A node that an operation asks for is worth a line when the operation is, and no record. -/
theorem Operation.asksTraced_of_asked? {operation : Operation} {node : Node}
    (asked : operation.asked? = some node) :
    operation.asksTraced = node.isTraced ∧ node.isFinalized = false := by
  cases operation <;> cases asked <;> exact ⟨rfl, rfl⟩

/-- A node that is made anew every time is not worth a line, and a record is made without a
layout. -/
theorem Operation.untraced_of_made? {operation : Operation} {node : Node}
    (made : operation.made? = some node) :
    operation.asksTraced = false ∧ node.isTraced = false ∧ node.isFinalized = false := by
  cases operation <;> cases made <;> exact ⟨rfl, rfl, rfl⟩

/-- An operation on a record asks for nothing. -/
theorem Operation.untraced_of_subject? {operation : Operation} {type : Handle}
    (names : operation.subject? = some type) : operation.asksTraced = false := by
  cases operation <;> cases names <;> rfl

/-- What can be asked of a graph that may leave a line: an operation, or one of two questions. -/
inductive Call where
  | perform (operation : Operation)
  | compatibleRecords (left right : Handle) (location : Location)
  | isAssignable (target source : Handle) (location : Location)
  deriving DecidableEq, Repr

/-- Whether the call asks for a basic type or a pointer. -/
def Call.asksTraced : Call → Bool
  | .perform operation => operation.asksTraced
  | .compatibleRecords .. | .isAssignable .. => false

/-- A question was answered or given up. The graph stays what it was. -/
def Outcome.ofAnswer (graph : Graph) (answer : Logged (Except Fault Bool)) : Outcome :=
  ⟨answer.value.map fun _ => none, graph, answer.events⟩

/-- Whether a question was given up for a feature that is not handled. -/
def Outcome.isUndecided (outcome : Outcome) : Bool :=
  match outcome.result with
  | .ok _ => false
  | .error fault => fault.isUnimplemented

namespace Graph

variable {graph : Graph} {operation : Operation} {outcome : Outcome} {node : Node}
  {handle type : Handle}

/-! ## Counting nodes -/

/-- The number of nodes that pass a test. -/
def tally (graph : Graph) (test : Node → Bool) : Nat :=
  graph.nodes.countP test

/-- An empty graph has no node to count. -/
@[simp]
theorem tally_empty (model : DataModel) (test : Node → Bool) : (empty model).tally test = 0 :=
  Array.countP_empty

/-- A node that is enrolled counts once more. -/
theorem tally_enroll (graph : Graph) (node : Node) (test : Node → Bool) :
    (graph.enroll node).tally test = graph.tally test + (test node).toNat := by
  have nodes : (graph.enroll node).nodes = graph.nodes.push node := nodes_enroll graph node
  rw [tally, nodes, Array.countP_push, tally]
  cases test node <;> rfl

/-- A node that is exchanged counts as what it has become and no more as what it was. -/
theorem tally_replace (present : handle.index < graph.size) (node : Node) (test : Node → Bool) :
    (graph.replace handle node).tally test + (test (graph.node handle)).toNat =
      graph.tally test + (test node).toNat := by
  have inside : handle.index < graph.nodes.size := present
  have there : graph.node handle = graph.nodes[handle.index] := by
    simp [Graph.node, Array.getD_eq_getD_getElem?, inside]
  have exchanged :
      (graph.replace handle node).nodes = graph.nodes.set handle.index node inside := by
    rw [replace, Array.setIfInBounds_def, dif_pos inside]
  -- The count goes down before it goes up, so the old node has to be among those counted.
  have counted : (if test (graph.node handle) then 1 else 0) ≤ graph.nodes.countP test := by
    rw [there]
    exact Array.boole_getElem_le_countP inside
  rw [tally, exchanged, Array.countP_set, ← there, tally]
  cases was : test (graph.node handle) with
  | false => cases test node <;> rfl
  | true =>
    rw [was, if_pos rfl] at counted
    have before : graph.nodes.countP test - 1 + 1 = graph.nodes.countP test :=
      Nat.sub_add_cancel counted
    cases test node with
    | false => exact before
    | true => exact congrArg (· + 1) before

/-! ## One operation -/

/-- What one operation can do to the graph and to the log, with the result it gives. -/
inductive Performed (graph : Graph) : Operation → Outcome → Prop
  /-- A shared node was there, which is logged for some. -/
  | found {operation : Operation} {node : Node} {handle : Handle}
      (asked : operation.asked? = some node) (recorded : graph.recorded? node = some handle) :
      Performed graph operation ⟨.ok (some handle), graph, (node.finding? handle).toList⟩
  /-- A shared node was not there and was put at the end. -/
  | enrolled {operation : Operation} {node : Node} (asked : operation.asked? = some node)
      (absent : graph.recorded? node = none) :
      Performed graph operation ⟨.ok (some ⟨graph.size⟩), graph.enroll node, []⟩
  /-- A node that is never shared was put at the end. -/
  | made {operation : Operation} {node : Node} (made : operation.made? = some node) :
      Performed graph operation ⟨.ok (some ⟨graph.size⟩), graph.enroll node, []⟩
  /-- A record without a layout has one member more. -/
  | added {type memberType : Handle} {name? : Option String} {location : Location}
      {contents : Record} (there : graph.node type = .record contents)
      (building : contents.isFinalized = false) :
      Performed graph (.addMember type name? memberType location)
        ⟨.ok none, graph.replace type (.record
          { contents with members := contents.members ++ [⟨name?, memberType, none⟩] }), []⟩
  /-- A record has its layout, and the numbers of this very layout are logged. -/
  | finalized {type : Handle} {settled : Record} (layout : graph.layoutOf type = .ok settled) :
      Performed graph (.finalize type)
        ⟨.ok none, graph.replace type (.record settled),
          [.recordFinalized (graph.spelling type) settled.size settled.align
            settled.members.length settled.exports.length]⟩
  /-- An operation on a record has failed, by the caller's mistake. -/
  | refused {operation : Operation} {type : Handle} {fault : Fault}
      (names : operation.subject? = some type) (blamed : fault.isInternal = true) :
      Performed graph operation ⟨.error fault, graph, []⟩

/-- Asking for a shared node logs what there is to log about finding it. -/
theorem perform_events_of_asked? (asked : operation.asked? = some node) :
    (graph.perform operation).events = ((graph.recorded? node).bind node.finding?).toList := by
  cases operation with
  | internVoid =>
    cases asked
    cases found : graph.recorded? .void <;> rfl
  | internBasic type =>
    cases asked
    simp only [perform, Outcome.ofType, internBasic, recorded?]
    cases graph.basicHandles.lookup type <;> rfl
  | internPointer pointee =>
    cases asked
    simp only [perform, Outcome.ofType, internPointer, recorded?]
    cases graph.pointerHandles.lookup pointee <;> rfl
  | makeEnumeration | makeFunction | makeArray | makeRecord | addMember | finalize => cases asked

/-- Every operation does one of these things. -/
theorem performed (graph : Graph) (operation : Operation) :
    graph.Performed operation (graph.perform operation) := by
  have blamed : ∀ {fault}, (graph.perform operation).result = .error fault →
      fault.isInternal = true := fun failed => (perform_faults operation _ failed).1
  have asks : ∀ {node}, operation.asked? = some node →
      graph.Performed operation (graph.perform operation) := by
    intro node asked
    have logged := graph.perform_events_of_asked? asked
    cases done : graph.perform operation with | mk result after events =>
    cases recorded : graph.recorded? node with
    | some handle =>
      obtain ⟨given, same⟩ := perform_asked_found asked recorded
      simp only [done, recorded] at given same logged
      subst given same logged
      exact .found asked recorded
    | none =>
      obtain ⟨given, grown⟩ := perform_asked_absent asked recorded
      simp only [done, recorded] at given grown logged
      subst given grown logged
      exact .enrolled asked recorded
  have makes : ∀ node, operation.made? = some node → graph.Performed operation
      ⟨.ok (some ⟨graph.size⟩), graph.enroll node, []⟩ := fun _ => .made
  cases operation with
  | internVoid | internBasic | internPointer => exact asks rfl
  | makeEnumeration => exact makes .enumeration rfl
  | makeFunction signature => exact makes (.function signature) rfl
  | makeArray element count => exact makes (.array element count) rfl
  | makeRecord isUnion => exact makes (.record (.fresh isUnion)) rfl
  | addMember type name? memberType location =>
    simp only [perform, Outcome.ofChange, Logged.silent] at blamed ⊢
    cases answered : graph.addMember type name? memberType location with
    | ok after =>
      obtain ⟨contents, there, building, rfl⟩ := addMember_eq_ok_iff.mp answered
      exact .added there building
    | error fault =>
      rw [answered] at blamed
      exact .refused rfl (blamed rfl)
  | finalize type =>
    simp only [perform, Outcome.ofChange, finalize] at blamed ⊢
    cases layout : graph.layoutOf type with
    | ok settled => exact .finalized layout
    | error fault =>
      rw [layout] at blamed
      exact .refused rfl (blamed rfl)

/-! ## Lines against nodes -/

/-- Between two graphs, lines and nodes have come together as they were asked for: for each
request a trace or a node, and for each line at debug a layout or a question given up. -/
structure Balanced (graph after : Graph) (events : List Event) (requests givenUp : Nat) : Prop where
  traces : linesAt .trace events + after.tally Node.isTraced =
    graph.tally Node.isTraced + requests
  debugs : linesAt .debug events + graph.tally Node.isFinalized =
    after.tally Node.isFinalized + givenUp

namespace Balanced

variable {middle after : Graph} {early late : List Event} {requests others givenUp rest : Nat}

/-- Where nothing happens, the balance is kept by no line and no request. -/
theorem refl (graph : Graph) : graph.Balanced graph [] 0 0 :=
  ⟨Nat.zero_add _, Nat.zero_add _⟩

/-- One balance after the other is a balance. -/
theorem trans (first : graph.Balanced middle early requests givenUp)
    (second : middle.Balanced after late others rest) :
    graph.Balanced after (early ++ late) (requests + others) (givenUp + rest) where
  traces := by
    have before := first.traces
    have behind := second.traces
    rw [linesAt_append]
    omega
  debugs := by
    have before := first.debugs
    have behind := second.debugs
    rw [linesAt_append]
    omega

/-- A node without a layout is put at the end on request, without a line. -/
theorem enroll (graph : Graph) (unfinished : node.isFinalized = false) :
    graph.Balanced (graph.enroll node) [] node.isTraced.toNat 0 where
  traces := by rw [tally_enroll, linesAt_nil, Nat.zero_add]
  debugs := by
    rw [tally_enroll, unfinished, linesAt_nil, Nat.zero_add]
    rfl

/-- A record is exchanged for another one, with as many lines as there are layouts more. -/
theorem exchange {draft contents : Record} (there : graph.node type = .record draft)
    (quiet : linesAt .trace early = 0)
    (told : linesAt .debug early + draft.isFinalized.toNat = contents.isFinalized.toNat) :
    graph.Balanced (graph.replace type (.record contents)) early 0 0 := by
  have changed := tally_replace (present_of_record there) (.record contents)
  constructor
  case traces =>
    have untraced := changed Node.isTraced
    rw [there] at untraced
    rw [quiet, Nat.zero_add]
    exact untraced
  case debugs =>
    have finished := changed Node.isFinalized
    rw [there, Node.isFinalized, Node.isFinalized] at finished
    omega

end Balanced

/-- A request for a basic type or a pointer leaves a line or a node, and a layout leaves a line
and a record that is finalized. -/
theorem Performed.balanced (performed : graph.Performed operation outcome) :
    graph.Balanced outcome.graph outcome.events operation.asksTraced.toNat 0 := by
  cases performed with
  | @found _ node handle asked recorded =>
    obtain ⟨traced, silent⟩ := node.linesAt_finding? handle
    constructor
    case traces => rw [(Operation.asksTraced_of_asked? asked).1, traced, Nat.add_comm]
    case debugs => rw [silent, Nat.zero_add, Nat.add_zero]
  | enrolled asked absent =>
    obtain ⟨requested, unfinished⟩ := Operation.asksTraced_of_asked? asked
    rw [requested]
    exact .enroll graph unfinished
  | made made =>
    obtain ⟨unasked, untraced, unfinished⟩ := Operation.untraced_of_made? made
    rw [unasked, ← untraced]
    exact .enroll graph unfinished
  | added there building => exact .exchange there rfl (Nat.zero_add _)
  | finalized layout =>
    -- The one line at debug pays for the record, which was still being built.
    obtain ⟨draft, stop, there, _, building, settles⟩ := layoutOf_eq_ok_iff_settles.mp layout
    refine .exchange there rfl ?_
    rw [building, settles.isFinalized]
    rfl
  | refused names blamed =>
    rw [Operation.untraced_of_subject? names]
    exact .refl graph

/-- An operation is never left undecided. -/
theorem Performed.isUndecided (performed : graph.Performed operation outcome) :
    outcome.isUndecided = false := by
  cases performed with
  | found | enrolled | made | added | finalized => rfl
  | @refused _ _ fault names blamed =>
    cases fault with
    | internal breach => rfl
    | unimplemented feature location => cases blamed

/-! ## Comparisons that are given up -/

/-- A question about records is answered without a line, or it is given up with one line. -/
inductive Judged : Logged (Except Fault Bool) → Prop
  | decided (verdict : Bool) : Judged (.silent (.ok verdict))
  | undecided (left right : String) (location : Location) :
      Judged ⟨.error (.unimplemented (.recordCompatibility left right) location),
        [.compatibilityUndecided left right location]⟩

/-- Records are decided when one of the types is none or both are one; all others are given up, with
their spellings in the line. -/
theorem compatibleRecords_judged (graph : Graph) (left right : Handle) (location : Location) :
    Judged (graph.compatibleRecords left right location) := by
  unfold compatibleRecords
  split
  case isTrue => exact .decided false
  case isFalse =>
    split
    case isTrue => exact .decided true
    case isFalse => exact .undecided _ _ location

/-- Two scalars are decided at once, and all other types are judged as records. -/
theorem isAssignable_judged (graph : Graph) (target source : Handle) (location : Location) :
    Judged (graph.isAssignable target source location) := by
  unfold isAssignable
  split
  case isTrue => exact .decided true
  case isFalse => exact graph.compatibleRecords_judged target source location

variable {answer : Logged (Except Fault Bool)}

/-- The line is there exactly when the question is given up. -/
theorem Judged.logsWhen (judged : Judged answer) :
    LogsWhen (∃ feature location, answer.value = .error (.unimplemented feature location))
      .debug answer.events := by
  cases judged with
  | decided verdict =>
    refine ⟨?_, fun _ => rfl⟩
    rintro ⟨feature, location, ⟨⟩⟩
  | undecided left right location =>
    exact ⟨fun _ => rfl, fun answered => absurd ⟨_, _, rfl⟩ answered⟩

/-- What is given up is logged, and the graph stays what it is. -/
theorem Judged.balanced (judged : Judged answer) (graph : Graph) :
    graph.Balanced graph answer.events 0 (Outcome.ofAnswer graph answer).isUndecided.toNat := by
  cases judged with
  | decided verdict => exact .refl graph
  | undecided left right location => exact ⟨Nat.zero_add _, Nat.add_comm _ _⟩

/-! ## One call after the other -/

/-- Make a call. -/
def call (graph : Graph) : Call → Outcome
  | .perform operation => graph.perform operation
  | .compatibleRecords left right location =>
    .ofAnswer graph (graph.compatibleRecords left right location)
  | .isAssignable target source location =>
    .ofAnswer graph (graph.isAssignable target source location)

/-- The outcomes of a list of calls, each made of what the one before left. -/
def callAll (graph : Graph) : List Call → List Outcome
  | [] => []
  | call :: rest => graph.call call :: (graph.call call).graph.callAll rest

/-- The graph that a list of calls leaves. -/
def afterCalls (graph : Graph) (calls : List Call) : Graph :=
  calls.foldl (fun current call => (current.call call).graph) graph

/-- The lines that a list of calls leaves, in order. -/
def log (graph : Graph) (calls : List Call) : List Event :=
  (graph.callAll calls).flatMap (·.events)

/-- One call keeps the balance. -/
theorem call_balanced (graph : Graph) (call : Call) :
    graph.Balanced (graph.call call).graph (graph.call call).events call.asksTraced.toNat
      (graph.call call).isUndecided.toNat := by
  cases call with
  | perform operation =>
    have performed := graph.performed operation
    have decided : (graph.call (.perform operation)).isUndecided = false := performed.isUndecided
    rw [decided]
    exact performed.balanced
  | compatibleRecords left right location =>
    exact (graph.compatibleRecords_judged left right location).balanced graph
  | isAssignable target source location =>
    exact (graph.isAssignable_judged target source location).balanced graph

/-- So does a run of any length. -/
theorem run_balanced (graph : Graph) (calls : List Call) :
    graph.Balanced (graph.afterCalls calls) (graph.log calls) (calls.countP Call.asksTraced)
      ((graph.callAll calls).countP Outcome.isUndecided) := by
  induction calls generalizing graph with
  | nil => exact .refl graph
  | cons call rest inductionHypothesis =>
    have first := graph.call_balanced call
    rw [countP_cons_eq_add, callAll, countP_cons_eq_add]
    exact first.trans (inductionHypothesis (graph.call call).graph)

/-! ## What each call logs -/

/-- A request for a basic type or a pointer is logged exactly when the handle is an old one, and
the line names the type and the handle. It is the handle of the next node otherwise, and then
there is one node more. -/
theorem Canonical.request_logged (canonical : graph.Canonical)
    (requested : operation.asksTraced = true) :
    ∃ handle, (graph.perform operation).result = .ok (some handle) ∧
      LogsWhen (handle.index < graph.size) .trace (graph.perform operation).events ∧
      (handle.index < graph.size → (graph.perform operation).graph = graph ∧
        (graph.perform operation).events = ((graph.node handle).finding? handle).toList) ∧
      (¬ handle.index < graph.size → handle.index = graph.size ∧
        (graph.perform operation).graph.size = graph.size + 1) := by
  have performed := graph.performed operation
  generalize graph.perform operation = outcome at performed ⊢
  cases performed with
  | @found _ node handle asked recorded =>
    obtain ⟨_, present, there⟩ := canonical.recorded?_eq_some_iff.mp recorded
    have traced : node.isTraced = true :=
      (Operation.asksTraced_of_asked? asked).1.symm.trans requested
    refine ⟨handle, rfl, ⟨fun _ => ?_, absurd present⟩, fun _ => ⟨rfl, ?_⟩, absurd present⟩
    · rw [node.levels_finding? handle, if_pos traced]
    · rw [there]
  | @enrolled _ node asked absent =>
    have last : ¬ graph.size < graph.size := Nat.lt_irrefl _
    exact ⟨⟨graph.size⟩, rfl, ⟨fun old => absurd old last, fun _ => rfl⟩,
      fun old => absurd old last, fun _ => ⟨rfl, size_enroll graph node⟩⟩
  | made made => cases requested.symm.trans (Operation.untraced_of_made? made).1
  | added | finalized => cases requested
  | refused names => cases requested.symm.trans (Operation.untraced_of_subject? names)

/-- Finalizing a record is logged exactly when it succeeds. -/
theorem finalize_logged (graph : Graph) (type : Handle) :
    LogsWhen ((graph.perform (.finalize type)).result.isOk = true) .debug
      (graph.perform (.finalize type)).events := by
  have performed := graph.performed (.finalize type)
  generalize graph.perform (.finalize type) = outcome at performed ⊢
  cases performed with
  | found asked | enrolled asked => cases asked
  | made made => cases made
  | finalized layout => exact ⟨fun _ => rfl, fun failed => absurd rfl failed⟩
  | refused => exact ⟨fun succeeded => Bool.noConfusion succeeded, fun _ => rfl⟩

/-- The line about a layout has the name and the numbers that the record is left with. -/
theorem Reachable.finalize_event (reachable : graph.Reachable)
    (succeeded : (graph.perform (.finalize type)).result.isOk = true) :
    ∃ contents, (graph.perform (.finalize type)).graph.node type = .record contents ∧
      contents.isFinalized = true ∧ (graph.perform (.finalize type)).events =
        [.recordFinalized ((graph.perform (.finalize type)).graph.spelling type)
          contents.size contents.align contents.members.length contents.exports.length] := by
  have performed := graph.performed (.finalize type)
  have history : type.index < graph.size → Evolves graph (graph.perform (.finalize type)).graph :=
    fun present => .step .refl fun _ mentioned => List.mem_singleton.mp mentioned ▸ present
  generalize graph.perform (.finalize type) = outcome at performed history succeeded ⊢
  cases performed with
  | found asked | enrolled asked => cases asked
  | made made => cases made
  | refused => cases succeeded
  | @finalized _ settled layout =>
    obtain ⟨draft, stop, there, _, _, settles⟩ := layoutOf_eq_ok_iff_settles.mp layout
    have present : type.index < graph.size := present_of_record there
    have named := (history present).spelling_eq reachable.ordered present
    refine ⟨settled, node_replace_same graph _ present, settles.isFinalized, ?_⟩
    rw [named]

/-- All other operations are silent. -/
theorem perform_silent (unasked : operation.asksTraced = false)
    (other : ∀ type, operation ≠ .finalize type) : (graph.perform operation).events = [] := by
  have performed := graph.performed operation
  generalize graph.perform operation = outcome at performed ⊢
  cases performed with
  | @found _ node handle asked recorded =>
    have untraced : node.isTraced = false :=
      (Operation.asksTraced_of_asked? asked).1.symm.trans unasked
    have levels := node.levels_finding? handle
    rw [untraced] at levels
    exact List.map_eq_nil_iff.mp levels
  | enrolled | made | added | refused => rfl
  | finalized => exact absurd rfl (other _)

/-- What is logged corresponds to what happens, one to one. In a reachable graph a request for a
basic type or a pointer leaves one line when the handle is an old one, which tells the type and
the handle, and then nothing else has changed; otherwise it leaves none, and then there is one
node more. Finalizing a record leaves one line exactly when it succeeds, with the numbers that
the record has afterwards, and no other operation leaves a line. A question about two records
leaves one exactly when it is given up. So in a run of any length, from an empty graph on, the
requests that left no line at the level of traces are as many as there are basic types and
pointers, and the lines at the level of debugging are as many as there are finalized records and
questions that were given up. -/
theorem Reachable.log_exact (reachable : graph.Reachable) :
    (∀ operation : Operation, operation.asksTraced = true →
        ∃ handle, (graph.perform operation).result = .ok (some handle) ∧
          LogsWhen (handle.index < graph.size) .trace (graph.perform operation).events ∧
          (handle.index < graph.size → (graph.perform operation).graph = graph ∧
            (graph.perform operation).events = ((graph.node handle).finding? handle).toList) ∧
          (¬ handle.index < graph.size → handle.index = graph.size ∧
            (graph.perform operation).graph.size = graph.size + 1)) ∧
      (∀ type, LogsWhen ((graph.perform (.finalize type)).result.isOk = true) .debug
          (graph.perform (.finalize type)).events) ∧
      (∀ type, (graph.perform (.finalize type)).result.isOk = true →
        ∃ contents, (graph.perform (.finalize type)).graph.node type = .record contents ∧
          contents.isFinalized = true ∧ (graph.perform (.finalize type)).events =
            [.recordFinalized ((graph.perform (.finalize type)).graph.spelling type)
              contents.size contents.align contents.members.length contents.exports.length]) ∧
      (∀ operation : Operation, operation.asksTraced = false →
        (∀ type, operation ≠ .finalize type) → (graph.perform operation).events = []) ∧
      (∀ left right location,
        LogsWhen (∃ feature place, (graph.compatibleRecords left right location).value =
            .error (.unimplemented feature place)) .debug
          (graph.compatibleRecords left right location).events ∧
        LogsWhen (∃ feature place, (graph.isAssignable left right location).value =
            .error (.unimplemented feature place)) .debug
          (graph.isAssignable left right location).events) ∧
      ∀ model calls,
        linesAt .trace ((empty model).log calls) +
            ((empty model).afterCalls calls).tally Node.isTraced =
          calls.countP Call.asksTraced ∧
        linesAt .debug ((empty model).log calls) =
          ((empty model).afterCalls calls).tally Node.isFinalized +
            ((empty model).callAll calls).countP Outcome.isUndecided := by
  refine ⟨fun operation => reachable.canonical.request_logged, graph.finalize_logged,
    fun type => reachable.finalize_event, fun operation => perform_silent,
    fun left right location => ⟨?compared, ?assigned⟩, fun model calls => ?run⟩
  case compared => exact (graph.compatibleRecords_judged left right location).logsWhen
  case assigned => exact (graph.isAssignable_judged left right location).logsWhen
  case run =>
    obtain ⟨traces, debugs⟩ := (empty model).run_balanced calls
    rw [tally_empty] at traces debugs
    exact ⟨traces.trans (Nat.zero_add _), debugs⟩

end Graph

/-- An integer, the pointer to it, and two structs, of which one has two members and is still
being built and the other has none and is laid out. -/
def halfLaidOutHistory : List Operation :=
  [.internBasic ⟨.int, true⟩, .internPointer ⟨0⟩, .makeRecord false, .makeRecord false,
    .addMember ⟨2⟩ (some "count") ⟨0⟩ default, .addMember ⟨2⟩ (some "link") ⟨1⟩ default,
    .finalize ⟨3⟩]

/-- The graph that the history leaves. -/
def halfLaidOutGraph : Graph :=
  (Graph.empty .lp64).after halfLaidOutHistory

/-- The whole history, and then the basic type and the pointer again, both structs finalized, and
a comparison that is given up and one that is not. -/
def repetitiveCalls : List Call :=
  halfLaidOutHistory.map .perform ++ [.perform (.internBasic ⟨.int, true⟩),
    .perform (.internPointer ⟨0⟩), .perform (.finalize ⟨2⟩), .perform (.finalize ⟨3⟩),
    .isAssignable ⟨2⟩ ⟨3⟩ ⟨7, 3⟩, .compatibleRecords ⟨2⟩ ⟨2⟩ ⟨7, 3⟩]

/-- The pointer is there and is logged, and another basic type is made in silence. The first
struct is laid out with a line, and the second, which has its layout, is refused without one. In
the whole run four requests have led to two nodes and two lines, and two layouts and a question
to three lines. -/
theorem halfLaidOut_log_exact :
    halfLaidOutGraph.Reachable ∧
      (halfLaidOutGraph.perform (.internPointer ⟨0⟩)).events.map Event.level = [.trace] ∧
      (halfLaidOutGraph.perform (.internBasic ⟨.long, true⟩)).events = [] ∧
      (halfLaidOutGraph.perform (.finalize ⟨2⟩)).events =
        [.recordFinalized "struct <#2>" 16 8 2 2] ∧
      (halfLaidOutGraph.perform (.finalize ⟨3⟩)).events = [] ∧
      (halfLaidOutGraph.perform .internVoid).events = [] ∧
      (halfLaidOutGraph.isAssignable ⟨2⟩ ⟨3⟩ ⟨7, 3⟩).events.map Event.level = [.debug] ∧
      (halfLaidOutGraph.compatibleRecords ⟨2⟩ ⟨2⟩ ⟨7, 3⟩).events = [] ∧
      linesAt .trace ((Graph.empty .lp64).log repetitiveCalls) + 2 = 4 ∧
      linesAt .debug ((Graph.empty .lp64).log repetitiveCalls) = 2 + 1 := by
  have reachable : halfLaidOutGraph.Reachable := ⟨.lp64, Graph.evolves_after (by decide +kernel)⟩
  obtain ⟨requests, layouts, settled, others, questions, runs⟩ := reachable.log_exact
  obtain ⟨pointer, given, pointerLogged, _⟩ := requests (.internPointer ⟨0⟩) rfl
  obtain ⟨long, made, longLogged, _⟩ := requests (.internBasic ⟨.long, true⟩) rfl
  have pointerResult : (halfLaidOutGraph.perform (.internPointer ⟨0⟩)).result =
      .ok (some ⟨1⟩) := by decide +kernel
  have longResult : (halfLaidOutGraph.perform (.internBasic ⟨.long, true⟩)).result =
      .ok (some ⟨4⟩) := by decide +kernel
  have size : halfLaidOutGraph.size = 4 := by decide +kernel
  obtain rfl : pointer = ⟨1⟩ := by simpa [pointerResult] using given.symm
  obtain rfl : long = ⟨4⟩ := by simpa [longResult] using made.symm
  refine ⟨reachable, pointerLogged.1 (by rw [size]; decide), longLogged.2 (by rw [size]; decide),
    ?line, (layouts ⟨3⟩).2 (by decide +kernel),
    others .internVoid rfl fun _ => Operation.noConfusion, ?givenUp, ?answered, ?traces, ?debugs⟩
  case line =>
    obtain ⟨contents, there, _, written⟩ := settled ⟨2⟩ (by decide +kernel)
    have node : (halfLaidOutGraph.perform (.finalize ⟨2⟩)).graph.node ⟨2⟩ = .record
        { isUnion := false, incomplete := false, stage := .finalized, size := 16, align := 8,
          members := [⟨some "count", ⟨0⟩, some 0⟩, ⟨some "link", ⟨1⟩, some 8⟩],
          exports := [⟨some "count", ⟨0⟩, some 0⟩, ⟨some "link", ⟨1⟩, some 8⟩] } := by
      decide +kernel
    have name : (halfLaidOutGraph.perform (.finalize ⟨2⟩)).graph.spelling ⟨2⟩ =
        "struct <#2>" := by decide +kernel
    obtain rfl := Node.record.inj (there.symm.trans node)
    rw [written, name]
    rfl
  case givenUp =>
    have undecided : (halfLaidOutGraph.isAssignable ⟨2⟩ ⟨3⟩ ⟨7, 3⟩).value =
        .error (.unimplemented (.recordCompatibility "struct <#2>" "struct <#3>") ⟨7, 3⟩) := by
      decide +kernel
    exact (questions ⟨2⟩ ⟨3⟩ ⟨7, 3⟩).2.1 ⟨_, _, undecided⟩
  case answered =>
    have decided : (halfLaidOutGraph.compatibleRecords ⟨2⟩ ⟨2⟩ ⟨7, 3⟩).value = .ok true := by
      decide +kernel
    apply (questions ⟨2⟩ ⟨2⟩ ⟨7, 3⟩).1.2
    rintro ⟨feature, place, undecided⟩
    rw [decided] at undecided
    cases undecided
  case traces =>
    obtain ⟨traces, _⟩ := runs .lp64 repetitiveCalls
    have nodes : ((Graph.empty .lp64).afterCalls repetitiveCalls).tally Node.isTraced = 2 := by
      decide +kernel
    rw [← nodes, traces]
    rfl
  case debugs =>
    obtain ⟨_, debugs⟩ := runs .lp64 repetitiveCalls
    have records : ((Graph.empty .lp64).afterCalls repetitiveCalls).tally Node.isFinalized = 2 := by
      decide +kernel
    have undecided :
        ((Graph.empty .lp64).callAll repetitiveCalls).countP Outcome.isUndecided = 1 := by
      decide +kernel
    rw [debugs, records, undecided]

/-- The log of the whole run. -/
example :
    ((Graph.empty .lp64).log repetitiveCalls).map Event.line =
      ["DEBUG finalized struct <#3>: size 0, align 1, 0 members, 0 exports",
        "TRACE interned int hit: #0",
        "TRACE interned pointer to #0 hit: #1",
        "DEBUG finalized struct <#2>: size 16, align 8, 2 members, 2 exports",
        "DEBUG compatible_struct(struct <#2>, struct <#3>) at 7:3 is not implemented"] := by
  decide +kernel

end CTypeGraph
