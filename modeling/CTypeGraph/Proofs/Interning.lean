import CTypeGraph.Proofs.ExactLayout

/-!
# One handle for each shared type

`void`, the basic types and the pointers are shared: whoever asks for one of them is
given the same handle as everyone before. Three tables beside the nodes see to that.
They have to agree with the nodes in both directions. An entry that was missing would
let a second node be made of the same content, and an entry for another node would hand
out the wrong type.

`Records` reads the three tables as one relation between nodes and handles, and
`Canonical` says that this relation is the inverse of looking up a node. Each operation
leaves tables and nodes as they are, or puts a node that no table has at the end and
into its table, or exchanges a record, and records are in no table. `perform_bookkeeping`
is this case distinction; the invariant is derived from it alone.
-/

namespace CTypeGraph

/-- Whether a graph keeps at most one node of this content. All other types are what
they are by where they are. -/
def Node.isShared : Node → Bool
  | .void | .basic _ | .pointer _ => true
  | .enumeration | .function _ | .record _ | .array .. => false

/-- The shared node that an operation asks for. -/
def Operation.asked? : Operation → Option Node
  | .internVoid => some .void
  | .internBasic type => some (.basic type)
  | .internPointer pointee => some (.pointer pointee)
  | .makeEnumeration | .makeFunction _ | .makeArray .. | .makeRecord _ | .addMember ..
  | .finalize _ => none

/-- The node that an operation makes anew every time. -/
def Operation.made? : Operation → Option Node
  | .makeEnumeration => some .enumeration
  | .makeFunction signature => some (.function signature)
  | .makeArray element count => some (.array element count)
  | .makeRecord isUnion => some (.record (.fresh isUnion))
  | .internVoid | .internBasic _ | .internPointer _ | .addMember .. | .finalize _ => none

/-- What a table finds is one of its entries. -/
theorem mem_of_lookup_eq_some {α β : Type} [BEq α] [LawfulBEq α] {table : List (α × β)} {key : α}
    {value : β} (found : table.lookup key = some value) : (key, value) ∈ table := by
  obtain ⟨before, behind, rfl, _⟩ := List.lookup_eq_some_iff.mp found
  exact List.mem_append_right before List.mem_cons_self

/-- A table that finds nothing has no entry for the key. -/
theorem not_mem_of_lookup_eq_none {α β : Type} [BEq α] [LawfulBEq α] {table : List (α × β)}
    {key : α} (absent : table.lookup key = none) (value : β) : (key, value) ∉ table := by
  intro entered
  have different := List.lookup_eq_none_iff.mp absent (key, value) entered
  simp at different

namespace Graph

variable {graph after : Graph} {node : Node} {handle : Handle}

/-- Where the tables find a node. What is not shared is in no table. -/
def recorded? (graph : Graph) : Node → Option Handle
  | .void => graph.voidHandle?
  | .basic type => graph.basicHandles.lookup type
  | .pointer pointee => graph.pointerHandles.lookup pointee
  | .enumeration | .function _ | .record _ | .array .. => none

/-- The tables have an entry that leads from the node to the handle. -/
def Records (graph : Graph) : Node → Handle → Prop
  | .void, handle => graph.voidHandle? = some handle
  | .basic type, handle => (type, handle) ∈ graph.basicHandles
  | .pointer pointee, handle => (pointee, handle) ∈ graph.pointerHandles
  | .enumeration, _ | .function _, _ | .record _, _ | .array .., _ => False

/-- Put a node at the end and, if it is shared, into the table of its kind. -/
def enroll (graph : Graph) (node : Node) : Graph :=
  let (made, extended) := graph.append node
  match node with
  | .void => { extended with voidHandle? := some made }
  | .basic type => { extended with basicHandles := (type, made) :: extended.basicHandles }
  | .pointer pointee =>
    { extended with pointerHandles := (pointee, made) :: extended.pointerHandles }
  | .enumeration | .function _ | .record _ | .array .. => extended

/-- What the tables find is one of their entries. -/
theorem records_of_recorded? (found : graph.recorded? node = some handle) :
    graph.Records node handle := by
  cases node with
  | void => exact found
  | basic type => exact mem_of_lookup_eq_some found
  | pointer pointee => exact mem_of_lookup_eq_some found
  | enumeration | function | record | array => cases found

/-- Where the tables find nothing they have no entry. -/
theorem not_records_of_recorded? (absent : graph.recorded? node = none) :
    ¬ graph.Records node handle := by
  cases node with
  | void =>
    intro entered
    cases absent.symm.trans entered
  | basic type => exact not_mem_of_lookup_eq_none absent handle
  | pointer pointee => exact not_mem_of_lookup_eq_none absent handle
  | enumeration | function | record | array => exact id

/-- An enrolled node stands where an appended one would. -/
theorem nodes_enroll (graph : Graph) (node : Node) :
    (graph.enroll node).nodes = (graph.append node).2.nodes := by
  cases node <;> rfl

/-- A node that is enrolled makes one node more. -/
@[simp]
theorem size_enroll (graph : Graph) (node : Node) : (graph.enroll node).size = graph.size + 1 := by
  rw [size, nodes_enroll]
  exact size_append graph node

/-- Enrolling a node changes nothing about the nodes before it. -/
theorem node_enroll_old (node : Node) (present : handle.index < graph.size) :
    (graph.enroll node).node handle = graph.node handle := by
  have appended : (graph.append node).2.node handle = graph.node handle :=
    node_append_old graph node present
  simpa only [Graph.node, nodes_enroll] using appended

/-- The handle of an enrolled node denotes that node. -/
theorem node_enroll_new (graph : Graph) (node : Node) :
    (graph.enroll node).node ⟨graph.size⟩ = node := by
  have appended : (graph.append node).2.node ⟨graph.size⟩ = node := node_append_new graph node
  simpa only [Graph.node, nodes_enroll] using appended

/-- The handles after a node has been enrolled are those before it and one more. -/
theorem present_enroll_iff :
    handle.index < (graph.enroll node).size ↔
      handle.index < graph.size ∨ handle = ⟨graph.size⟩ := by
  rw [size_enroll, Nat.lt_succ_iff_lt_or_eq]
  exact or_congr_right ⟨congrArg Handle.mk, congrArg Handle.index⟩

/-- Enrolling a node that the tables do not have adds its entry, if it is shared, and no
other. -/
theorem records_enroll (absent : graph.recorded? node = none) {other : Node} :
    (graph.enroll node).Records other handle ↔
      graph.Records other handle ∨
        (node.isShared = true ∧ other = node ∧ handle = ⟨graph.size⟩) := by
  cases node with
  | void =>
    have vacant : graph.voidHandle? = none := absent
    cases other <;> simp [enroll, append, Records, Node.isShared, vacant, eq_comm]
  | basic type =>
    cases other <;> simp [enroll, append, Records, Node.isShared, or_comm]
  | pointer pointee =>
    cases other <;> simp [enroll, append, Records, Node.isShared, or_comm]
  | enumeration | function | record | array =>
    cases other <;> simp [enroll, append, Records, Node.isShared]

/-! ## What operations do to the tables -/

/-- Asking for a shared node that the tables find gives what they find. -/
theorem perform_asked_found {operation : Operation} (asked : operation.asked? = some node)
    (found : graph.recorded? node = some handle) :
    (graph.perform operation).result = .ok (some handle) ∧
      (graph.perform operation).graph = graph := by
  cases operation with
  | internVoid =>
    cases asked
    simp only [recorded?] at found
    simp [perform, Outcome.ofType, Logged.silent, internVoid, found]
  | internBasic type =>
    cases asked
    simp only [recorded?] at found
    simp [perform, Outcome.ofType, internBasic, found]
  | internPointer pointee =>
    cases asked
    simp only [recorded?] at found
    simp [perform, Outcome.ofType, internPointer, found]
  | makeEnumeration | makeFunction | makeArray | makeRecord | addMember | finalize => cases asked

/-- Asking for a shared node that the tables do not find enrolls it. -/
theorem perform_asked_absent {operation : Operation} (asked : operation.asked? = some node)
    (absent : graph.recorded? node = none) :
    (graph.perform operation).result = .ok (some ⟨graph.size⟩) ∧
      (graph.perform operation).graph = graph.enroll node := by
  cases operation with
  | internVoid =>
    cases asked
    simp only [recorded?] at absent
    simp [perform, Outcome.ofType, Logged.silent, internVoid, absent, enroll, append]
  | internBasic type =>
    cases asked
    simp only [recorded?] at absent
    simp [perform, Outcome.ofType, Logged.silent, internBasic, absent, enroll, append]
  | internPointer pointee =>
    cases asked
    simp only [recorded?] at absent
    simp [perform, Outcome.ofType, Logged.silent, internPointer, absent, enroll, append]
  | makeEnumeration | makeFunction | makeArray | makeRecord | addMember | finalize => cases asked

/-- Making a node anew enrolls it without a look at the tables, which do not have it. -/
theorem perform_made {operation : Operation} (made : operation.made? = some node) :
    graph.recorded? node = none ∧
      (graph.perform operation).result = .ok (some ⟨graph.size⟩) ∧
      (graph.perform operation).graph = graph.enroll node := by
  cases operation with
  | makeEnumeration | makeFunction | makeArray | makeRecord =>
    cases made
    exact ⟨rfl, rfl, rfl⟩
  | internVoid | internBasic | internPointer | addMember | finalize => cases made

/-- An operation that asks for a node or makes one leaves the graph as it is or enrolls the
node, which the tables do not have then. -/
theorem perform_enrolls {operation : Operation}
    (wanted : operation.asked? = some node ∨ operation.made? = some node) :
    (graph.perform operation).graph = graph ∨
      graph.recorded? node = none ∧ (graph.perform operation).graph = graph.enroll node := by
  rcases wanted with asked | made
  · cases found : graph.recorded? node with
    | some handle => exact Or.inl (perform_asked_found asked found).2
    | none => exact Or.inr ⟨rfl, (perform_asked_absent asked found).2⟩
  · obtain ⟨absent, _, done⟩ := perform_made made
    exact Or.inr ⟨absent, done⟩

/-- What one operation can do to tables and nodes together. -/
inductive Bookkeeping (graph : Graph) : Graph → Prop
  | unchanged : Bookkeeping graph graph
  | enrolled {node : Node} (absent : graph.recorded? node = none) :
      Bookkeeping graph (graph.enroll node)
  | exchanged {target : Handle} {draft contents : Record}
      (there : graph.node target = .record draft) :
      Bookkeeping graph (graph.replace target (.record contents))

/-- Every operation does one of these. -/
theorem perform_bookkeeping (graph : Graph) (operation : Operation) :
    Bookkeeping graph (graph.perform operation).graph := by
  have enrolls : ∀ {node}, operation.asked? = some node ∨ operation.made? = some node →
      Bookkeeping graph (graph.perform operation).graph := by
    intro node wanted
    rcases perform_enrolls wanted with same | ⟨absent, done⟩
    · rw [same]
      exact .unchanged
    · rw [done]
      exact .enrolled absent
  cases operation with
  | internVoid | internBasic | internPointer => exact enrolls (Or.inl rfl)
  | makeEnumeration | makeFunction | makeArray | makeRecord => exact enrolls (Or.inr rfl)
  | addMember record name? type location =>
    rcases perform_addMember_cases graph record name? type location with
      ⟨contents, there, _, done⟩ | same
    · rw [done]
      exact .exchanged there
    · rw [same]
      exact .unchanged
  | finalize record =>
    rcases graph.perform_finalize_cases record with ⟨settled, layout, done⟩ | same
    · obtain ⟨draft, there, _⟩ := layoutOf_eq_ok_iff.mp layout
      rw [done]
      exact .exchanged there
    · rw [same]
      exact .unchanged

/-! ## Tables and nodes agree -/

/-- The tables are the inverse of looking up shared nodes, and no shared node is there
twice. -/
structure Canonical (graph : Graph) : Prop where
  records_iff : ∀ {node handle}, graph.Records node handle ↔
    node.isShared = true ∧ handle.index < graph.size ∧ graph.node handle = node
  unique : ∀ {one other : Handle}, one.index < graph.size → other.index < graph.size →
    (graph.node one).isShared = true → graph.node one = graph.node other → one = other

namespace Canonical

/-- The tables find a shared node where it is. -/
theorem recorded?_eq_some_iff (canonical : graph.Canonical) :
    graph.recorded? node = some handle ↔
      node.isShared = true ∧ handle.index < graph.size ∧ graph.node handle = node := by
  constructor
  · intro found
    exact canonical.records_iff.mp (records_of_recorded? found)
  · rintro ⟨shared, present, there⟩
    have entered : graph.Records node handle := canonical.records_iff.mpr ⟨shared, present, there⟩
    cases found : graph.recorded? node with
    | none => exact absurd entered (not_records_of_recorded? found)
    | some other =>
      obtain ⟨_, presentOther, thereOther⟩ := canonical.records_iff.mp (records_of_recorded? found)
      rw [Option.some.injEq]
      exact canonical.unique presentOther present (thereOther.symm ▸ shared)
        (thereOther.trans there.symm)

/-- The agreement is kept when a node is enrolled that was not there. -/
theorem enroll (canonical : graph.Canonical) (absent : graph.recorded? node = none) :
    (graph.enroll node).Canonical where
  records_iff := by
    intro other handle
    rw [records_enroll absent, canonical.records_iff, present_enroll_iff]
    constructor
    · rintro (⟨shared, present, there⟩ | ⟨shared, rfl, rfl⟩)
      · exact ⟨shared, Or.inl present, (node_enroll_old node present).trans there⟩
      · exact ⟨shared, Or.inr rfl, node_enroll_new graph other⟩
    · rintro ⟨shared, present | rfl, there⟩
      · rw [node_enroll_old node present] at there
        exact Or.inl ⟨shared, present, there⟩
      · rw [node_enroll_new] at there
        exact Or.inr ⟨there ▸ shared, there.symm, rfl⟩
  unique := by
    -- A shared node that was there is in the tables, so it is not the new one.
    have apart : ∀ {old : Handle}, old.index < graph.size → (graph.node old).isShared = true →
        graph.node old ≠ node := by
      intro old present shared same
      exact not_records_of_recorded? absent
        (canonical.records_iff.mpr ⟨same ▸ shared, present, same⟩)
    intro one other presentOne presentOther shared alike
    rcases present_enroll_iff.mp presentOne with oldOne | rfl
    · rw [node_enroll_old node oldOne] at shared alike
      rcases present_enroll_iff.mp presentOther with oldOther | rfl
      · rw [node_enroll_old node oldOther] at alike
        exact canonical.unique oldOne oldOther shared alike
      · rw [node_enroll_new] at alike
        exact absurd alike (apart oldOne shared)
    · rcases present_enroll_iff.mp presentOther with oldOther | rfl
      · rw [node_enroll_new] at shared alike
        rw [node_enroll_old node oldOther] at alike
        exact absurd alike.symm (apart oldOther (alike ▸ shared))
      · rfl

/-- The agreement is kept when a record is exchanged for a record. -/
theorem replace (canonical : graph.Canonical) {target : Handle} {draft contents : Record}
    (there : graph.node target = .record draft) :
    (graph.replace target (.record contents)).Canonical := by
  have exchanged : (graph.replace target (.record contents)).node target = .record contents :=
    node_replace_same graph _ (present_of_record there)
  have tables : ∀ node handle,
      (graph.replace target (.record contents)).Records node handle ↔
        graph.Records node handle := by
    intro node handle
    cases node <;> rfl
  constructor
  · intro node handle
    rw [tables, canonical.records_iff, size_replace]
    by_cases same : handle = target
    · subst same
      rw [there, exchanged]
      constructor
      · rintro ⟨shared, _, rfl⟩
        cases shared
      · rintro ⟨shared, _, rfl⟩
        cases shared
    · rw [node_replace_other graph _ same]
  · intro one other presentOne presentOther shared alike
    rw [size_replace] at presentOne presentOther
    have notOne : one ≠ target := by
      rintro rfl
      rw [exchanged] at shared
      cases shared
    have notOther : other ≠ target := by
      rintro rfl
      rw [alike, exchanged] at shared
      cases shared
    rw [node_replace_other graph _ notOne] at shared alike
    rw [node_replace_other graph _ notOther] at alike
    exact canonical.unique presentOne presentOther shared alike

/-- The agreement is kept by every operation. -/
theorem preserved (canonical : graph.Canonical) (step : Bookkeeping graph after) :
    after.Canonical := by
  cases step with
  | unchanged => exact canonical
  | enrolled absent => exact canonical.enroll absent
  | exchanged there => exact canonical.replace there

end Canonical

/-- In an empty graph there is nothing to agree on. -/
theorem empty_canonical (model : DataModel) : (empty model).Canonical where
  records_iff := by
    intro node handle
    constructor
    · intro entered
      cases node <;> simp [Records, empty] at entered
    · rintro ⟨_, present, _⟩
      exact absurd present (Nat.not_lt_zero _)
  unique := fun present => absurd present (Nat.not_lt_zero _)

/-- In every reachable graph the tables agree with the nodes. -/
theorem Reachable.canonical (reachable : graph.Reachable) : graph.Canonical := by
  obtain ⟨model, history⟩ := reachable
  induction history with
  | refl => exact empty_canonical model
  | step _ _ inductionHypothesis => exact inductionHypothesis.preserved (perform_bookkeeping _ _)

/-- Once it is recorded, a shared node is recorded at the same place for ever. -/
theorem Reachable.recorded?_stable (reachable : graph.Reachable) (history : Evolves graph after)
    (found : graph.recorded? node = some handle) : after.recorded? node = some handle := by
  have later : after.Reachable := reachable.evolved history
  obtain ⟨shared, present, there⟩ := reachable.canonical.recorded?_eq_some_iff.mp found
  have fixed : (graph.node handle).isSettled = true := by
    rw [there]
    cases node with
    | void | basic | pointer => rfl
    | enumeration | function | record | array => cases shared
  have extension : graph.Extends after := history.extension
  exact later.canonical.recorded?_eq_some_iff.mpr ⟨shared,
    Nat.lt_of_lt_of_le present extension.size_le, (extension.settled present fixed).trans there⟩

/-- Asking for a shared node leaves it recorded under the handle that was given. -/
theorem Reachable.perform_asked (reachable : graph.Reachable) {operation : Operation}
    (fits : operation.Fits graph) (asked : operation.asked? = some node) :
    ∃ handle, (graph.perform operation).result = .ok (some handle) ∧
      (graph.perform operation).graph.recorded? node = some handle := by
  cases found : graph.recorded? node with
  | some handle =>
    obtain ⟨given, same⟩ := perform_asked_found asked found
    exact ⟨handle, given, by rw [same, found]⟩
  | none =>
    obtain ⟨given, done⟩ := perform_asked_absent asked found
    refine ⟨⟨graph.size⟩, given, ?_⟩
    have shared : node.isShared = true := by
      cases operation <;> cases asked <;> rfl
    rw [done, (reachable.canonical.enroll found).recorded?_eq_some_iff, present_enroll_iff]
    exact ⟨shared, Or.inr rfl, node_enroll_new graph node⟩

/-- In every reachable graph the three tables are the inverse of looking up nodes, so that
two handles of shared nodes are equal when their nodes are. Asking for a shared node
answers with its one handle, and when it is asked for again, at any later time, the answer
is the same and nothing changes. Making any other type always answers with the handle at
the end. That handles of 32 bits can name no more than 2 ^ 32 nodes is not assumed here: a
program is stopped by the request that would exceed the limit, and the statement is about its
graphs up to there. -/
theorem Reachable.interning_canonical (reachable : graph.Reachable) :
    (∀ handle, graph.voidHandle? = some handle ↔
        handle.index < graph.size ∧ graph.node handle = .void) ∧
      (∀ type handle, (type, handle) ∈ graph.basicHandles ↔ graph.node handle = .basic type) ∧
      (∀ pointee handle, (pointee, handle) ∈ graph.pointerHandles ↔
        graph.node handle = .pointer pointee) ∧
      (∀ one other : Handle, one.index < graph.size → other.index < graph.size →
        (graph.node one).isShared = true → (graph.node other).isShared = true →
        (graph.node one = graph.node other ↔ one = other)) ∧
      (∀ operation node, operation.asked? = some node → operation.Fits graph →
        ∃ handle, (graph.perform operation).result = .ok (some handle) ∧
          (graph.perform operation).graph.node handle = node ∧
          ∀ later, Evolves (graph.perform operation).graph later →
            (later.perform operation).result = .ok (some handle) ∧
              (later.perform operation).graph = later) ∧
      ∀ operation node, operation.made? = some node →
        (graph.perform operation).result = .ok (some ⟨graph.size⟩) ∧
          (graph.perform operation).graph.size = graph.size + 1 ∧
          (graph.perform operation).graph.node ⟨graph.size⟩ = node := by
  have canonical : graph.Canonical := reachable.canonical
  have solid : ∀ {node handle}, node ≠ .void → graph.node handle = node →
      handle.index < graph.size := by
    intro node handle different there
    exact present_of_node (there.symm ▸ different)
  refine ⟨fun handle => ?void, fun type handle => ?basic, fun pointee handle => ?pointer,
    fun one other presentOne presentOther shared _ => ?unique,
    fun operation node asked fits => ?asked, fun operation node made => ?made⟩
  case void =>
    have known : graph.Records .void handle ↔ _ := canonical.records_iff
    exact known.trans ⟨And.right, fun there => ⟨rfl, there⟩⟩
  case basic =>
    have known : graph.Records (.basic type) handle ↔ _ := canonical.records_iff
    refine known.trans ⟨fun entry => entry.2.2, fun there => ?_⟩
    exact ⟨rfl, solid Node.noConfusion there, there⟩
  case pointer =>
    have known : graph.Records (.pointer pointee) handle ↔ _ := canonical.records_iff
    refine known.trans ⟨fun entry => entry.2.2, fun there => ?_⟩
    exact ⟨rfl, solid Node.noConfusion there, there⟩
  case unique =>
    exact ⟨canonical.unique presentOne presentOther shared, congrArg graph.node⟩
  case asked =>
    obtain ⟨handle, given, recorded⟩ := reachable.perform_asked fits asked
    have reached : (graph.perform operation).graph.Reachable :=
      reachable.evolved (.step .refl fits)
    refine ⟨handle, given, (reached.canonical.recorded?_eq_some_iff.mp recorded).2.2, ?_⟩
    intro later history
    exact perform_asked_found asked (reached.recorded?_stable history recorded)
  case made =>
    obtain ⟨_, given, done⟩ := perform_made made
    rw [done]
    exact ⟨given, size_enroll graph node, node_enroll_new graph node⟩

end Graph

/-- The nested record, with a pointer to its innermost struct asked for, and then a union
made that holds the pointer, `void` asked for, and the union finalized in vain. -/
def crowdedGraph : Graph :=
  (nestedGraph.perform (.internPointer ⟨2⟩)).graph.after
    [.makeRecord true, .internVoid, .addMember ⟨10⟩ (some "link") ⟨9⟩ default, .finalize ⟨10⟩]

/-- The pointer is new when it is first asked for and is found again after all that, while
an enumeration is made at the end. -/
theorem crowded_interning_canonical :
    nestedGraph.Reachable ∧ (Operation.internPointer ⟨2⟩).asked? = some (.pointer ⟨2⟩) ∧
      (Operation.internPointer ⟨2⟩).Fits nestedGraph ∧
      Graph.Evolves (nestedGraph.perform (.internPointer ⟨2⟩)).graph crowdedGraph ∧
      (nestedGraph.perform (.internPointer ⟨2⟩)).result = .ok (some ⟨9⟩) ∧
      (crowdedGraph.perform (.internPointer ⟨2⟩)).result = .ok (some ⟨9⟩) ∧
      (crowdedGraph.perform (.internPointer ⟨2⟩)).graph = crowdedGraph ∧
      (nestedGraph.perform .makeEnumeration).result = .ok (some ⟨9⟩) ∧
      ((⟨⟨.int, true⟩, ⟨1⟩⟩ : BasicType × Handle) ∈ nestedGraph.basicHandles ↔
        nestedGraph.node ⟨1⟩ = .basic ⟨.int, true⟩) := by
  have fits : (Operation.internPointer ⟨2⟩).Fits nestedGraph := by decide +kernel
  have history : Graph.Evolves (nestedGraph.perform (.internPointer ⟨2⟩)).graph crowdedGraph :=
    Graph.evolves_after (by decide +kernel)
  have first : (nestedGraph.perform (.internPointer ⟨2⟩)).result = .ok (some ⟨9⟩) := by
    decide +kernel
  have length : nestedGraph.size = 9 := by decide +kernel
  obtain ⟨_, basics, _, _, asked, made⟩ := nestedGraph_reachable.interning_canonical
  obtain ⟨handle, given, _, again⟩ := asked (.internPointer ⟨2⟩) (.pointer ⟨2⟩) rfl fits
  obtain ⟨found, same⟩ := again crowdedGraph history
  obtain ⟨fresh, _⟩ := made .makeEnumeration .enumeration rfl
  refine ⟨nestedGraph_reachable, rfl, fits, history, first, ?_, same, ?_, basics _ _⟩
  · rw [found, ← given, first]
  · rw [fresh, length]

end CTypeGraph
