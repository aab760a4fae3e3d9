import CTypeGraph.History

/-!
# How a graph grows

Everything that a history does to a graph is said here once, from the point of
view of a single handle. After an operation the node behind a handle is the node
it was, or it is new at the end of the graph, or it is a record that was being
built and has received a member or its layout. `perform_effect` and `Effect.fate`
are that statement; arguments about all nodes of a reachable graph go through its
cases and need not look at the operations again.

What has settled stays: a node other than a record under construction is the
same for the rest of the history. `Extends` is that relation between an earlier
and a later graph. Nothing is said here about the tables of shared types.
-/

namespace CTypeGraph

/-- The handles that a node mentions, whether it holds those types or refers to them. -/
def Node.parts : Node → List Handle
  | .void | .basic _ | .enumeration => []
  | .pointer pointee => [pointee]
  | .function signature => signature.result :: signature.parameters.map (·.type)
  | .record contents => contents.members.map (·.type) ++ contents.exports.map (·.type)
  | .array element _ => [element]

/-- Whether the node can still change: only a record under construction can. -/
def Node.isSettled : Node → Bool
  | .record contents => contents.isFinalized
  | _ => true

/-- What follows an answer is asked of the answer. -/
theorem ok_bind {α β : Type} (answer : α) (next : α → Except Fault β) :
    (Except.ok answer >>= next) = next answer :=
  rfl

/-- Nothing is asked after a fault. -/
theorem error_bind {α β : Type} (fault : Fault) (next : α → Except Fault β) :
    (Except.error fault >>= next) = .error fault :=
  rfl

/-- Two questions in a row are answered exactly when both are. -/
theorem bind_eq_ok_iff {α β : Type} {first : Except Fault α} {next : α → Except Fault β}
    {answer : β} :
    (first >>= next) = .ok answer ↔ ∃ value, first = .ok value ∧ next value = .ok answer := by
  cases first with
  | error fault => simp [bind, Except.bind]
  | ok value => simp [bind, Except.bind]

namespace Graph

/-- A handle past the end denotes the stand-in `void`. -/
theorem node_of_size_le {graph : Graph} {handle : Handle} (outside : graph.size ≤ handle.index) :
    graph.node handle = .void := by
  have past : graph.nodes.size ≤ handle.index := outside
  simp [node, Array.getD_eq_getD_getElem?, past]

/-- A handle that denotes anything but `void` belongs to the graph. -/
theorem present_of_node {graph : Graph} {handle : Handle} (solid : graph.node handle ≠ .void) :
    handle.index < graph.size := by
  apply Nat.lt_of_not_le
  intro outside
  exact solid (node_of_size_le outside)

/-- A handle that denotes a record belongs to the graph. -/
theorem present_of_record {graph : Graph} {handle : Handle} {contents : Record}
    (there : graph.node handle = .record contents) : handle.index < graph.size := by
  apply present_of_node
  rw [there]
  exact Node.noConfusion

/-- Declaring a member succeeds exactly on a record that is not finalized, and
puts the member at the end of that record. -/
theorem addMember_eq_ok_iff {graph after : Graph} {type memberType : Handle}
    {name? : Option String} {location : Location} :
    graph.addMember type name? memberType location = .ok after ↔
      ∃ contents, graph.node type = .record contents ∧ contents.isFinalized = false ∧
        after = graph.replace type (.record
          { contents with members := contents.members ++ [⟨name?, memberType, none⟩] }) := by
  unfold addMember
  rw [bind_eq_ok_iff]
  apply exists_congr
  intro contents
  rw [record_eq_ok_iff]
  apply and_congr_right
  intro there
  cases contents.isFinalized with
  | true => simp
  | false => simp [eq_comm]

/-- A layout is settled only for a struct that is still being built, and is the
layout of its members as they stand. -/
theorem layoutOf_eq_ok_iff {graph : Graph} {type : Handle} {settled : Record} :
    graph.layoutOf type = .ok settled ↔
      ∃ draft, graph.node type = .record draft ∧ draft.isUnion = false ∧
        draft.isFinalized = false ∧ graph.laidOut type draft = .ok settled := by
  unfold layoutOf
  rw [bind_eq_ok_iff]
  apply exists_congr
  intro draft
  rw [record_eq_ok_iff]
  apply and_congr_right
  intro there
  cases draft.isUnion with
  | true => simp
  | false => cases draft.isFinalized <;> simp

/-- An attempt to declare a member puts it at the end of a record under construction or
changes nothing. -/
theorem perform_addMember_cases (graph : Graph) (type : Handle) (name? : Option String)
    (memberType : Handle) (location : Location) :
    (∃ contents, graph.node type = .record contents ∧ contents.isFinalized = false ∧
        (graph.perform (.addMember type name? memberType location)).graph =
          graph.replace type (.record
            { contents with members := contents.members ++ [⟨name?, memberType, none⟩] })) ∨
      (graph.perform (.addMember type name? memberType location)).graph = graph := by
  cases answered : graph.addMember type name? memberType location with
  | ok after =>
    obtain ⟨contents, there, building, rfl⟩ := addMember_eq_ok_iff.mp answered
    exact Or.inl ⟨contents, there, building,
      by simp only [perform, Outcome.ofChange, Logged.silent, answered]⟩
  | error fault =>
    exact Or.inr (by simp only [perform, Outcome.ofChange, Logged.silent, answered])

/-- An attempt to finalize puts a layout in its place or changes nothing. -/
theorem perform_finalize_cases (graph : Graph) (type : Handle) :
    (∃ settled, graph.layoutOf type = .ok settled ∧
        (graph.perform (.finalize type)).graph = graph.replace type (.record settled)) ∨
      (graph.perform (.finalize type)).graph = graph := by
  cases answered : (graph.finalize type).value with
  | ok after =>
    obtain ⟨settled, layout, rfl⟩ := finalize_eq_ok_iff.mp answered
    exact Or.inl ⟨settled, layout, by simp only [perform, Outcome.ofChange, answered]⟩
  | error fault => exact Or.inr (by simp only [perform, Outcome.ofChange, answered])

/-- What one operation can make of the node behind a handle. -/
inductive Fate (graph : Graph) (handle : Handle) : Node → Prop
  /-- The handle denotes what it denoted. -/
  | kept (present : handle.index < graph.size) : Fate graph handle (graph.node handle)
  /-- A type other than a record was put at the end, made of types that were there. -/
  | made {node : Node} (last : handle.index = graph.size)
      (solid : ∀ contents, node ≠ .record contents)
      (earlier : ∀ part ∈ node.parts, part.index < graph.size) : Fate graph handle node
  /-- A record without members was put at the end. -/
  | opened (last : handle.index = graph.size) (isUnion : Bool) :
      Fate graph handle (.record (.fresh isUnion))
  /-- A record under construction received one more member. -/
  | extended {contents : Record} {member : Member} (there : graph.node handle = .record contents)
      (building : contents.isFinalized = false) (present : member.type.index < graph.size)
      (unplaced : member.offset? = none) :
      Fate graph handle (.record { contents with members := contents.members ++ [member] })
  /-- A record under construction received its layout. -/
  | finalized {contents : Record} (settled : graph.layoutOf handle = .ok contents) :
      Fate graph handle (.record contents)

/-- What one operation can do to the nodes of a graph: nothing, one node more at
the end, or one node exchanged. The tables of shared types are left open. -/
inductive Effect (graph : Graph) : Graph → Prop
  | unchanged : Effect graph graph
  | appended {node : Node} {after : Graph} (model : after.model = graph.model)
      (nodes : after.nodes = graph.nodes.push node)
      (newcomer : ∀ handle, handle.index = graph.size → Fate graph handle node) :
      Effect graph after
  | exchanged {target : Handle} {node : Node} (there : target.index < graph.size)
      (changed : Fate graph target node) : Effect graph (graph.replace target node)

/-- Every operation has one of these effects. All later statements about
operations rest on this case distinction. -/
theorem perform_effect {graph : Graph} {operation : Operation} (fits : operation.Fits graph) :
    Effect graph (graph.perform operation).graph := by
  cases operation with
  | internVoid =>
    cases found : graph.voidHandle? with
    | some old =>
      simp only [perform, Outcome.ofType, Logged.silent, internVoid, found]
      exact .unchanged
    | none =>
      simp only [perform, Outcome.ofType, Logged.silent, internVoid, found]
      exact .appended rfl rfl fun _ last => .made last (by simp) (by simp [Node.parts])
  | internBasic type =>
    cases found : graph.basicHandles.lookup type with
    | some old =>
      simp only [perform, Outcome.ofType, internBasic, found]
      exact .unchanged
    | none =>
      simp only [perform, Outcome.ofType, Logged.silent, internBasic, found]
      exact .appended rfl rfl fun _ last => .made last (by simp) (by simp [Node.parts])
  | internPointer pointee =>
    cases found : graph.pointerHandles.lookup pointee with
    | some old =>
      simp only [perform, Outcome.ofType, internPointer, found]
      exact .unchanged
    | none =>
      simp only [perform, Outcome.ofType, Logged.silent, internPointer, found]
      exact .appended rfl rfl fun _ last => .made last (by simp) fits
  | makeEnumeration =>
    exact .appended rfl rfl fun _ last => .made last (by simp) (by simp [Node.parts])
  | makeFunction signature => exact .appended rfl rfl fun _ last => .made last (by simp) fits
  | makeArray element count => exact .appended rfl rfl fun _ last => .made last (by simp) fits
  | makeRecord isUnion => exact .appended rfl rfl fun _ last => .opened last isUnion
  | addMember record name? type location =>
    rcases perform_addMember_cases graph record name? type location with
      ⟨contents, there, building, done⟩ | same
    · rw [done]
      have present : type.index < graph.size := fits type (by simp [Operation.mentioned])
      exact .exchanged (present_of_record there) (.extended there building present rfl)
    · rw [same]
      exact .unchanged
  | finalize record =>
    rcases graph.perform_finalize_cases record with ⟨settled, layout, done⟩ | same
    · rw [done]
      obtain ⟨draft, there, _⟩ := layoutOf_eq_ok_iff.mp layout
      exact .exchanged (present_of_record there) (.finalized layout)
    · rw [same]
      exact .unchanged

variable {graph after : Graph}

/-- The node behind any handle of the graph that an effect leaves has one of the
fates of a node. Appending and exchanging keep all nodes but one. -/
theorem Effect.fate (effect : Effect graph after) {handle : Handle}
    (present : handle.index < after.size) : Fate graph handle (after.node handle) := by
  cases effect with
  | unchanged => exact .kept present
  | @appended node _ _ nodes newcomer =>
    have sameNode : after.node handle = (graph.append node).2.node handle := by
      simp only [Graph.node, append, nodes]
    have size : after.size = graph.size + 1 := by simp [Graph.size, nodes]
    rw [sameNode]
    rcases Nat.lt_succ_iff_lt_or_eq.mp (size ▸ present) with old | last
    · rw [node_append_old graph node old]
      exact .kept old
    · have same : handle = (graph.append node).1 := congrArg Handle.mk last
      rw [same, node_append_new]
      exact newcomer _ (same ▸ last)
  | @exchanged target node there changed =>
    rw [size_replace] at present
    by_cases same : handle = target
    · rw [same, node_replace_same graph node there]
      exact changed
    · rw [node_replace_other graph node same]
      exact .kept present

/-- No effect takes a node away. -/
theorem Effect.size_le (effect : Effect graph after) : graph.size ≤ after.size := by
  cases effect with
  | unchanged => exact Nat.le_refl _
  | appended _ nodes _ => simp [Graph.size, nodes]
  | exchanged => simp

/-- A later graph next to an earlier one: it is measured by the same data model,
no node has gone, and what had settled is as it was. -/
structure Extends (before after : Graph) : Prop where
  model : after.model = before.model
  size_le : before.size ≤ after.size
  settled : ∀ {handle : Handle}, handle.index < before.size →
    (before.node handle).isSettled = true → after.node handle = before.node handle

namespace Extends

/-- A graph is later than itself. -/
theorem refl (graph : Graph) : graph.Extends graph :=
  ⟨rfl, Nat.le_refl _, fun _ _ => rfl⟩

/-- Later than later is later: what had settled first had settled in between as well. -/
theorem trans {first second third : Graph} (early : first.Extends second)
    (late : second.Extends third) : first.Extends third where
  model := late.model.trans early.model
  size_le := Nat.le_trans early.size_le late.size_le
  settled := by
    intro handle present fixed
    have kept : second.node handle = first.node handle := early.settled present fixed
    rw [← kept] at fixed ⊢
    exact late.settled (Nat.lt_of_lt_of_le present early.size_le) fixed

/-- A node that is not the stand-in for a foreign handle, and not a record under
construction, is still there later. -/
theorem node_eq (later : graph.Extends after) {handle : Handle} {node : Node}
    (there : graph.node handle = node) (solid : node ≠ .void)
    (fixed : node.isSettled = true) : after.node handle = node := by
  subst there
  exact later.settled (present_of_node solid) fixed

end Extends

/-- Every effect extends the graph: the two fates that change a node belong to
records under construction. -/
theorem Effect.extension (effect : Effect graph after) : graph.Extends after where
  model := by
    cases effect with
    | unchanged => rfl
    | appended model => exact model
    | exchanged => rfl
  size_le := effect.size_le
  settled := by
    intro handle present fixed
    have fate : Fate graph handle (after.node handle) :=
      effect.fate (Nat.lt_of_lt_of_le present effect.size_le)
    generalize after.node handle = node at fate
    cases fate with
    | kept => rfl
    | made last => exact absurd last (Nat.ne_of_lt present)
    | opened last => exact absurd last (Nat.ne_of_lt present)
    | extended there building =>
      rw [there] at fixed
      exact absurd fixed (Bool.eq_false_iff.mp building)
    | finalized settled =>
      obtain ⟨draft, there, _, building, _⟩ := layoutOf_eq_ok_iff.mp settled
      rw [there] at fixed
      exact absurd fixed (Bool.eq_false_iff.mp building)

/-- A history extends the graph it starts from. -/
theorem Evolves.extension {start graph : Graph} (history : Evolves start graph) :
    start.Extends graph := by
  induction history with
  | refl => exact .refl start
  | step _ fits earlier => exact earlier.trans (perform_effect fits).extension

/-- A history leads on from a reachable graph to reachable graphs. -/
theorem Reachable.evolved {graph after : Graph} (reachable : graph.Reachable)
    (history : Evolves graph after) : after.Reachable := by
  obtain ⟨model, early⟩ := reachable
  exact ⟨model, early.trans history⟩

/-- What holds of empty graphs and survives every effect holds of every
reachable graph. The graph before an effect is itself reachable, so facts that
are known of all reachable graphs may be used about it. -/
theorem Reachable.induction {motive : Graph → Prop} (reachable : graph.Reachable)
    (initial : ∀ model, motive (empty model))
    (preserved : ∀ {before after : Graph}, before.Reachable → motive before →
      Effect before after → motive after) :
    motive graph := by
  obtain ⟨model, history⟩ := reachable
  induction history with
  | refl => exact initial model
  | step history fits earlier => exact preserved ⟨model, history⟩ earlier (perform_effect fits)

/-- Induction over the lives of records: each is kept by an operation, or was made
by it, or received a member or its layout from it. In the last case all records of
the graph before may be referred to, since a layout depends on them. -/
theorem Reachable.record_induction {motive : Graph → Handle → Record → Prop}
    (reachable : graph.Reachable)
    (kept : ∀ {before after : Graph} {type contents}, Effect before after →
      before.node type = .record contents → motive before type contents →
      motive after type contents)
    (opened : ∀ {after : Graph} {type} isUnion, motive after type (.fresh isUnion))
    (extended : ∀ {before after : Graph} {type contents member}, Effect before after →
      contents.isFinalized = false → member.offset? = none → motive before type contents →
      motive after type { contents with members := contents.members ++ [member] })
    (finalized : ∀ {before after : Graph} {type draft settled}, before.Reachable →
      Effect before after → (∀ {type contents}, before.node type = .record contents →
        motive before type contents) →
      before.node type = .record draft → draft.isUnion = false → draft.isFinalized = false →
      before.laidOut type draft = .ok settled → after.node type = .record settled →
      motive after type settled)
    {type : Handle} {contents : Record} (there : graph.node type = .record contents) :
    motive graph type contents := by
  have all : ∀ {type contents}, graph.node type = .record contents →
      motive graph type contents := by
    refine reachable.induction (motive := fun graph => ∀ {type contents},
      graph.node type = .record contents → motive graph type contents) ?_ ?_
    · intro model type contents there
      rw [node_of_size_le (Nat.zero_le _)] at there
      cases there
    · intro before after reached inductionHypothesis effect type contents there
      have fate : Fate before type (after.node type) := effect.fate (present_of_record there)
      generalize known : after.node type = node at fate
      rw [there] at known
      cases fate with
      | kept => exact kept effect known.symm (inductionHypothesis known.symm)
      | made _ solid => exact absurd known.symm (solid contents)
      | opened _ isUnion =>
        cases known
        exact opened isUnion
      | extended earlier building _ unplaced =>
        cases known
        exact extended effect building unplaced (inductionHypothesis earlier)
      | finalized laid =>
        cases known
        obtain ⟨draft, earlier, struct, building, laid⟩ := layoutOf_eq_ok_iff.mp laid
        exact finalized reached effect inductionHypothesis earlier struct building laid there
  exact all there

/-- Whether each operation of a list fits the graph it is performed on. -/
def Admits (graph : Graph) : List Operation → Prop
  | [] => True
  | operation :: rest => operation.Fits graph ∧ (graph.perform operation).graph.Admits rest

/-- Admission is decided by performing the operations. -/
instance Admits.decidable : (graph : Graph) → (operations : List Operation) →
    Decidable (graph.Admits operations)
  | _, [] => .isTrue trivial
  | graph, operation :: rest =>
    have := Admits.decidable (graph.perform operation).graph rest
    inferInstanceAs (Decidable (_ ∧ _))

/-- A list of operations that fit is a history. -/
theorem evolves_after {graph : Graph} {operations : List Operation}
    (admitted : graph.Admits operations) : Evolves graph (graph.after operations) := by
  induction operations generalizing graph with
  | nil => exact .refl
  | cons operation rest inductionHypothesis =>
    have first : Evolves graph (graph.perform operation).graph := .step .refl admitted.1
    exact first.trans (inductionHypothesis admitted.2)

end Graph

end CTypeGraph
