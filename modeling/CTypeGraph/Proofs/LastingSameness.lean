import CTypeGraph.Proofs.RecordLife
import CTypeGraph.Proofs.Stability

/-!
# Sameness that lasts

Whether two types are the same is not among the answers that stand. Two structs under
construction are the same until one of them is finalized, and two finalized structs that
hold pointers to them change their answer at the same moment, although nothing has
happened to themselves. What makes the answer change is a struct under construction that
one of the types leads to. Where there is none, the answer lasts.

The argument runs the comparison in both graphs side by side. It goes only where its types
lead, and there it finds the same nodes again: whatever is not a record has settled,
a finalized struct has too, and a union remains under construction, so that the comparison
will not look into it, however many members it receives. `AgreesOn` says this of a set of
types that is closed in this way, and from it the comparison is the same step for step.
-/

namespace CTypeGraph

open Relation

/-- The types that a type is made from: what it points at, its element, its result and
parameters, or its members as they were declared. -/
def Node.constituents : Node → List Handle
  | .void | .basic _ | .enumeration => []
  | .pointer pointee => [pointee]
  | .function signature => signature.result :: signature.parameters.map (·.type)
  | .record contents => contents.members.map (·.type)
  | .array element _ => [element]

/-- A node mentions the types that it is made from. -/
theorem Node.constituents_subset_parts (node : Node) : node.constituents ⊆ node.parts := by
  cases node with
  | record => exact List.subset_append_left _ _
  | void | basic | enumeration | pointer | function | array => exact List.Subset.refl _

/-- Only a record that is not finalized can still change. -/
theorem Node.isSettled_eq_false_iff {node : Node} :
    node.isSettled = false ↔ ∃ draft, node = .record draft ∧ draft.isFinalized = false := by
  cases node <;> simp [isSettled]

/-- Where a comparison has read the first node it may as well read the second: that is the
same node, or both are incomplete records, which it does not look into. -/
def Node.ReadsAs (first second : Node) : Prop :=
  second = first ∨ first.isUnfinished = true ∧ second.isUnfinished = true

namespace Node.ReadsAs

variable {first second : Node}

/-- Nodes that read the same are both incomplete records or neither is. -/
theorem isUnfinished_eq (reads : first.ReadsAs second) :
    second.isUnfinished = first.isUnfinished := by
  rcases reads with rfl | ⟨unfinished, unfinishedLater⟩
  · rfl
  · rw [unfinished, unfinishedLater]

/-- Nodes that read the same are both records or neither is. -/
theorem isRecord_eq (reads : first.ReadsAs second) : second.isRecord = first.isRecord := by
  rcases reads with rfl | ⟨unfinished, unfinishedLater⟩
  · rfl
  · obtain ⟨_, rfl, _⟩ := Node.isUnfinished_iff.mp unfinished
    obtain ⟨_, rfl, _⟩ := Node.isUnfinished_iff.mp unfinishedLater
    rfl

end Node.ReadsAs

namespace Graph

variable {graph after : Graph} {type left right : Handle} {inside : Handle → Prop} {steps : Nat}
  {rule : RecordPointers}

/-- The second type is one that the first is made from. -/
def LeadsTo (graph : Graph) (type next : Handle) : Prop :=
  next ∈ (graph.node type).constituents

/-- Every struct that the type leads to is finalized, and so is the type if it is a struct.
Unions are never finalized, and nothing is asked of them but what their members lead to. -/
def Complete (graph : Graph) (type : Handle) : Prop :=
  ∀ next contents, ReflTransGen graph.LeadsTo type next → graph.node next = .record contents →
    contents.isUnion = false → contents.isFinalized = true

/-- What a complete type leads to is complete. -/
theorem Complete.next {next : Handle} (complete : graph.Complete type)
    (leads : graph.LeadsTo type next) : graph.Complete next :=
  fun _ _ path => complete _ _ (.head leads path)

/-- A type is complete when it lies in a list of types that lead to nothing else, among
which every struct is finalized. -/
theorem complete_of_closed (types : List Handle)
    (closed : ∀ type ∈ types, ∀ next ∈ (graph.node type).constituents, next ∈ types)
    (final : ∀ type ∈ types, (graph.node type).record?.all
      (fun contents => contents.isUnion || contents.isFinalized) = true)
    (listed : type ∈ types) : graph.Complete type := by
  intro next contents path there struct
  have within : next ∈ types := by
    clear there
    induction path with
    | refl => exact listed
    | tail _ leads inductionHypothesis => exact closed _ inductionHypothesis _ leads
  simpa [there, Node.record?, struct] using final next within

/-! ## A comparison in two graphs -/

/-- Two graphs show the same to a comparison of the types in a set which the comparison
does not leave. -/
structure AgreesOn (graph after : Graph) (inside : Handle → Prop) : Prop where
  reads : ∀ {type}, inside type → (graph.node type).ReadsAs (after.node type)
  closed : ∀ {type next}, inside type → graph.LeadsTo type next → inside next

/-- Two pointees are compared by their place and by being unfinished, if they are records and
the rule is not to follow them. Otherwise they are compared by following them. -/
theorem comparePointees_eq_ite (graph : Graph)
    (ask : RecordPointers → Handle → Handle → Option Bool) (rule : RecordPointers)
    (left right : Handle) :
    graph.comparePointees ask rule left right =
      if rule = .identified ∧ (graph.node left).isRecord = true ∧
          (graph.node right).isRecord = true then
        some (decide (left = right) ||
          ((graph.node left).isUnfinished && (graph.node right).isUnfinished))
      else ask rule left right := by
  unfold comparePointees
  cases rule with
  | followed => rfl
  | identified =>
    cases graph.node left with
    | record =>
      cases graph.node right with
      | record => rfl
      | void | basic | enumeration | pointer | function | array => rfl
    | void | basic | enumeration | pointer | function | array => rfl

namespace AgreesOn

variable {ask later : RecordPointers → Handle → Handle → Option Bool}

/-- Pointees in the set are compared alike when following them leads to the same answer. -/
theorem comparePointees_eq (agrees : graph.AgreesOn after inside)
    (kept : ∀ {rule left right}, inside left → inside right →
      later rule left right = ask rule left right)
    (insideLeft : inside left) (insideRight : inside right) :
    after.comparePointees later rule left right = graph.comparePointees ask rule left right := by
  have readsLeft := agrees.reads insideLeft
  have readsRight := agrees.reads insideRight
  rw [comparePointees_eq_ite, comparePointees_eq_ite, readsLeft.isRecord_eq,
    readsRight.isRecord_eq, readsLeft.isUnfinished_eq, readsRight.isUnfinished_eq,
    kept insideLeft insideRight]

/-- Lists of types in the set are compared alike, pair by pair. -/
theorem pairs {α : Type} {typeOf : α → Handle} {lefts rights : List α}
    (kept : ∀ {left right}, inside left → inside right →
      later rule left right = ask rule left right)
    (insideLeft : ∀ type ∈ lefts.map typeOf, inside type)
    (insideRight : ∀ type ∈ rights.map typeOf, inside type) :
    ((lefts.zip rights).allM fun pair => later rule (typeOf pair.1) (typeOf pair.2)) =
      (lefts.zip rights).allM fun pair => ask rule (typeOf pair.1) (typeOf pair.2) := by
  apply allM_congr
  rintro ⟨one, other⟩ paired
  obtain ⟨here, there⟩ := List.of_mem_zip paired
  exact kept (insideLeft _ (List.mem_map_of_mem here)) (insideRight _ (List.mem_map_of_mem there))

/-- Where both graphs have the nodes that are compared, a step goes as the questions that come up
are answered. -/
theorem compareNodes_eq (agrees : graph.AgreesOn after inside)
    (kept : ∀ {rule left right}, inside left → inside right →
      later rule left right = ask rule left right)
    (insideLeft : inside left) (insideRight : inside right)
    (sameLeft : after.node left = graph.node left)
    (sameRight : after.node right = graph.node right) :
    after.compareNodes later rule left right = graph.compareNodes ask rule left right := by
  rw [compareNodes, compareNodes, sameLeft, sameRight]
  have nextLeft : ∀ next ∈ (graph.node left).constituents, inside next :=
    fun _ => agrees.closed insideLeft
  have nextRight : ∀ next ∈ (graph.node right).constituents, inside next :=
    fun _ => agrees.closed insideRight
  generalize graph.node left = leftNode at nextLeft ⊢
  generalize graph.node right = rightNode at nextRight ⊢
  cases leftNode with
  | pointer leftPointee =>
    cases rightNode with
    | pointer rightPointee =>
      exact agrees.comparePointees_eq kept (nextLeft _ (by simp [Node.constituents]))
        (nextRight _ (by simp [Node.constituents]))
    | void | basic | enumeration | function | record | array => rfl
  | function =>
    cases rightNode with
    | function =>
      obtain ⟨resultLeft, parametersLeft⟩ := List.forall_mem_cons.mp nextLeft
      obtain ⟨resultRight, parametersRight⟩ := List.forall_mem_cons.mp nextRight
      simp only [compareSignatures, kept resultLeft resultRight,
        pairs kept parametersLeft parametersRight]
    | void | basic | enumeration | pointer | record | array => rfl
  | record =>
    cases rightNode with
    | record => simp only [compareRecords, pairs kept nextLeft nextRight]
    | void | basic | enumeration | pointer | function | array => rfl
  | void | basic | enumeration | array => cases rightNode <;> rfl

/-- A comparison that starts in the set takes the same course in both graphs. By induction
on the steps: a node that differs is an incomplete record, which decides the answer whatever
it holds, and otherwise the comparison goes on in the set. -/
theorem sameWithin_eq (agrees : graph.AgreesOn after inside) (steps : Nat)
    (rule : RecordPointers) (insideLeft : inside left) (insideRight : inside right) :
    after.sameWithin steps rule left right = graph.sameWithin steps rule left right := by
  induction steps generalizing rule left right with
  | zero => rfl
  | succ steps inductionHypothesis =>
    by_cases one : left = right
    · simp [sameWithin, one]
    · rcases agrees.reads insideLeft with sameLeft | ⟨unfinished, unfinishedLater⟩
      · rcases agrees.reads insideRight with sameRight | ⟨unfinished, unfinishedLater⟩
        · rw [sameWithin_succ, sameWithin_succ, if_neg one, if_neg one]
          exact agrees.compareNodes_eq (inductionHypothesis _) insideLeft insideRight
            sameLeft sameRight
        · rw [sameWithin_unfinished_right one unfinished,
            sameWithin_unfinished_right one unfinishedLater, sameLeft]
      · rw [sameWithin_unfinished_left one unfinished,
          sameWithin_unfinished_left one unfinishedLater,
          (agrees.reads insideRight).isUnfinished_eq]

end AgreesOn

/-! ## Complete types -/

/-- In the rest of a history nothing changes that a comparison of complete types would
notice. The only node among them that can change is a union, and it remains open. -/
theorem Reachable.agreesOn_complete (reachable : graph.Reachable) (history : Evolves graph after) :
    graph.AgreesOn after fun type => type.index < graph.size ∧ graph.Complete type := by
  constructor
  case closed =>
    rintro type next ⟨_, complete⟩ leads
    have part : next ∈ (graph.node type).parts := Node.constituents_subset_parts _ leads
    exact ⟨reachable.ordered.present part, complete.next leads⟩
  case reads =>
    rintro type ⟨present, complete⟩
    cases fixed : (graph.node type).isSettled with
    | true => exact Or.inl (history.extension.settled present fixed)
    | false =>
      obtain ⟨draft, there, building⟩ := Node.isSettled_eq_false_iff.mp fixed
      have union : draft.isUnion = true := by
        by_contra struct
        simp [complete type draft .refl there (Bool.eq_false_iff.mpr struct)] at building
      have alike := history.alike present
      generalize known : after.node type = node at alike ⊢
      rw [there] at alike ⊢
      cases alike with
      | same => exact Or.inl rfl
      | @records _ later kind =>
        have isOpen : draft.IsOpen := reachable.isOpen there building
        have isOpenLater : later.IsOpen := by
          apply ((reachable.evolved history).isOpen_or_isLaidOut known).resolve_right
          intro laidOut
          rw [union, laidOut.struct] at kind
          cases kind
        exact Or.inr ⟨isOpen.incomplete, isOpenLater.incomplete⟩

/-- A comparison of two types that lead to no struct under construction takes the same
course for the rest of the history, in any number of steps and under either rule. So what
`sameType` says lasts. By itself this is no promise of an answer, since `sameType` is `false`
for a comparison that goes on forever as well, and such a one goes on forever later, too.
Where no record reaches itself by value through a function type the comparison ends, and
then it ends with that answer from then on. -/
theorem Reachable.sameType_lasting (reachable : graph.Reachable) (history : Evolves graph after)
    (presentLeft : left.index < graph.size) (presentRight : right.index < graph.size)
    (completeLeft : graph.Complete left) (completeRight : graph.Complete right) :
    (∀ steps rule,
        after.sameWithin steps rule left right = graph.sameWithin steps rule left right) ∧
      after.sameType left right = graph.sameType left right ∧
      ((∀ type, ¬ graph.LoopsThroughFunction type) → ∀ steps, graph.comparisonSteps ≤ steps →
        graph.sameWithin steps .followed left right = some (graph.sameType left right) ∧
          after.sameWithin steps .followed left right = some (graph.sameType left right)) := by
  have same : ∀ steps rule,
      after.sameWithin steps rule left right = graph.sameWithin steps rule left right :=
    fun steps rule => (reachable.agreesOn_complete history).sameWithin_eq steps rule
      ⟨presentLeft, completeLeft⟩ ⟨presentRight, completeRight⟩
  refine ⟨same, ?lasts, ?ends⟩
  case lasts =>
    rw [Bool.eq_iff_iff, sameType_eq_true_iff, sameType_eq_true_iff]
    constructor
    · intro yes
      rw [Confirmed, same] at yes
      exact sameWithin_comparisonSteps yes
    · intro yes
      rw [Confirmed, ← same] at yes
      exact sameWithin_comparisonSteps yes
  case ends =>
    intro straight steps enough
    have asked : graph.Asked ⟨.followed, left, right⟩ := ⟨presentLeft, presentRight⟩
    obtain ⟨answer, answered⟩ := reachable.answered straight asked
    have given : graph.sameWithin steps .followed left right = some answer :=
      answered steps enough
    rw [same, sameType_eq_of_answered given]
    exact ⟨given, given⟩

end Graph

/-! ## What two structs point at -/

/-- Two finalized structs of a number and a pointer. The pointers lead to two records
without members, unions or structs. The types are, in order: the two structs, the two
records, the pointers to these, and `int`. -/
def holdersGraph (isUnion : Bool) : Graph :=
  (Graph.empty .lp64).after
    [.makeRecord false, .makeRecord false, .makeRecord isUnion, .makeRecord isUnion,
      .internPointer ⟨2⟩, .internPointer ⟨3⟩, .internBasic ⟨.int, true⟩,
      .addMember ⟨0⟩ (some "count") ⟨6⟩ default, .addMember ⟨0⟩ (some "held") ⟨4⟩ default,
      .addMember ⟨1⟩ (some "count") ⟨6⟩ default, .addMember ⟨1⟩ (some "held") ⟨5⟩ default,
      .finalize ⟨0⟩, .finalize ⟨1⟩]

/-- The first of the two records receives a member, and an attempt to finalize it is made. -/
def laterHoldersGraph (isUnion : Bool) : Graph :=
  (holdersGraph isUnion).after [.addMember ⟨2⟩ (some "value") ⟨6⟩ default, .finalize ⟨2⟩]

/-- A union receives a member but cannot be finalized, so the structs that point at it and
at another union stay the same. -/
theorem holders_sameType_lasting :
    (holdersGraph true).Reachable ∧ (holdersGraph true).Complete ⟨0⟩ ∧
      (holdersGraph true).Complete ⟨1⟩ ∧
      Graph.Evolves (holdersGraph true) (laterHoldersGraph true) ∧
      (∀ type, ¬ (holdersGraph true).LoopsThroughFunction type) ∧
      (holdersGraph true).sameType ⟨0⟩ ⟨1⟩ = true ∧
      (laterHoldersGraph true).sameType ⟨0⟩ ⟨1⟩ = true ∧
      (laterHoldersGraph true).sameWithin (holdersGraph true).comparisonSteps .followed ⟨0⟩ ⟨1⟩ =
        some true := by
  have reachable : (holdersGraph true).Reachable := ⟨.lp64, Graph.evolves_after (by decide +kernel)⟩
  have history : Graph.Evolves (holdersGraph true) (laterHoldersGraph true) :=
    Graph.evolves_after (by decide +kernel)
  have complete : ∀ type ∈ [⟨0⟩, ⟨1⟩, ⟨2⟩, ⟨3⟩, ⟨4⟩, ⟨5⟩, ⟨6⟩], (holdersGraph true).Complete type :=
    fun _ => Graph.complete_of_closed _ (by decide +kernel) (by decide +kernel)
  have straight : ∀ type, ¬ (holdersGraph true).LoopsThroughFunction type :=
    Graph.not_loopsThroughFunction_of_rank
      (fun type => [1, 1, 0, 0, 0, 0, 0].getD type.index 0) (by decide +kernel)
  have before : (holdersGraph true).sameType ⟨0⟩ ⟨1⟩ = true := by decide +kernel
  obtain ⟨_, lasts, ends⟩ := reachable.sameType_lasting history (by decide +kernel)
    (by decide +kernel) (complete ⟨0⟩ (by simp)) (complete ⟨1⟩ (by simp))
  rw [before] at lasts ends
  exact ⟨reachable, complete _ (by simp), complete _ (by simp), history, straight, before, lasts,
    (ends straight _ (Nat.le_refl _)).2⟩

/-- A struct in the place of the union is finalized, and then the structs that point at it
and at another struct are no longer the same. -/
example :
    (holdersGraph false).sameType ⟨0⟩ ⟨1⟩ = true ∧
      (laterHoldersGraph false).sameType ⟨0⟩ ⟨1⟩ = false := by
  decide +kernel

end CTypeGraph
