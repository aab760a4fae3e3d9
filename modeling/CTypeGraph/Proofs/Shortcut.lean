import CTypeGraph.Proofs.Termination

/-!
# Comparing a type with itself

Two handles that are equal denote one type, and a comparison says so without a look at the
node. `sameInFullWithin` is the comparison that does not take this shortcut, neither at the
start nor further down: it opens both nodes whatever their handles, and compares by place
only what is compared by place in any case, the pointers to records among members.

Leaving the shortcut out has a price, since every type is then unfolded against itself. The
questions that come up are no others than before, though. What a question raises depends on
the nodes and not on the handles, so the questions below it are as well founded as they were
and the same number of steps is enough. And a comparison of a type with itself that comes to
an end can only say yes, by induction on its steps. So both comparisons end with one answer.

Where a record reaches itself by value through a function type, the shortcut is all that ends
the comparison of the record with itself; `looped_inFull_unending` is the example.
-/

namespace CTypeGraph

open Relation

/-- A test that answers nothing but yes on equal pairs answers nothing but yes for a list
paired with itself. -/
theorem allM_zip_self_eq_true {α : Type} {test : α × α → Option Bool}
    (yes : ∀ {a answer}, test (a, a) = some answer → answer = true) {list : List α} {answer : Bool}
    (answered : (list.zip list).allM test = some answer) : answer = true := by
  induction list with
  | nil => simpa [List.allM, eq_comm] using answered
  | cons head tail inductionHypothesis =>
    cases first : test (head, head) with
    | none => simp [first] at answered
    | some same =>
      obtain rfl : same = true := yes first
      refine inductionHypothesis ?_
      simpa [List.allM, first] using answered

namespace Graph

variable {graph : Graph} {steps : Nat} {rule : RecordPointers} {left right : Handle}
  {question : Question}

/-- Whether two types are the same, found in at most `steps` nested steps and by looking into
the types even where they are one. -/
def sameInFullWithin (graph : Graph) (steps : Nat) (rule : RecordPointers) (left right : Handle) :
    Option Bool :=
  match steps with
  | 0 => none
  | steps + 1 => graph.compareNodes (graph.sameInFullWithin steps) rule left right

/-- The answer to a question without the shortcut. -/
def answerInFullWithin (graph : Graph) (steps : Nat) (question : Question) : Option Bool :=
  graph.sameInFullWithin steps question.rule question.left question.right

/-! ## A type is like itself -/

/-- A pointee that is compared with itself is found to be the same. -/
theorem comparePointees_self_eq_true {ask : RecordPointers → Handle → Handle → Option Bool}
    {type : Handle} (yes : ∀ {answer}, ask rule type type = some answer → answer = true)
    {answer : Bool} (answered : graph.comparePointees ask rule type type = some answer) :
    answer = true := by
  unfold comparePointees at answered
  split at answered
  case h_1 => simpa [eq_comm] using answered
  case h_2 => exact yes answered

/-- A function that is compared with itself is found to be the same. -/
theorem compareSignatures_self_eq_true {ask : Handle → Handle → Option Bool}
    (yes : ∀ {type answer}, ask type type = some answer → answer = true) {signature : Signature}
    {answer : Bool} (answered : compareSignatures ask signature signature = some answer) :
    answer = true := by
  obtain ⟨sameResult, results, parameters⟩ := Option.bind_eq_some_iff.mp answered
  obtain rfl : sameResult = true := yes results
  rw [if_pos (by simp)] at parameters
  exact allM_zip_self_eq_true yes parameters

/-- A record that is compared with itself is found to be the same. -/
theorem compareRecords_self_eq_true {ask : Handle → Handle → Option Bool}
    (yes : ∀ {type answer}, ask type type = some answer → answer = true) {contents : Record}
    {answer : Bool} (answered : compareRecords ask contents contents = some answer) :
    answer = true := by
  unfold compareRecords at answered
  split at answered
  case isTrue => simpa [eq_comm] using answered
  case isFalse =>
    rw [if_pos (by simp)] at answered
    exact allM_zip_self_eq_true yes answered

/-- A node that is compared with itself is found to be the same, if the answers that this
takes are yes wherever a type is compared with itself. -/
theorem compareNodes_self_eq_true {ask : RecordPointers → Handle → Handle → Option Bool}
    (yes : ∀ {rule type answer}, ask rule type type = some answer → answer = true) {type : Handle}
    {answer : Bool} (answered : graph.compareNodes ask rule type type = some answer) :
    answer = true := by
  unfold compareNodes at answered
  cases there : graph.node type with
  | void | enumeration | basic | array => simpa [there, eq_comm] using answered
  | pointer pointee =>
    simp only [there] at answered
    exact comparePointees_self_eq_true yes answered
  | function signature =>
    simp only [there] at answered
    exact compareSignatures_self_eq_true yes answered
  | record contents =>
    simp only [there] at answered
    exact compareRecords_self_eq_true yes answered

/-- Comparing a type with itself in full has no other answer than yes. -/
theorem sameInFullWithin_self {type : Handle} {answer : Bool}
    (answered : graph.sameInFullWithin steps rule type type = some answer) : answer = true := by
  induction steps generalizing rule type answer with
  | zero => cases answered
  | succ steps inductionHypothesis => exact compareNodes_self_eq_true inductionHypothesis answered

/-! ## Both comparisons -/

/-- What a comparison in full answers, the comparison with the shortcut answers as well. -/
theorem sameWithin_of_inFull {answer : Bool}
    (answered : graph.sameInFullWithin steps rule left right = some answer) :
    graph.sameWithin steps rule left right = some answer := by
  induction steps generalizing rule left right answer with
  | zero => cases answered
  | succ steps inductionHypothesis =>
    rw [sameWithin_succ]
    split
    case isTrue one =>
      subst one
      rw [sameInFullWithin_self answered]
    case isFalse => exact compareNodes_agree inductionHypothesis answered

/-- An answer in full is the same with more steps. -/
theorem sameInFullWithin_agree {more : Nat} (enough : steps ≤ more) {answer : Bool}
    (answered : graph.sameInFullWithin steps rule left right = some answer) :
    graph.sameInFullWithin more rule left right = some answer := by
  induction steps generalizing more rule left right answer with
  | zero => cases answered
  | succ steps inductionHypothesis =>
    obtain ⟨more, rfl⟩ : ∃ rest, more = rest + 1 := ⟨more - 1, by omega⟩
    exact compareNodes_agree (inductionHypothesis (Nat.le_of_succ_le_succ enough)) answered

/-- A question that stays open in full raises one that is open already. It may be a question
about one type, which the shortcut would have answered. -/
theorem raises_of_inFull_eq_none
    (unanswered : graph.answerInFullWithin (steps + 1) question = none) :
    ∃ next, graph.Raises question next ∧ graph.answerInFullWithin steps next = none :=
  raises_of_compareNodes_eq_none unanswered

/-- In a reachable graph without records that reach themselves by value through a function
type, comparing any two of its types in full comes to an end: the questions below it are well
founded, and within the steps provided it has an answer, which says whether the types are the
same. Under either rule for pointers to records it is the answer that the comparison with the
shortcut has. In any graph, a comparison in full that ends with any number of steps says
whether the types are the same. -/
theorem Reachable.sameType_inFull (reachable : graph.Reachable) :
    ((∀ type, ¬ graph.LoopsThroughFunction type) →
      ∀ left right : Handle, left.index < graph.size → right.index < graph.size →
        (∀ rule, Acc (fun next question => graph.Raises question next) ⟨rule, left, right⟩) ∧
          ∀ steps, graph.comparisonSteps ≤ steps →
            graph.sameInFullWithin steps .followed left right = some (graph.sameType left right) ∧
              ∀ rule, ∃ answer, graph.sameInFullWithin steps rule left right = some answer ∧
                graph.sameWithin steps rule left right = some answer) ∧
      ∀ left right steps answer, graph.sameInFullWithin steps .followed left right = some answer →
        graph.sameType left right = answer := by
  have given : ∀ left right steps answer,
      graph.sameInFullWithin steps .followed left right = some answer →
        graph.sameType left right = answer :=
    fun _ _ _ _ answered => sameType_eq_of_answered (sameWithin_of_inFull answered)
  refine ⟨?ends, given⟩
  case ends =>
    intro straight left right leftInside rightInside
    have asked : ∀ rule, graph.Asked ⟨rule, left, right⟩ := fun _ => ⟨leftInside, rightInside⟩
    refine ⟨fun rule => reachable.raises_acc straight (asked rule), fun steps enough => ?_⟩
    have answered : ∀ rule, ∃ answer,
        graph.sameInFullWithin steps rule left right = some answer := by
      intro rule
      obtain ⟨answer, found⟩ :=
        reachable.answered_of_raises straight (asked rule) raises_of_inFull_eq_none
      exact ⟨answer, sameInFullWithin_agree enough found⟩
    constructor
    · obtain ⟨answer, found⟩ := answered .followed
      rw [given left right steps answer found]
      exact found
    · intro rule
      obtain ⟨answer, found⟩ := answered rule
      exact ⟨answer, found, sameWithin_of_inFull found⟩

end Graph

/-- The two structs that point at each other hold the same types in the same order, so that the
shortcut is taken for every pair of members. In full the pointers to the function are followed
as well, which takes two steps more. -/
theorem linked_sameType_inFull :
    linkedGraph.Reachable ∧ (∀ type, ¬ linkedGraph.LoopsThroughFunction type) ∧
      (∀ steps, linkedGraph.comparisonSteps ≤ steps →
        linkedGraph.sameInFullWithin steps .followed ⟨0⟩ ⟨1⟩ =
          some (linkedGraph.sameType ⟨0⟩ ⟨1⟩)) ∧
      linkedGraph.sameWithin 2 .followed ⟨0⟩ ⟨1⟩ = some true ∧
      linkedGraph.sameInFullWithin 3 .followed ⟨0⟩ ⟨1⟩ = none ∧
      linkedGraph.sameInFullWithin 4 .followed ⟨0⟩ ⟨1⟩ = some true ∧
      linkedGraph.sameType ⟨0⟩ ⟨1⟩ = true := by
  obtain ⟨ends, given⟩ := linkedGraph_reachable.sameType_inFull
  obtain ⟨_, answered⟩ :=
    ends linkedGraph_straight ⟨0⟩ ⟨1⟩ (by decide +kernel) (by decide +kernel)
  have four : linkedGraph.sameInFullWithin 4 .followed ⟨0⟩ ⟨1⟩ = some true := by decide +kernel
  exact ⟨linkedGraph_reachable, linkedGraph_straight, fun steps enough => (answered steps enough).1,
    by decide +kernel, by decide +kernel, four, given ⟨0⟩ ⟨1⟩ 4 true four⟩

/-- A struct that holds a pointer to a function giving the struct itself is the same as itself
by the shortcut alone: in full the comparison comes back to where it began, through the member
and the function, and no number of steps is enough. -/
theorem looped_inFull_unending (steps : Nat) :
    loopedGraph.sameInFullWithin steps .followed ⟨0⟩ ⟨0⟩ = none ∧
      loopedGraph.sameWithin (steps + 1) .followed ⟨0⟩ ⟨0⟩ = some true := by
  have struct : loopedGraph.node ⟨0⟩ =
      .record ⟨false, false, .finalized, [⟨some "copy", ⟨3⟩, some 0⟩],
        [⟨some "copy", ⟨3⟩, some 0⟩], 8, 8⟩ := by decide +kernel
  have pointer : loopedGraph.node ⟨3⟩ = .pointer ⟨2⟩ := by decide +kernel
  have function : loopedGraph.node ⟨2⟩ = .function ⟨⟨0⟩, [], false⟩ := by decide +kernel
  have around : ∀ rule, loopedGraph.sameInFullWithin steps rule ⟨0⟩ ⟨0⟩ = none ∧
      loopedGraph.sameInFullWithin steps .identified ⟨3⟩ ⟨3⟩ = none ∧
      loopedGraph.sameInFullWithin steps .identified ⟨2⟩ ⟨2⟩ = none := by
    induction steps with
    | zero => exact fun _ => ⟨rfl, rfl, rfl⟩
    | succ steps inductionHypothesis =>
      obtain ⟨openStruct, openPointer, openFunction⟩ := inductionHypothesis .identified
      intro rule
      refine ⟨?_, ?_, ?_⟩
      · simp [Graph.sameInFullWithin, Graph.compareNodes, Graph.compareRecords, struct,
          openPointer, List.allM]
      · simp [Graph.sameInFullWithin, Graph.compareNodes, Graph.comparePointees, pointer,
          function, openFunction]
      · simp [Graph.sameInFullWithin, Graph.compareNodes, Graph.compareSignatures, function,
          openStruct]
  exact ⟨(around .followed).1, by simp [Graph.sameWithin]⟩

end CTypeGraph
