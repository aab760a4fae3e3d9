import CTypeGraph.Proofs.Comparison
import CTypeGraph.Proofs.ExactLayout
import Mathlib.Data.Fintype.Prod

/-!
# Sameness is an equivalence

A comparison is one question, and to answer it others are raised. The steps
provided run out only along a chain of questions as long as they are, each raising
the next. In a reachable graph without records that reach themselves by value
through a function type no question raises itself. As long as pointers to records
are followed, the left types come earlier and earlier; afterwards the left types
are a path of `Follows`, and this never leads back. So a chain is no longer than
there are questions, the comparison ends within the steps provided, and what holds
of the answer yes within a number of steps holds of sameness.
-/

namespace CTypeGraph

open Relation

/-- Two types to compare, and what is done with pointers to records. -/
structure Question where
  /-- The rule for pointers to records. -/
  rule : RecordPointers
  /-- The left type. -/
  left : Handle
  /-- The right type. -/
  right : Handle
  deriving DecidableEq

namespace Graph

variable {graph : Graph} {steps : Nat} {rule : RecordPointers} {left right : Handle}
  {question next : Question}

/-- The answer to a question within a number of steps. -/
def answerWithin (graph : Graph) (steps : Nat) (question : Question) : Option Bool :=
  graph.sameWithin steps question.rule question.left question.right

/-- To answer the first question the second may have to be answered. -/
inductive Raises (graph : Graph) : Question → Question → Prop
  | pointees {rule : RecordPointers} {left right leftPointee rightPointee : Handle}
      (leftThere : graph.node left = .pointer leftPointee)
      (rightThere : graph.node right = .pointer rightPointee)
      (free : ¬ graph.Fixed rule leftPointee rightPointee) :
      Raises graph ⟨rule, left, right⟩ ⟨rule, leftPointee, rightPointee⟩
  | results {rule : RecordPointers} {left right : Handle} {leftSignature rightSignature : Signature}
      (leftThere : graph.node left = .function leftSignature)
      (rightThere : graph.node right = .function rightSignature) :
      Raises graph ⟨rule, left, right⟩ ⟨rule, leftSignature.result, rightSignature.result⟩
  | parameters {rule : RecordPointers} {left right : Handle}
      {leftSignature rightSignature : Signature} {one other : Parameter}
      (leftThere : graph.node left = .function leftSignature)
      (rightThere : graph.node right = .function rightSignature)
      (paired : (one, other) ∈ leftSignature.parameters.zip rightSignature.parameters) :
      Raises graph ⟨rule, left, right⟩ ⟨rule, one.type, other.type⟩
  | members {rule : RecordPointers} {left right : Handle} {leftRecord rightRecord : Record}
      {one other : Member} (leftThere : graph.node left = .record leftRecord)
      (rightThere : graph.node right = .record rightRecord)
      (leftComplete : leftRecord.incomplete = false)
      (rightComplete : rightRecord.incomplete = false)
      (paired : (one, other) ∈ leftRecord.members.zip rightRecord.members) :
      Raises graph ⟨rule, left, right⟩ ⟨.identified, one.type, other.type⟩

/-- Pointees that are left open are followed. -/
theorem open_of_comparePointees_eq_none {ask : RecordPointers → Handle → Handle → Option Bool}
    (unanswered : graph.comparePointees ask rule left right = none) :
    ¬ graph.Fixed rule left right ∧ ask rule left right = none := by
  unfold comparePointees at unanswered
  split at unanswered
  case h_1 => cases unanswered
  case h_2 loose => exact ⟨not_fixed_of_loose loose, unanswered⟩

/-- Where functions are left open, their results are, or two of their parameters. -/
theorem open_of_compareSignatures_eq_none {ask : Handle → Handle → Option Bool}
    {left right : Signature} (unanswered : compareSignatures ask left right = none) :
    ask left.result right.result = none ∨
      ∃ one other, (one, other) ∈ left.parameters.zip right.parameters ∧
        ask one.type other.type = none := by
  unfold compareSignatures at unanswered
  cases answer : ask left.result right.result with
  | none => exact Or.inl rfl
  | some sameResult =>
    rw [answer, Option.bind_some] at unanswered
    split at unanswered
    case isTrue =>
      obtain ⟨⟨one, other⟩, paired, open_⟩ := exists_of_allM_eq_none unanswered
      exact Or.inr ⟨one, other, paired, open_⟩
    case isFalse => cases unanswered

/-- Where records are left open, both are complete and two of their members are left open. -/
theorem open_of_compareRecords_eq_none {ask : Handle → Handle → Option Bool}
    {left right : Record} (unanswered : compareRecords ask left right = none) :
    left.incomplete = false ∧ right.incomplete = false ∧
      ∃ one other, (one, other) ∈ left.members.zip right.members ∧
        ask one.type other.type = none := by
  unfold compareRecords at unanswered
  split at unanswered
  case isTrue => cases unanswered
  case isFalse complete =>
    rw [Bool.or_eq_true, not_or, Bool.not_eq_true, Bool.not_eq_true] at complete
    split at unanswered
    case isTrue =>
      obtain ⟨⟨one, other⟩, paired, open_⟩ := exists_of_allM_eq_none unanswered
      exact ⟨complete.1, complete.2, one, other, paired, open_⟩
    case isFalse => cases unanswered

/-- A step of a comparison that is left open has asked something that is left open. -/
theorem raises_of_compareNodes_eq_none {ask : RecordPointers → Handle → Handle → Option Bool}
    (unanswered : graph.compareNodes ask rule left right = none) :
    ∃ next, graph.Raises ⟨rule, left, right⟩ next ∧ ask next.rule next.left next.right = none := by
  unfold compareNodes at unanswered
  split at unanswered
  case h_4 leftThere rightThere =>
    obtain ⟨free, open_⟩ := open_of_comparePointees_eq_none unanswered
    exact ⟨_, .pointees leftThere rightThere free, open_⟩
  case h_5 leftThere rightThere =>
    rcases open_of_compareSignatures_eq_none unanswered with open_ | ⟨one, other, paired, open_⟩
    · exact ⟨_, .results leftThere rightThere, open_⟩
    · exact ⟨_, .parameters leftThere rightThere paired, open_⟩
  case h_6 leftThere rightThere =>
    obtain ⟨leftComplete, rightComplete, one, other, paired, open_⟩ :=
      open_of_compareRecords_eq_none unanswered
    exact ⟨_, .members leftThere rightThere leftComplete rightComplete paired, open_⟩
  all_goals cases unanswered

/-- A question that stays open with one more step raises one that is open already. -/
theorem raises_of_sameWithin_eq_none
    (unanswered : graph.sameWithin (steps + 1) rule left right = none) :
    ∃ next, graph.Raises ⟨rule, left, right⟩ next ∧ graph.answerWithin steps next = none := by
  rw [sameWithin_succ] at unanswered
  split at unanswered
  case isTrue => cases unanswered
  case isFalse => exact raises_of_compareNodes_eq_none unanswered

/-- Where answers with a step more are left open only by open questions that they raise, a
question that stays open is the first of a chain as long as the steps. -/
theorem exists_chain_of_open {answers : Nat → Question → Option Bool}
    (raises : ∀ {steps question}, answers (steps + 1) question = none →
      ∃ next, graph.Raises question next ∧ answers steps next = none)
    (unanswered : answers steps question = none) :
    ∃ chain : List Question, chain.length = steps ∧
      (question :: chain).IsChain graph.Raises := by
  induction steps generalizing question with
  | zero => exact ⟨[], rfl, .singleton question⟩
  | succ steps inductionHypothesis =>
    obtain ⟨next, raised, open_⟩ := raises unanswered
    obtain ⟨chain, length, linked⟩ := inductionHypothesis open_
    exact ⟨next :: chain, by rw [List.length_cons, length], .cons_cons raised linked⟩

/-- A question is about types of the graph. -/
def Asked (graph : Graph) (question : Question) : Prop :=
  question.left.index < graph.size ∧ question.right.index < graph.size

/-- The types of a question that is raised are parts of the types of the one that
raises it. -/
theorem Raises.parts (raises : graph.Raises question next) :
    next.left ∈ (graph.node question.left).parts ∧
      next.right ∈ (graph.node question.right).parts := by
  cases raises with
  | pointees leftThere rightThere => simp [leftThere, rightThere, Node.parts]
  | results leftThere rightThere => simp [leftThere, rightThere, Node.parts]
  | parameters leftThere rightThere paired =>
    obtain ⟨one, other⟩ := List.of_mem_zip paired
    rw [leftThere, rightThere]
    exact ⟨List.mem_cons_of_mem _ (List.mem_map_of_mem one),
      List.mem_cons_of_mem _ (List.mem_map_of_mem other)⟩
  | members leftThere rightThere _ _ paired =>
    obtain ⟨one, other⟩ := List.of_mem_zip paired
    rw [leftThere, rightThere]
    exact ⟨List.mem_append_left _ (List.mem_map_of_mem one),
      List.mem_append_left _ (List.mem_map_of_mem other)⟩

/-- Questions that are raised are about types of the graph. -/
theorem Raises.asked (ordered : graph.Ordered) (raises : graph.Raises question next) :
    graph.Asked next :=
  ⟨ordered.present raises.parts.1, ordered.present raises.parts.2⟩

/-- A question that still follows pointers to records is raised by such a question,
and its left type is earlier. -/
theorem Raises.earlier (ordered : graph.Ordered) (raises : graph.Raises question next)
    (rule : next.rule = .followed) :
    question.rule = .followed ∧ next.left.index < question.left.index := by
  have part : next.left ∈ (graph.node question.left).parts := raises.parts.1
  cases raises with
  | pointees leftThere => exact ⟨rule, ordered.earlier (by simp [leftThere]) part⟩
  | results leftThere => exact ⟨rule, ordered.earlier (by simp [leftThere]) part⟩
  | parameters leftThere => exact ⟨rule, ordered.earlier (by simp [leftThere]) part⟩
  | members => cases rule

/-- A question that compares pointers to records where they point raises such
questions only, and if they raise further ones, following its left type leads to
theirs. Only a pointer to a record would be compared further without being
followed, and it is compared with a pointer to something else, which ends there. -/
theorem Raises.follows (reachable : graph.Reachable) (raises : graph.Raises question next)
    (rule : question.rule = .identified) (goesOn : ∃ later, graph.Raises next later) :
    next.rule = .identified ∧ graph.Follows question.left next.left := by
  cases raises with
  | @pointees _ _ _ leftPointee rightPointee leftThere _ free =>
    refine ⟨rule, ?_⟩
    have solid : ¬ (graph.node leftPointee).isRecord = true := by
      intro leftRecord
      obtain ⟨contents, there⟩ := Node.isRecord_iff.mp leftRecord
      obtain ⟨later, raises⟩ := goesOn
      cases raises with
      | pointees other => simp [there] at other
      | results other => simp [there] at other
      | parameters other => simp [there] at other
      | members _ rightRecord =>
        exact free ⟨rule, leftRecord, Node.isRecord_iff.mpr ⟨_, rightRecord⟩⟩
    simp [Follows, followed, leftThere, solid]
  | results leftThere =>
    refine ⟨rule, ?_⟩
    simp [Follows, followed, leftThere]
  | parameters leftThere _ paired =>
    refine ⟨rule, ?_⟩
    simp only [Follows, followed, leftThere]
    exact List.mem_cons_of_mem _ (List.mem_map_of_mem (List.of_mem_zip paired).1)
  | @members _ _ _ leftRecord _ _ _ leftThere _ leftComplete _ paired =>
    refine ⟨rfl, ?_⟩
    have final : leftRecord.isFinalized = true := by
      rw [reachable.isFinalized_eq leftThere, leftComplete]
      rfl
    simp only [Follows, followed, leftThere, final, if_true]
    exact List.mem_map_of_mem (List.of_mem_zip paired).1

/-- Along questions that still follow pointers to records the left types come
earlier and earlier. -/
theorem path_followed (ordered : graph.Ordered) {last : Question}
    (path : TransGen graph.Raises question last) (rule : last.rule = .followed) :
    question.rule = .followed ∧ last.left.index < question.left.index := by
  induction path with
  | single raises => exact raises.earlier ordered rule
  | tail _ raises inductionHypothesis =>
    obtain ⟨ruleBefore, earlier⟩ := raises.earlier ordered rule
    obtain ⟨ruleFirst, earlierStill⟩ := inductionHypothesis ruleBefore
    exact ⟨ruleFirst, Nat.lt_trans earlier earlierStill⟩

/-- Along questions that compare pointers to records where they point the left
types are a path of following. -/
theorem path_identified (reachable : graph.Reachable) {last : Question}
    (path : TransGen graph.Raises question last) (rule : question.rule = .identified)
    (goesOn : ∃ later, graph.Raises last later) :
    last.rule = .identified ∧ TransGen graph.Follows question.left last.left := by
  induction path with
  | single raises =>
    obtain ⟨ruleLast, follows⟩ := raises.follows reachable rule goesOn
    exact ⟨ruleLast, .single follows⟩
  | @tail middle last _ raises inductionHypothesis =>
    obtain ⟨ruleMiddle, followed⟩ := inductionHypothesis ⟨last, raises⟩
    obtain ⟨ruleLast, follows⟩ := raises.follows reachable ruleMiddle goesOn
    exact ⟨ruleLast, followed.tail follows⟩

/-- No question raises itself in a reachable graph without records that reach
themselves by value through a function type. -/
theorem Reachable.raises_acyclic (reachable : graph.Reachable)
    (straight : ∀ type, ¬ graph.LoopsThroughFunction type) (question : Question) :
    ¬ TransGen graph.Raises question question := by
  intro loop
  cases rule : question.rule with
  | followed =>
    have earlier : question.left.index < question.left.index :=
      (path_followed reachable.ordered loop rule).2
    exact Nat.lt_irrefl _ earlier
  | identified =>
    obtain ⟨next, raises, _⟩ := TransGen.head'_iff.mp loop
    have back : TransGen graph.Follows question.left question.left :=
      (path_identified reachable loop rule ⟨next, raises⟩).2
    exact reachable.follows_acyclic straight question.left back

/-- Questions in a chain below one about the graph are about the graph. -/
theorem asked_of_chain (ordered : graph.Ordered) {chain : List Question}
    (linked : (question :: chain).IsChain graph.Raises) :
    ∀ raised ∈ chain, graph.Asked raised := by
  induction chain generalizing question with
  | nil => exact fun _ absent => absurd absent List.not_mem_nil
  | cons first rest inductionHypothesis =>
    obtain ⟨raises, others⟩ := List.isChain_cons_cons.mp linked
    exact List.forall_mem_cons.mpr ⟨raises.asked ordered, inductionHypothesis others⟩

/-- There are two questions for each pair of types of the graph, one under either rule. -/
theorem length_le_questions {questions : List Question} (distinct : questions.Nodup)
    (about : ∀ asked ∈ questions, graph.Asked asked) :
    questions.length ≤ 2 * (graph.size * graph.size) := by
  let label (question : Question) : RecordPointers × ℕ × ℕ :=
    (question.rule, question.left.index, question.right.index)
  have faithful : Function.Injective label := by
    rintro ⟨rule, ⟨left⟩, ⟨right⟩⟩ ⟨rule', ⟨left'⟩, ⟨right'⟩⟩ same
    simpa [label] using same
  let labels : Finset (RecordPointers × ℕ × ℕ) :=
    {.followed, .identified} ×ˢ Finset.range graph.size ×ˢ Finset.range graph.size
  have few : labels.card = 2 * (graph.size * graph.size) := by
    simp [labels, Finset.card_product]
  have labelled : (questions.map label).Nodup := distinct.map faithful
  rw [← few, ← List.length_map label, ← List.toFinset_card_of_nodup labelled]
  apply Finset.card_le_card
  intro name listed
  obtain ⟨asked, within, rfl⟩ := List.mem_map.mp (List.mem_toFinset.mp listed)
  obtain ⟨leftInside, rightInside⟩ := about asked within
  cases rule : asked.rule <;> simp [label, labels, rule, leftInside, rightInside]

/-- The steps provided are more than there are questions to ask. -/
theorem questions_lt_comparisonSteps (graph : Graph) :
    2 * (graph.size * graph.size) < graph.comparisonSteps := by
  have fewer : graph.size * graph.size < (graph.size + 1) * (graph.size + 1) :=
    Nat.mul_self_lt_mul_self (Nat.lt_succ_self _)
  unfold comparisonSteps
  rw [Nat.mul_assoc]
  omega

/-- Different questions that each raise the next are fewer than the steps provided. -/
theorem chain_length_lt_steps (ordered : graph.Ordered) (asked : graph.Asked question)
    {chain : List Question} (linked : (question :: chain).IsChain graph.Raises)
    (distinct : (question :: chain).Nodup) : chain.length < graph.comparisonSteps := by
  have about : ∀ raised ∈ question :: chain, graph.Asked raised :=
    List.forall_mem_cons.mpr ⟨asked, asked_of_chain ordered linked⟩
  calc chain.length < (question :: chain).length := Nat.lt_succ_self _
    _ ≤ 2 * (graph.size * graph.size) := length_le_questions distinct about
    _ < graph.comparisonSteps := graph.questions_lt_comparisonSteps

/-- The steps provided are more than a chain of questions can be long, so that no question of
the graph is left open by then. -/
theorem Reachable.answered_of_raises (reachable : graph.Reachable)
    (straight : ∀ type, ¬ graph.LoopsThroughFunction type) (asked : graph.Asked question)
    {answers : Nat → Question → Option Bool}
    (raises : ∀ {steps question}, answers (steps + 1) question = none →
      ∃ next, graph.Raises question next ∧ answers steps next = none) :
    ∃ answer, answers graph.comparisonSteps question = some answer := by
  rw [← Option.isSome_iff_exists, Option.isSome_iff_ne_none]
  intro unanswered
  obtain ⟨chain, length, linked⟩ := exists_chain_of_open raises unanswered
  have distinct : (question :: chain).Nodup :=
    nodup_of_acyclic (reachable.raises_acyclic straight) linked
  have short : chain.length < graph.comparisonSteps :=
    chain_length_lt_steps reachable.ordered asked linked distinct
  rw [length] at short
  exact Nat.lt_irrefl _ short

/-- The steps provided are enough to answer every question, under either rule, and the answer is
the same with more. -/
theorem Reachable.answered (reachable : graph.Reachable)
    (straight : ∀ type, ¬ graph.LoopsThroughFunction type) (asked : graph.Asked question) :
    ∃ answer, ∀ steps, graph.comparisonSteps ≤ steps →
      graph.answerWithin steps question = some answer := by
  obtain ⟨answer, given⟩ : ∃ answer, graph.answerWithin graph.comparisonSteps question =
      some answer :=
    reachable.answered_of_raises straight asked raises_of_sameWithin_eq_none
  exact ⟨answer, fun _ enough => sameWithin_agree enough given⟩

/-- In a reachable graph without records that reach themselves by value through a
function type every comparison of its types ends, with the same answer however
many steps beyond those provided it may take, and being the same type is
reflexive, symmetric and transitive. -/
theorem Reachable.sameType_equivalence (reachable : graph.Reachable)
    (straight : ∀ type, ¬ graph.LoopsThroughFunction type) :
    (∀ left right : Handle, left.index < graph.size → right.index < graph.size →
        ∀ steps, graph.comparisonSteps ≤ steps →
          graph.sameWithin steps .followed left right = some (graph.sameType left right)) ∧
      (∀ type, graph.sameType type type = true) ∧
      (∀ left right, graph.sameType left right = graph.sameType right left) ∧
      (∀ left middle right, graph.sameType left middle = true →
        graph.sameType middle right = true → graph.sameType left right = true) := by
  refine ⟨?ends, ?reflexive, ?symmetric, ?transitive⟩
  case ends =>
    intro left right leftInside rightInside steps enough
    have asked : graph.Asked ⟨.followed, left, right⟩ := ⟨leftInside, rightInside⟩
    obtain ⟨answer, answered⟩ := reachable.answered straight asked
    have given : graph.sameWithin graph.comparisonSteps .followed left right = some answer :=
      answered _ (Nat.le_refl _)
    rw [sameType, given, Option.getD_some]
    exact answered steps enough
  case reflexive =>
    intro type
    rw [sameType_eq_true_iff, comparisonSteps, Nat.mul_succ]
    exact confirmed_succ_iff.mpr (Or.inl rfl)
  case symmetric =>
    intro left right
    rw [Bool.eq_iff_iff, sameType_eq_true_iff, sameType_eq_true_iff]
    exact ⟨.symm, .symm⟩
  case transitive =>
    intro left middle right early late
    rw [sameType_eq_true_iff] at early late ⊢
    exact early.trans late

end Graph

/-- The outermost struct, of 56 bytes, points to itself and to a function of the innermost one,
and neither leads back. Comparing it with the struct it holds ends, and says that they are
different. -/
theorem nested_sameType_equivalence :
    nestedGraph.Reachable ∧ (∀ type, ¬ nestedGraph.LoopsThroughFunction type) ∧
      nestedGraph.finalizedRecord ⟨4⟩ = .ok nestedRecord ∧ nestedGraph.byteSize ⟨4⟩ = .ok 56 ∧
      nestedGraph.sameType ⟨4⟩ ⟨3⟩ = false ∧
      (∀ steps, nestedGraph.comparisonSteps ≤ steps →
        nestedGraph.sameWithin steps .followed ⟨4⟩ ⟨3⟩ = some (nestedGraph.sameType ⟨4⟩ ⟨3⟩)) ∧
      ∀ left middle right, nestedGraph.sameType left middle = true →
        nestedGraph.sameType middle right = true → nestedGraph.sameType left right = true := by
  have straight : ∀ type, ¬ nestedGraph.LoopsThroughFunction type :=
    Graph.not_loopsThroughFunction_of_rank
      (fun type => [0, 0, 1, 2, 4, 0, 0, 2, 3].getD type.index 0) (by decide +kernel)
  obtain ⟨ends, _, _, transitive⟩ := nestedGraph_reachable.sameType_equivalence straight
  exact ⟨nestedGraph_reachable, straight, by decide +kernel, by decide +kernel,
    by decide +kernel, ends ⟨4⟩ ⟨3⟩ (by decide +kernel) (by decide +kernel), transitive⟩

end CTypeGraph
