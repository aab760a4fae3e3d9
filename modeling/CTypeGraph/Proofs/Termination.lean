import CTypeGraph.Proofs.Equivalence

/-!
# Comparisons come to an end

Comparing two types is a recursion without a measure that could be read off the
handles: a record may have members of later types, and types may lead back to
themselves. What ends it is said here in three parts.

Paths of following that meet no function never lead back, in any reachable graph.
From anything but a record they lead to earlier types and never to a record again,
and between records they consist of holding by value, which goes back to the order
in which records were finalized. So the way back can only be through a function,
and where there is none, every question has finitely many questions below it.

The number of steps that a comparison is given plays no part in this. From the
number provided on, more steps give no more answers, in any graph whatever, because
an answer that comes with one step more needs another that has just come, and
there are only so many questions. A comparison that is not answered by then is one
that goes on forever, and `looped_comparison_unending` is an example of it.
-/

namespace CTypeGraph

open Relation

namespace Graph

variable {graph : Graph} {steps more : Nat} {question : Question} {type : Handle}

/-! ## Paths without a function -/

/-- Following leads from the first type, which is no function, to the second. -/
def FollowsPlainly (graph : Graph) (type next : Handle) : Prop :=
  graph.Follows type next ∧ ∀ signature, graph.node type ≠ .function signature

/-- A plain step starts at a finalized record or at a pointer, and the pointee is no
record. -/
theorem FollowsPlainly.cases {next : Handle} (follows : graph.FollowsPlainly type next) :
    (∃ contents, graph.node type = .record contents ∧ contents.isFinalized = true) ∨
      graph.node type = .pointer next ∧ (graph.node next).isRecord = false := by
  obtain ⟨follows, noFunction⟩ := follows
  cases there : graph.node type with
  | function signature => exact absurd there (noFunction signature)
  | record contents =>
    cases final : contents.isFinalized with
    | true => exact Or.inl ⟨contents, rfl, final⟩
    | false => simp [Follows, followed, there, final] at follows
  | pointer pointee =>
    simp only [Follows, followed, there] at follows
    split at follows
    case isTrue => cases follows
    case isFalse solid =>
      obtain rfl := List.mem_singleton.mp follows
      exact Or.inr ⟨rfl, Bool.not_eq_true _ ▸ solid⟩
  | void | basic | enumeration | array => simp [Follows, followed, there] at follows

/-- A plain path from anything but a record leads to an earlier type. -/
theorem plain_path_earlier (ordered : graph.Ordered) {start finish : Handle}
    (path : TransGen graph.FollowsPlainly start finish)
    (solid : (graph.node start).isRecord = false) :
    finish.index < start.index ∧ (graph.node finish).isRecord = false := by
  have step : ∀ {type next : Handle}, graph.FollowsPlainly type next →
      (graph.node type).isRecord = false →
      next.index < type.index ∧ (graph.node next).isRecord = false := by
    intro type next follows solid
    rcases follows.cases with ⟨contents, there, _⟩ | ⟨there, pointee⟩
    · simp [there, Node.isRecord] at solid
    · exact ⟨ordered.earlier (by simp [there]) (by simp [there, Node.parts]), pointee⟩
  induction path with
  | single follows => exact step follows solid
  | tail _ follows inductionHypothesis =>
    obtain ⟨earlier, solidMiddle⟩ := step follows inductionHypothesis.2
    exact ⟨Nat.lt_trans earlier inductionHypothesis.1, solidMiddle⟩

/-- A plain path to a record consists of holding by value: once it has come to a
pointer it never meets a record again. -/
theorem plain_path_holds {start finish : Handle}
    (path : TransGen graph.FollowsPlainly start finish)
    (record : (graph.node finish).isRecord = true) : TransGen graph.Holds start finish := by
  have step : ∀ {type next : Handle}, graph.FollowsPlainly type next →
      (graph.node next).isRecord = true →
      graph.Holds type next ∧ (graph.node type).isRecord = true := by
    intro type next follows record
    rcases follows.cases with ⟨contents, there, _⟩ | ⟨_, solid⟩
    · exact ⟨follows.1.holds there, Node.isRecord_iff.mpr ⟨contents, there⟩⟩
    · simp [solid] at record
  induction path with
  | single follows => exact .single (step follows record).1
  | tail _ follows inductionHypothesis =>
    obtain ⟨holds, recordBefore⟩ := step follows record
    exact (inductionHypothesis recordBefore).tail holds

/-- In a reachable graph a path without a function never leads back. -/
theorem Reachable.plain_acyclic (reachable : graph.Reachable) (type : Handle) :
    ¬ TransGen graph.FollowsPlainly type type := by
  intro loop
  cases kind : (graph.node type).isRecord with
  | false => exact Nat.lt_irrefl _ (plain_path_earlier reachable.ordered loop kind).1
  | true =>
    obtain ⟨next, follows, _⟩ := TransGen.head'_iff.mp loop
    rcases follows.cases with ⟨contents, there, final⟩ | ⟨there, _⟩
    · exact (reachable.record_grounded there final).not_holds_self (plain_path_holds loop kind)
    · simp [there, Node.isRecord] at kind

/-! ## Questions below a question -/

/-- Where chains below a question are bounded in length, the questions below it are
well founded. -/
theorem acc_of_bounded_chains {bound : Nat}
    (bounded : ∀ chain : List Question, (question :: chain).IsChain graph.Raises →
      chain.length < bound) :
    Acc (fun next question => graph.Raises question next) question := by
  induction bound generalizing question with
  | zero => exact absurd (bounded [] (.singleton question)) (Nat.not_lt_zero _)
  | succ bound inductionHypothesis =>
    refine ⟨question, fun next raises => inductionHypothesis fun chain linked => ?_⟩
    have longer : (next :: chain).length < bound + 1 :=
      bounded (next :: chain) (.cons_cons raises linked)
    exact Nat.lt_of_succ_lt_succ longer

/-- In a reachable graph without records that reach themselves by value through a
function type the questions below each question about the graph are well founded. -/
theorem Reachable.raises_acc (reachable : graph.Reachable)
    (straight : ∀ type, ¬ graph.LoopsThroughFunction type) (asked : graph.Asked question) :
    Acc (fun next question => graph.Raises question next) question :=
  acc_of_bounded_chains fun _ linked =>
    chain_length_lt_steps reachable.ordered asked linked
      (nodup_of_acyclic (reachable.raises_acyclic straight) linked)

/-! ## Enough steps -/

/-- An answer is still there with one step more. -/
theorem answer_kept {answer : Bool} (answered : graph.answerWithin steps question = some answer) :
    graph.answerWithin (steps + 1) question = some answer :=
  sameWithin_agree (Nat.le_succ steps) answered

/-- A question that is open with one step more was open before. -/
theorem open_before (unanswered : graph.answerWithin (steps + 1) question = none) :
    graph.answerWithin steps question = none := by
  cases answer : graph.answerWithin steps question with
  | none => rfl
  | some same =>
    rw [answer_kept answer] at unanswered
    cases unanswered

/-- From this number of steps on, more steps give no more answers. -/
def StableFrom (graph : Graph) (steps : Nat) : Prop :=
  ∀ more, steps ≤ more → ∀ question, graph.answerWithin more question =
    graph.answerWithin steps question

/-- Answers with one step more are made from the answers before, so two numbers of
steps with the same answers have the same answers after one step more. -/
theorem answerWithin_succ_congr
    (same : ∀ question, graph.answerWithin steps question = graph.answerWithin more question)
    (question : Question) :
    graph.answerWithin (steps + 1) question = graph.answerWithin (more + 1) question := by
  have unpacked : graph.sameWithin steps = graph.sameWithin more := by
    funext rule left right
    exact same ⟨rule, left, right⟩
  simp only [answerWithin, sameWithin_succ, unpacked]

/-- When one step more gives no more answers, no number of steps does. -/
theorem stableFrom_of_succ
    (same : ∀ question,
      graph.answerWithin (steps + 1) question = graph.answerWithin steps question) :
    graph.StableFrom steps := by
  intro more enough
  induction more, enough using Nat.le_induction with
  | base => exact fun _ => rfl
  | succ more _ inductionHypothesis =>
    intro question
    exact (answerWithin_succ_congr inductionHypothesis question).trans (same question)

/-- Stability lasts. -/
theorem StableFrom.later (stable : graph.StableFrom steps) (enough : steps ≤ more) :
    graph.StableFrom more :=
  fun further beyond question =>
    (stable further (Nat.le_trans enough beyond) question).trans (stable more enough question).symm

/-- A question about a handle that the graph has not is answered with the first step. -/
theorem asked_of_open (positive : 0 < steps)
    (unanswered : graph.answerWithin steps question = none) : graph.Asked question := by
  obtain ⟨before, rfl⟩ : ∃ before, steps = before + 1 := ⟨steps - 1, by omega⟩
  obtain ⟨next, raises, _⟩ := raises_of_sameWithin_eq_none unanswered
  have inside : ∀ {handle part : Handle}, part ∈ (graph.node handle).parts →
      handle.index < graph.size := by
    intro handle part mentioned
    apply present_of_node
    intro outside
    simp [outside, Node.parts] at mentioned
  exact ⟨inside raises.parts.1, inside raises.parts.2⟩

/-- The questions that a number of steps leaves open, up to a bound on their number. -/
def OpenAtMost (graph : Graph) (steps bound : Nat) : Prop :=
  ∀ questions : List Question, questions.Nodup →
    (∀ question ∈ questions, graph.answerWithin steps question = none) → questions.length ≤ bound

/-- Either one step more changes nothing, or it answers a question that was open
and leaves one less. -/
theorem OpenAtMost.stableFrom {bound : Nat} (few : graph.OpenAtMost steps bound) :
    graph.StableFrom (steps + bound) := by
  induction bound generalizing steps with
  | zero =>
    refine stableFrom_of_succ fun question => ?_
    cases answer : graph.answerWithin steps question with
    | none => exact absurd (few [question] (by simp) (by simpa using answer)) (by simp)
    | some same => exact answer_kept answer
  | succ bound inductionHypothesis =>
    -- A question whose answer comes with the next step was open, and is open no more.
    by_cases same : ∀ question,
        graph.answerWithin (steps + 1) question = graph.answerWithin steps question
    · exact (stableFrom_of_succ same).later (Nat.le_add_right _ _)
    · obtain ⟨settled, changed⟩ := not_forall.mp same
      have wasOpen : graph.answerWithin steps settled = none := by
        cases answer : graph.answerWithin steps settled with
        | none => rfl
        | some same => exact absurd ((answer_kept answer).trans answer.symm) changed
      have fewer : graph.OpenAtMost (steps + 1) bound := by
        intro questions distinct unanswered
        have new : settled ∉ questions := fun within =>
          changed ((unanswered settled within).trans wasOpen.symm)
        have longer : (settled :: questions).length ≤ bound + 1 :=
          few (settled :: questions) (List.nodup_cons.mpr ⟨new, distinct⟩)
            (List.forall_mem_cons.mpr
              ⟨wasOpen, fun other within => open_before (unanswered other within)⟩)
        exact Nat.le_of_succ_le_succ longer
      rw [Nat.add_comm bound, ← Nat.add_assoc]
      exact inductionHypothesis fewer

/-- From the steps provided on, more steps give no more answers. -/
theorem stableFrom_comparisonSteps (graph : Graph) : graph.StableFrom graph.comparisonSteps := by
  have few : graph.OpenAtMost 1 (2 * (graph.size * graph.size)) := by
    intro questions distinct unanswered
    exact length_le_questions distinct fun question within =>
      asked_of_open Nat.one_pos (unanswered question within)
  refine few.stableFrom.later ?_
  rw [Nat.add_comm]
  exact graph.questions_lt_comparisonSteps

/-- A comparison that ends with any number of steps ends with those provided. -/
theorem sameWithin_comparisonSteps {rule : RecordPointers} {left right : Handle} {answer : Bool}
    (answered : graph.sameWithin steps rule left right = some answer) :
    graph.sameWithin graph.comparisonSteps rule left right = some answer := by
  rcases Nat.le_total steps graph.comparisonSteps with few | enough
  · exact sameWithin_agree few answered
  · rw [← answered]
    exact (graph.stableFrom_comparisonSteps steps enough ⟨rule, left, right⟩).symm

/-- A comparison that the steps provided leave open goes on forever. -/
theorem sameWithin_eq_none {rule : RecordPointers} {left right : Handle}
    (unanswered : graph.sameWithin graph.comparisonSteps rule left right = none) (steps : Nat) :
    graph.sameWithin steps rule left right = none := by
  rw [Option.eq_none_iff_forall_ne_some]
  intro answer answered
  rw [sameWithin_comparisonSteps answered] at unanswered
  cases unanswered

/-- With the steps provided the answer yes is made from answers with the steps provided, so
that the number of steps can be left out of account: types are the same exactly when they are
one type, or their nodes are alike by what is the same. -/
theorem confirmed_iff {rule : RecordPointers} {left right : Handle} :
    graph.Confirmed graph.comparisonSteps rule left right ↔
      left = right ∨ graph.Alike (graph.Confirmed graph.comparisonSteps) rule
        (graph.node left) (graph.node right) := by
  rw [← confirmed_succ_iff]
  exact ⟨sameWithin_agree (Nat.le_succ _), sameWithin_comparisonSteps⟩

/-- A type compares as the same as itself. -/
theorem confirmed_self {rule : RecordPointers} :
    graph.Confirmed graph.comparisonSteps rule type type :=
  confirmed_iff.mpr (Or.inl rfl)

/-- A node is alike to itself. -/
theorem alike_self {rule : RecordPointers} (node : Node) :
    graph.Alike (graph.Confirmed graph.comparisonSteps) rule node node := by
  cases node with
  | void => exact .void
  | basic => exact .basic
  | enumeration => exact .enumeration
  | pointer pointee =>
    by_cases fixed : graph.Fixed rule pointee pointee
    · exact .samePlace fixed
    · exact .pointees fixed confirmed_self
  | function signature =>
    exact .functions confirmed_self rfl (List.forall₂_same.mpr fun _ _ => confirmed_self)
  | record contents =>
    cases incomplete : contents.incomplete with
    | true => exact .openRecords incomplete incomplete
    | false =>
      exact .records incomplete incomplete (List.forall₂_same.mpr fun _ _ => confirmed_self)
  | array => exact .arrays

/-- Types are the same exactly when their nodes are alike by what is the same. That a type is
the same as itself needs no mention. -/
theorem confirmed_iff_alike {rule : RecordPointers} {left right : Handle} :
    graph.Confirmed graph.comparisonSteps rule left right ↔
      graph.Alike (graph.Confirmed graph.comparisonSteps) rule
        (graph.node left) (graph.node right) := by
  rw [confirmed_iff]
  constructor
  · rintro (rfl | alike)
    · exact alike_self _
    · exact alike
  · exact Or.inr

/-- Whether two types are the same is what a comparison of them says that ends. -/
theorem sameType_eq_of_answered {left right : Handle} {answer : Bool}
    (answered : graph.sameWithin steps .followed left right = some answer) :
    graph.sameType left right = answer := by
  rw [sameType, sameWithin_comparisonSteps answered, Option.getD_some]

/-- In a reachable graph paths without a function never lead back. If no record
reaches itself by value through a function type, every comparison of types of the
graph comes to an end: the questions below it are well founded, and from the steps
provided on it has one answer. In any case a comparison that ends with any number
of steps has the answer that is given. -/
theorem Reachable.sameType_terminates (reachable : graph.Reachable) :
    (∀ type, ¬ TransGen graph.FollowsPlainly type type) ∧
      ((∀ type, ¬ graph.LoopsThroughFunction type) →
        ∀ left right : Handle, left.index < graph.size → right.index < graph.size →
          Acc (fun next question => graph.Raises question next) ⟨.followed, left, right⟩ ∧
            ∀ steps, graph.comparisonSteps ≤ steps →
              graph.sameWithin steps .followed left right = some (graph.sameType left right)) ∧
      ∀ left right steps answer, graph.sameWithin steps .followed left right = some answer →
        graph.sameType left right = answer := by
  refine ⟨reachable.plain_acyclic, ?ends, fun _ _ _ _ => sameType_eq_of_answered⟩
  case ends =>
    intro straight left right leftInside rightInside
    have asked : graph.Asked ⟨.followed, left, right⟩ := ⟨leftInside, rightInside⟩
    refine ⟨reachable.raises_acc straight asked, fun steps enough => ?_⟩
    obtain ⟨answer, answered⟩ := reachable.answered straight asked
    rw [sameType_eq_of_answered (answered steps enough)]
    exact answered steps enough

end Graph

/-! ## Two structs that point at each other -/

/-- The types are, in order: two structs, the pointers to them, the pointer to the
first pointer, a function that takes one pointer and gives the other, and the
pointer to it. Either struct holds a pointer to itself, one to the other struct,
and the last two pointers. -/
def linkedGraph : Graph :=
  (Graph.empty .lp64).after
    [.makeRecord false, .makeRecord false, .internPointer ⟨0⟩, .internPointer ⟨1⟩,
      .internPointer ⟨2⟩, .makeFunction ⟨⟨3⟩, [⟨none, ⟨2⟩⟩], false⟩, .internPointer ⟨5⟩,
      .addMember ⟨0⟩ (some "next") ⟨2⟩ default, .addMember ⟨0⟩ (some "other") ⟨3⟩ default,
      .addMember ⟨0⟩ (some "last") ⟨4⟩ default, .addMember ⟨0⟩ (some "visit") ⟨6⟩ default,
      .addMember ⟨1⟩ (some "other") ⟨2⟩ default, .addMember ⟨1⟩ (some "next") ⟨3⟩ default,
      .addMember ⟨1⟩ (some "last") ⟨4⟩ default, .addMember ⟨1⟩ (some "visit") ⟨6⟩ default,
      .finalize ⟨0⟩, .finalize ⟨1⟩]

/-- A history leads to the graph of the two structs that point at each other. -/
theorem linkedGraph_reachable : linkedGraph.Reachable :=
  ⟨.lp64, Graph.evolves_after (by decide +kernel)⟩

/-- No record is reached again through the function. -/
theorem linkedGraph_straight (type : Handle) : ¬ linkedGraph.LoopsThroughFunction type :=
  Graph.not_loopsThroughFunction_of_rank
    (fun type => [3, 3, 0, 0, 1, 1, 2].getD type.index 0) (by decide +kernel) type

/-- No record is reached again through the function, and comparing the two structs
ends, whichever way they point. -/
theorem linked_sameType_terminates :
    linkedGraph.Reachable ∧ (∀ type, ¬ linkedGraph.LoopsThroughFunction type) ∧
      Acc (fun next question => linkedGraph.Raises question next) ⟨.followed, ⟨0⟩, ⟨1⟩⟩ ∧
        (∀ steps, linkedGraph.comparisonSteps ≤ steps →
          linkedGraph.sameWithin steps .followed ⟨0⟩ ⟨1⟩ =
            some (linkedGraph.sameType ⟨0⟩ ⟨1⟩)) ∧
        linkedGraph.sameType ⟨0⟩ ⟨1⟩ = true := by
  obtain ⟨_, ends, given⟩ := linkedGraph_reachable.sameType_terminates
  obtain ⟨founded, answered⟩ :=
    ends linkedGraph_straight ⟨0⟩ ⟨1⟩ (by decide +kernel) (by decide +kernel)
  exact ⟨linkedGraph_reachable, linkedGraph_straight, founded, answered,
    given ⟨0⟩ ⟨1⟩ 3 true (by decide +kernel)⟩

/-! ## A comparison that never ends -/

/-- Two structs, each of which holds a pointer to a function that gives the struct
itself by value. -/
def loopedGraph : Graph :=
  (Graph.empty .lp64).after
    [.makeRecord false, .makeRecord false, .makeFunction ⟨⟨0⟩, [], false⟩, .internPointer ⟨2⟩,
      .makeFunction ⟨⟨1⟩, [], false⟩, .internPointer ⟨4⟩, .addMember ⟨0⟩ (some "copy") ⟨3⟩ default,
      .addMember ⟨1⟩ (some "copy") ⟨5⟩ default, .finalize ⟨0⟩, .finalize ⟨1⟩]

/-- Comparing the two structs comes back to comparing the two structs, so that no
number of steps is enough. If one were, those provided would be. That `sameType`
is `false` here says nothing else. -/
theorem looped_comparison_unending (steps : Nat) :
    loopedGraph.sameWithin steps .followed ⟨0⟩ ⟨1⟩ = none :=
  Graph.sameWithin_eq_none (by decide +kernel) steps

end CTypeGraph
