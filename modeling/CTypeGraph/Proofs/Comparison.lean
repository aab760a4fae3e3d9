import CTypeGraph.Graph.Sameness
import CTypeGraph.Proofs.Descent
import Mathlib.Data.List.Forall2

/-!
# What makes two types the same

The comparison of types is opened here, and the answer yes is stated as a relation.
`Alike` says what makes two nodes the same in terms of the answers for the types
they lead to, and it is exactly when a step of the comparison answers yes, whoever
answers the questions that come up. Being alike is
symmetric and transitive when being the same is, for both rules for pointers at
once, and so the answer yes within any number of steps is. Where pointees are
compared depends on whether both are records; since types that are the same are
both records or neither is, two comparisons in a row agree about it.
-/

namespace CTypeGraph

open Relation

/-- A test that may be left open answers yes for a list exactly when it answers yes
for each member. -/
theorem allM_eq_some_true_iff {α : Type} {test : α → Option Bool} {list : List α} :
    list.allM test = some true ↔ ∀ a ∈ list, test a = some true := by
  induction list with
  | nil => simp [List.allM]
  | cons head tail inductionHypothesis =>
    cases answer : test head with
    | none => simp [List.allM, answer]
    | some same => cases same <;> simp [List.allM, answer, inductionHypothesis]

/-- A test that is left open for a list is left open for one of its members. -/
theorem exists_of_allM_eq_none {α : Type} {test : α → Option Bool} {list : List α}
    (unanswered : list.allM test = none) : ∃ a ∈ list, test a = none := by
  induction list with
  | nil => simp [List.allM] at unanswered
  | cons head tail inductionHypothesis =>
    cases answer : test head with
    | none => exact ⟨head, List.mem_cons_self, answer⟩
    | some same =>
      cases same with
      | false => simp [List.allM, answer] at unanswered
      | true =>
        have later : tail.allM test = none := by simpa [List.allM, answer] using unanswered
        obtain ⟨a, within, open_⟩ := inductionHypothesis later
        exact ⟨a, List.mem_cons_of_mem head within, open_⟩

/-- A test that keeps the answers of another keeps its answers for lists. -/
theorem allM_agree {α : Type} {test later : α → Option Bool}
    (kept : ∀ a answer, test a = some answer → later a = some answer) {list : List α}
    {answer : Bool} (answered : list.allM test = some answer) :
    list.allM later = some answer := by
  induction list with
  | nil => exact answered
  | cons head tail inductionHypothesis =>
    cases first : test head with
    | none => simp [List.allM, first] at answered
    | some same =>
      have firstLater : later head = some same := kept head same first
      cases same with
      | false => simpa [List.allM, first, firstLater] using answered
      | true =>
        have others : tail.allM test = some answer := by simpa [List.allM, first] using answered
        simpa [List.allM, firstLater] using inductionHypothesis others

/-- Tests that agree on the members of a list give the same answer for the list. -/
theorem allM_congr {α : Type} {test other : α → Option Bool} {list : List α}
    (agree : ∀ a ∈ list, test a = other a) : list.allM test = list.allM other := by
  induction list with
  | nil => rfl
  | cons head tail inductionHypothesis =>
    obtain ⟨first, others⟩ := List.forall_mem_cons.mp agree
    simp only [List.allM, first, inductionHypothesis others]

/-- Whether the node is a record that is marked incomplete. -/
def Node.isUnfinished : Node → Bool
  | .record contents => contents.incomplete
  | .void | .basic _ | .enumeration | .pointer _ | .function _ | .array .. => false

/-- Unfinished nodes are those that hold an incomplete record. -/
theorem Node.isUnfinished_iff {node : Node} :
    node.isUnfinished = true ↔
      ∃ contents, node = .record contents ∧ contents.incomplete = true := by
  cases node <;> simp [isUnfinished]

/-- Relatedness of lists, member by member, is transitive when relatedness is. -/
theorem forall₂_trans {α : Type} {r : α → α → Prop} {first second third : List α}
    (early : List.Forall₂ r first second) (late : List.Forall₂ r second third)
    (transitive : ∀ a b c, r a b → r b c → r a c) : List.Forall₂ r first third := by
  induction early generalizing third with
  | nil => exact late
  | cons related _ inductionHypothesis =>
    cases late with
    | cons related' others =>
      exact .cons (transitive _ _ _ related related') (inductionHypothesis others)

namespace Graph

variable {graph : Graph}

/-- Whether two pointees are compared where they stand and not followed. -/
def Fixed (graph : Graph) (rule : RecordPointers) (left right : Handle) : Prop :=
  rule = .identified ∧ (graph.node left).isRecord = true ∧ (graph.node right).isRecord = true

/-- Pointees are followed when the case for two records does not apply to them. -/
theorem not_fixed_of_loose {rule : RecordPointers} {left right : Handle}
    (loose : ∀ leftRecord rightRecord, rule = .identified → graph.node left = .record leftRecord →
      graph.node right = .record rightRecord → False) : ¬ graph.Fixed rule left right := by
  rintro ⟨identified, leftRecord, rightRecord⟩
  obtain ⟨leftContents, leftThere⟩ := Node.isRecord_iff.mp leftRecord
  obtain ⟨rightContents, rightThere⟩ := Node.isRecord_iff.mp rightRecord
  exact loose leftContents rightContents identified leftThere rightThere

/-- Under the rule to follow pointers, pointees are followed. -/
theorem not_fixed_followed {left right : Handle} : ¬ graph.Fixed .followed left right := by
  rintro ⟨⟨⟩, _⟩

/-- Two nodes are alike under a rule for pointers, where `same` tells which types
are the same. -/
inductive Alike (graph : Graph) (same : RecordPointers → Handle → Handle → Prop)
    (rule : RecordPointers) : Node → Node → Prop
  | void : Alike graph same rule .void .void
  | enumeration : Alike graph same rule .enumeration .enumeration
  | basic {type : BasicType} : Alike graph same rule (.basic type) (.basic type)
  | samePlace {pointee : Handle} (fixed : graph.Fixed rule pointee pointee) :
      Alike graph same rule (.pointer pointee) (.pointer pointee)
  | bothIncomplete {left right : Handle} {leftRecord rightRecord : Record}
      (fixed : graph.Fixed rule left right) (leftThere : graph.node left = .record leftRecord)
      (rightThere : graph.node right = .record rightRecord)
      (leftOpen : leftRecord.incomplete = true) (rightOpen : rightRecord.incomplete = true) :
      Alike graph same rule (.pointer left) (.pointer right)
  | pointees {left right : Handle} (free : ¬ graph.Fixed rule left right)
      (pointees : same rule left right) : Alike graph same rule (.pointer left) (.pointer right)
  | functions {left right : Signature} (results : same rule left.result right.result)
      (variadic : left.variadic = right.variadic)
      (parameters : List.Forall₂ (fun one other => same rule one.type other.type)
        left.parameters right.parameters) :
      Alike graph same rule (.function left) (.function right)
  | openRecords {left right : Record} (leftOpen : left.incomplete = true)
      (rightOpen : right.incomplete = true) : Alike graph same rule (.record left) (.record right)
  | records {left right : Record} (leftComplete : left.incomplete = false)
      (rightComplete : right.incomplete = false)
      (members : List.Forall₂ (fun one other => same .identified one.type other.type)
        left.members right.members) : Alike graph same rule (.record left) (.record right)
  | arrays {left right : Handle} {count : UInt64} :
      Alike graph same rule (.array left count) (.array right count)

/-- The answer to a question is yes. -/
def Affirmed (ask : RecordPointers → Handle → Handle → Option Bool) (rule : RecordPointers)
    (left right : Handle) : Prop :=
  ask rule left right = some true

variable {ask : RecordPointers → Handle → Handle → Option Bool} {rule : RecordPointers}

/-- A pair of pointers is compared where it stands when that is the rule, and by
the pointees otherwise. -/
theorem comparePointees_eq_true_iff {left right : Handle} :
    graph.comparePointees ask rule left right = some true ↔
      graph.Alike (Affirmed ask) rule (.pointer left) (.pointer right) := by
  unfold comparePointees
  split
  case h_1 leftRecord rightRecord leftThere rightThere =>
    have fixed : graph.Fixed .identified left right :=
      ⟨rfl, Node.isRecord_iff.mpr ⟨_, leftThere⟩, Node.isRecord_iff.mpr ⟨_, rightThere⟩⟩
    simp only [Option.some.injEq, Bool.or_eq_true, decide_eq_true_eq, Bool.and_eq_true]
    constructor
    · rintro (rfl | ⟨leftOpen, rightOpen⟩)
      · exact .samePlace fixed
      · exact .bothIncomplete fixed leftThere rightThere leftOpen rightOpen
    · intro alike
      cases alike with
      | samePlace => exact Or.inl rfl
      | bothIncomplete _ leftThere' rightThere' leftOpen rightOpen =>
        rw [leftThere, Node.record.injEq] at leftThere'
        rw [rightThere, Node.record.injEq] at rightThere'
        subst leftThere' rightThere'
        exact Or.inr ⟨leftOpen, rightOpen⟩
      | pointees free => exact absurd fixed free
  case h_2 rule _ _ _ loose =>
    have free : ¬ graph.Fixed rule left right := not_fixed_of_loose loose
    constructor
    · intro pointees
      exact .pointees free pointees
    · intro alike
      cases alike with
      | samePlace fixed => exact absurd fixed free
      | bothIncomplete fixed => exact absurd fixed free
      | pointees _ pointees => exact pointees

/-- Functions are compared by result, variadic mark, number of parameters and
parameter types, under the rule in force. -/
theorem compareSignatures_eq_true_iff {left right : Signature} :
    compareSignatures (ask rule) left right = some true ↔
      graph.Alike (Affirmed ask) rule (.function left) (.function right) := by
  unfold compareSignatures
  constructor
  · intro yes
    obtain ⟨sameResult, results, rest⟩ := Option.bind_eq_some_iff.mp yes
    split at rest
    case isTrue agreed =>
      simp only [Bool.and_eq_true, beq_iff_eq] at agreed
      obtain ⟨⟨rfl, variadic⟩, lengths⟩ := agreed
      refine .functions results variadic (List.forall₂_iff_zip.mpr ⟨lengths, ?_⟩)
      intro one other paired
      exact allM_eq_some_true_iff.mp rest (one, other) paired
    case isFalse => cases rest
  · intro alike
    cases alike with
    | functions results variadic parameters =>
      obtain ⟨lengths, pairs⟩ := List.forall₂_iff_zip.mp parameters
      unfold Affirmed at results
      rw [results, Option.bind_some, if_pos (by simp [variadic, lengths])]
      exact allM_eq_some_true_iff.mpr fun pair paired => pairs paired

/-- Records are compared by completeness, and if both are complete by the number
and the types of their members, where pointers to records are no longer followed. -/
theorem compareRecords_eq_true_iff {left right : Record} :
    compareRecords (ask .identified) left right = some true ↔
      graph.Alike (Affirmed ask) rule (.record left) (.record right) := by
  unfold compareRecords
  constructor
  · intro yes
    split at yes
    case isTrue incomplete =>
      rw [Option.some.injEq, beq_iff_eq] at yes
      rw [yes, Bool.or_self] at incomplete
      exact .openRecords (yes.trans incomplete) incomplete
    case isFalse complete =>
      rw [Bool.or_eq_true, not_or, Bool.not_eq_true, Bool.not_eq_true] at complete
      split at yes
      case isTrue lengths =>
        refine .records complete.1 complete.2
          (List.forall₂_iff_zip.mpr ⟨beq_iff_eq.mp lengths, ?_⟩)
        intro one other paired
        exact allM_eq_some_true_iff.mp yes (one, other) paired
      case isFalse => cases yes
  · intro alike
    cases alike with
    | openRecords leftOpen rightOpen => simp [leftOpen, rightOpen]
    | records leftComplete rightComplete members =>
      obtain ⟨lengths, pairs⟩ := List.forall₂_iff_zip.mp members
      rw [if_neg (by simp [leftComplete, rightComplete]), if_pos (beq_iff_eq.mpr lengths)]
      exact allM_eq_some_true_iff.mpr fun pair paired => pairs paired

/-- A step of a comparison answers yes exactly for types whose nodes are alike by the answers
to the questions that come up. -/
theorem compareNodes_eq_true_iff {left right : Handle} :
    graph.compareNodes ask rule left right = some true ↔
      graph.Alike (Affirmed ask) rule (graph.node left) (graph.node right) := by
  unfold compareNodes
  split
  case h_1 leftThere rightThere =>
    rw [leftThere, rightThere]
    exact iff_of_true rfl .void
  case h_2 leftThere rightThere =>
    rw [leftThere, rightThere]
    exact iff_of_true rfl .enumeration
  case h_3 leftBasic rightBasic leftThere rightThere =>
    rw [leftThere, rightThere, Option.some.injEq, decide_eq_true_eq]
    constructor
    · rintro rfl
      exact .basic
    · rintro ⟨⟩
      rfl
  case h_4 leftPointee rightPointee leftThere rightThere =>
    rw [leftThere, rightThere]
    exact comparePointees_eq_true_iff
  case h_5 leftSignature rightSignature leftThere rightThere =>
    rw [leftThere, rightThere]
    exact compareSignatures_eq_true_iff
  case h_6 leftRecord rightRecord leftThere rightThere =>
    rw [leftThere, rightThere]
    exact compareRecords_eq_true_iff
  case h_7 leftElement leftCount rightElement rightCount leftThere rightThere =>
    rw [leftThere, rightThere, Option.some.injEq, beq_iff_eq]
    constructor
    · rintro rfl
      exact .arrays
    · rintro ⟨⟩
      rfl
  case h_8 _ _ voids enumerations basics pointers functions records arrays =>
    -- The nodes are of different kinds, and every way of being alike is about one kind.
    refine iff_of_false (by simp) fun alike => ?_
    generalize leftThere : graph.node left = leftNode at alike
    generalize rightThere : graph.node right = rightNode at alike
    cases alike with
    | void => exact voids leftThere rightThere
    | enumeration => exact enumerations leftThere rightThere
    | basic => exact basics _ _ leftThere rightThere
    | samePlace | bothIncomplete | pointees => exact pointers _ _ leftThere rightThere
    | functions => exact functions _ _ leftThere rightThere
    | openRecords | records => exact records _ _ leftThere rightThere
    | arrays => exact arrays _ _ _ _ leftThere rightThere

/-- The comparison says yes within a number of steps. -/
def Confirmed (graph : Graph) (steps : Nat) (rule : RecordPointers) (left right : Handle) : Prop :=
  graph.sameWithin steps rule left right = some true

variable {steps : Nat}

/-- A comparison looks at the two handles and, where they differ, at the nodes. -/
theorem sameWithin_succ {left right : Handle} :
    graph.sameWithin (steps + 1) rule left right =
      if left = right then some true
      else graph.compareNodes (graph.sameWithin steps) rule left right :=
  rfl

/-- With one more step the comparison answers yes exactly for one and the same type
and for types whose nodes are alike by the answers with the steps before. -/
theorem confirmed_succ_iff {left right : Handle} :
    graph.Confirmed (steps + 1) rule left right ↔
      left = right ∨
        graph.Alike (graph.Confirmed steps) rule (graph.node left) (graph.node right) := by
  rw [Confirmed, sameWithin_succ]
  by_cases one : left = right
  · rw [if_pos one]
    exact iff_of_true rfl (Or.inl one)
  · rw [if_neg one, or_iff_right one]
    exact compareNodes_eq_true_iff

namespace Alike

variable {same : RecordPointers → Handle → Handle → Prop} {first second third : Node}

/-- Nodes that are alike are both records or neither is. -/
theorem isRecord_eq (alike : graph.Alike same rule first second) :
    first.isRecord = second.isRecord := by
  cases alike <;> rfl

/-- Being alike is symmetric when being the same is. -/
theorem symm (symmetric : ∀ {rule left right}, same rule left right → same rule right left)
    (alike : graph.Alike same rule first second) : graph.Alike same rule second first := by
  cases alike with
  | void => exact .void
  | enumeration => exact .enumeration
  | basic => exact .basic
  | samePlace fixed => exact .samePlace fixed
  | bothIncomplete fixed leftThere rightThere leftOpen rightOpen =>
    exact .bothIncomplete ⟨fixed.1, fixed.2.2, fixed.2.1⟩ rightThere leftThere rightOpen leftOpen
  | pointees free pointees =>
    refine .pointees ?_ (symmetric pointees)
    intro fixed
    exact free ⟨fixed.1, fixed.2.2, fixed.2.1⟩
  | functions results variadic parameters =>
    exact .functions (symmetric results) variadic.symm
      (parameters.imp fun _ _ related => symmetric related).flip
  | openRecords leftOpen rightOpen => exact .openRecords rightOpen leftOpen
  | records leftComplete rightComplete members =>
    exact .records rightComplete leftComplete
      (members.imp fun _ _ related => symmetric related).flip
  | arrays => exact .arrays

/-- Being alike is transitive when being the same is, and when types that are the
same are both records or neither is. The last condition is for pointers: it keeps
the two ways of comparing pointees apart, so that one chain cannot use both. -/
theorem trans (transitive : ∀ {rule left middle right}, same rule left middle →
      same rule middle right → same rule left right)
    (sameKind : ∀ {rule left right}, same rule left right →
      (graph.node left).isRecord = (graph.node right).isRecord)
    (early : graph.Alike same rule first second) (late : graph.Alike same rule second third) :
    graph.Alike same rule first third := by
  cases early with
  | void => exact late
  | enumeration => exact late
  | basic => exact late
  | samePlace => exact late
  | @bothIncomplete left middle leftRecord middleRecord fixed leftThere middleThere leftOpen =>
    cases late with
    | samePlace => exact .bothIncomplete fixed leftThere middleThere leftOpen ‹_›
    | bothIncomplete fixed' _ rightThere _ rightOpen =>
      exact .bothIncomplete ⟨fixed.1, fixed.2.1, fixed'.2.2⟩ leftThere rightThere leftOpen rightOpen
    | pointees free pointees =>
      exact absurd ⟨fixed.1, fixed.2.2, sameKind pointees ▸ fixed.2.2⟩ free
  | @pointees left middle free pointees =>
    cases late with
    | samePlace => exact .pointees free pointees
    | bothIncomplete fixed' =>
      exact absurd ⟨fixed'.1, (sameKind pointees).symm ▸ fixed'.2.1, fixed'.2.1⟩ free
    | pointees free' pointees' =>
      refine .pointees ?_ (transitive pointees pointees')
      intro fixed
      exact free ⟨fixed.1, fixed.2.1, sameKind pointees ▸ fixed.2.1⟩
  | functions results variadic parameters =>
    cases late with
    | functions results' variadic' parameters' =>
      exact .functions (transitive results results') (variadic.trans variadic')
        (forall₂_trans parameters parameters' fun _ _ _ => transitive)
  | openRecords leftOpen middleOpen =>
    cases late with
    | openRecords _ rightOpen => exact .openRecords leftOpen rightOpen
    | records middleComplete => simp [middleOpen] at middleComplete
  | records leftComplete middleComplete members =>
    cases late with
    | openRecords middleOpen => simp [middleComplete] at middleOpen
    | records _ rightComplete members' =>
      exact .records leftComplete rightComplete
        (forall₂_trans members members' fun _ _ _ => transitive)
  | arrays =>
    cases late with
    | arrays => exact .arrays

end Alike

namespace Confirmed

variable {left middle right : Handle}

/-- Types that compare as the same are both records or neither is. -/
theorem isRecord_eq (same : graph.Confirmed steps rule left right) :
    (graph.node left).isRecord = (graph.node right).isRecord := by
  cases steps with
  | zero => cases same
  | succ steps =>
    rcases confirmed_succ_iff.mp same with rfl | alike
    · rfl
    · exact alike.isRecord_eq

/-- A comparison that says yes says yes the other way round, in as many steps. -/
theorem symm (same : graph.Confirmed steps rule left right) :
    graph.Confirmed steps rule right left := by
  induction steps generalizing rule left right with
  | zero => cases same
  | succ steps inductionHypothesis =>
    rw [confirmed_succ_iff] at same ⊢
    rcases same with rfl | alike
    · exact Or.inl rfl
    · exact Or.inr (alike.symm inductionHypothesis)

/-- Two comparisons that say yes in a row add up to one, in as many steps. A type
that is met twice makes one of the two comparisons the answer. -/
theorem trans (early : graph.Confirmed steps rule left middle)
    (late : graph.Confirmed steps rule middle right) : graph.Confirmed steps rule left right := by
  induction steps generalizing rule left middle right with
  | zero => cases early
  | succ steps inductionHypothesis =>
    rw [confirmed_succ_iff] at early late ⊢
    rcases early with rfl | earlyAlike
    · exact late
    · rcases late with rfl | lateAlike
      · exact Or.inr earlyAlike
      · exact Or.inr (earlyAlike.trans inductionHypothesis isRecord_eq lateAlike)

end Confirmed

/-- A record under construction is the same as the other records under construction, and
a first step says so. -/
theorem sameWithin_unfinished_left {left right : Handle} (different : left ≠ right)
    (unfinished : (graph.node left).isUnfinished = true) :
    graph.sameWithin (steps + 1) rule left right = some (graph.node right).isUnfinished := by
  obtain ⟨draft, there, incomplete⟩ := Node.isUnfinished_iff.mp unfinished
  rw [sameWithin_succ, if_neg different, compareNodes, there]
  cases graph.node right <;> simp [compareRecords, incomplete, Node.isUnfinished]

/-- The same with the record under construction on the right. -/
theorem sameWithin_unfinished_right {left right : Handle} (different : left ≠ right)
    (unfinished : (graph.node right).isUnfinished = true) :
    graph.sameWithin (steps + 1) rule left right = some (graph.node left).isUnfinished := by
  obtain ⟨draft, there, incomplete⟩ := Node.isUnfinished_iff.mp unfinished
  rw [sameWithin_succ, if_neg different, compareNodes, there]
  cases graph.node left <;> simp [compareRecords, incomplete, Node.isUnfinished]

section Agree

variable {later : RecordPointers → Handle → Handle → Option Bool} {answer : Bool}

/-- What is answered for pointees stays when the answers to questions stay. -/
theorem comparePointees_agree {left right : Handle}
    (kept : ∀ {answer}, ask rule left right = some answer → later rule left right = some answer)
    (answered : graph.comparePointees ask rule left right = some answer) :
    graph.comparePointees later rule left right = some answer := by
  unfold comparePointees at answered ⊢
  split at answered
  case h_1 => exact answered
  case h_2 => exact kept answered

/-- What is answered for functions stays when the answers to questions stay. -/
theorem compareSignatures_agree {ask later : Handle → Handle → Option Bool}
    (kept : ∀ {left right answer}, ask left right = some answer → later left right = some answer)
    {left right : Signature} (answered : compareSignatures ask left right = some answer) :
    compareSignatures later left right = some answer := by
  unfold compareSignatures at answered ⊢
  obtain ⟨sameResult, results, rest⟩ := Option.bind_eq_some_iff.mp answered
  rw [kept results, Option.bind_some]
  split at rest
  case isTrue agreed =>
    rw [if_pos agreed]
    exact allM_agree (fun _ _ => kept) rest
  case isFalse differ =>
    rw [if_neg differ]
    exact rest

/-- What is answered for records stays when the answers to questions stay. -/
theorem compareRecords_agree {ask later : Handle → Handle → Option Bool}
    (kept : ∀ {left right answer}, ask left right = some answer → later left right = some answer)
    {left right : Record} (answered : compareRecords ask left right = some answer) :
    compareRecords later left right = some answer := by
  unfold compareRecords at answered ⊢
  split at answered
  case isTrue incomplete =>
    rw [if_pos incomplete]
    exact answered
  case isFalse complete =>
    rw [if_neg complete]
    split at answered
    case isTrue lengths =>
      rw [if_pos lengths]
      exact allM_agree (fun _ _ => kept) answered
    case isFalse lengths =>
      rw [if_neg lengths]
      exact answered

/-- An answer stays when the answers that it is made from stay. -/
theorem compareNodes_agree
    (kept : ∀ {rule left right answer}, ask rule left right = some answer →
      later rule left right = some answer) {left right : Handle}
    (answered : graph.compareNodes ask rule left right = some answer) :
    graph.compareNodes later rule left right = some answer := by
  unfold compareNodes at answered ⊢
  split at answered
  case h_4 => exact comparePointees_agree kept answered
  case h_5 => exact compareSignatures_agree kept answered
  case h_6 => exact compareRecords_agree kept answered
  all_goals exact answered

end Agree

/-- An answer is the same with more steps. -/
theorem sameWithin_agree {more : Nat} (enough : steps ≤ more) {left right : Handle} {answer : Bool}
    (answered : graph.sameWithin steps rule left right = some answer) :
    graph.sameWithin more rule left right = some answer := by
  induction steps generalizing more rule left right answer with
  | zero => cases answered
  | succ steps inductionHypothesis =>
    obtain ⟨more, rfl⟩ : ∃ rest, more = rest + 1 := ⟨more - 1, by omega⟩
    have enoughBefore : steps ≤ more := Nat.le_of_succ_le_succ enough
    rw [sameWithin_succ] at answered ⊢
    split at answered
    case isTrue one =>
      rw [if_pos one]
      exact answered
    case isFalse different =>
      rw [if_neg different]
      exact compareNodes_agree (inductionHypothesis enoughBefore) answered

/-- Types are the same when the comparison within the steps provided says yes. -/
theorem sameType_eq_true_iff {left right : Handle} :
    graph.sameType left right = true ↔
      graph.Confirmed graph.comparisonSteps .followed left right := by
  unfold sameType Confirmed
  cases graph.sameWithin graph.comparisonSteps .followed left right <;> simp

end Graph

end CTypeGraph
