import CTypeGraph.Proofs.Stability
import CTypeGraph.Proofs.Termination

/-!
# One type for another

Types that are the same need not be one type: they may be spelled differently, and their
members may be named differently. The questions that expressions ask about their operands
do not see the difference. Such a question is `Coarse`: it does not look behind the
handles in a node, nor into a record. Whichever way two types came to be the same, coarse
questions about them have the same answers, and if the types are pointers, so have coarse
questions about their pointees. The second half needs care with pointers that are not
followed, and with records that are the same because both are under construction.

So in place of one type the other has the same rank, range and categories, or lacks them
just as well. A refusal names the type, which is why ranks and ranges are compared as
options. Assigning is another matter between records, where sameness plays no part: a
record may be assigned to itself alone.
-/

namespace CTypeGraph

namespace Node

/-- A question that does not look behind the handles in a node, nor into a record. -/
structure Coarse {α : Type} (question : Node → α) : Prop where
  pointers : ∀ {left right}, question (.pointer left) = question (.pointer right)
  functions : ∀ {left right}, question (.function left) = question (.function right)
  records : ∀ {left right}, question (.record left) = question (.record right)
  arrays : ∀ {left right leftCount rightCount},
    question (.array left leftCount) = question (.array right rightCount)

/-- The conversion rank of an arithmetic type. -/
def rank? : Node → Option Nat
  | .enumeration => some BasicKind.int.rank
  | .basic type => some type.kind.rank
  | .void | .pointer _ | .function _ | .record _ | .array .. => none

end Node

namespace Graph

variable {graph : Graph} {steps : Nat} {rule : RecordPointers} {left right : Handle}
  {α : Type} {question : Node → α}

/-- Nodes that are alike give the same answer to a coarse question. -/
theorem Alike.coarse_eq {same : RecordPointers → Handle → Handle → Prop} {first second : Node}
    (alike : graph.Alike same rule first second) (coarse : Node.Coarse question) :
    question first = question second := by
  cases alike with
  | void | enumeration | basic => rfl
  | samePlace | bothIncomplete | pointees => exact coarse.pointers
  | functions => exact coarse.functions
  | openRecords | records => exact coarse.records
  | arrays => exact coarse.arrays

/-- Types that compare as the same give the same answer to a coarse question. -/
theorem Confirmed.coarse_eq (same : graph.Confirmed steps rule left right)
    (coarse : Node.Coarse question) : question (graph.node left) = question (graph.node right) := by
  cases steps with
  | zero => cases same
  | succ steps =>
    rcases confirmed_succ_iff.mp same with rfl | alike
    · rfl
    · exact alike.coarse_eq coarse

/-- Pointers that compare as the same point at types that give the same answer to a coarse
question. Pointees that are not followed are one type or two records. -/
theorem Confirmed.pointee_any_eq (same : graph.Confirmed steps rule left right)
    {question : Node → Bool} (coarse : Node.Coarse question) :
    (graph.pointee? (graph.node left)).any question =
      (graph.pointee? (graph.node right)).any question := by
  cases steps with
  | zero => cases same
  | succ steps =>
    rcases confirmed_succ_iff.mp same with rfl | alike
    · rfl
    · generalize graph.node left = leftNode at alike
      generalize graph.node right = rightNode at alike
      cases alike with
      | bothIncomplete _ leftThere rightThere =>
        simp only [pointee?, leftThere, rightThere, Option.any_some]
        exact coarse.records
      | pointees _ pointees => exact pointees.coarse_eq coarse
      | void | enumeration | basic | samePlace | functions | openRecords | records | arrays => rfl

/-- Types that compare as the same are in the same categories. -/
theorem Confirmed.categories_eq (same : graph.Confirmed steps rule left right) :
    graph.categories left = graph.categories right := by
  have asked : ∀ {question : Node → Bool}, Node.Coarse question →
      question (graph.node left) = question (graph.node right) := same.coarse_eq
  simp only [categories, Categories.mk.injEq]
  exact ⟨asked ⟨rfl, rfl, rfl, rfl⟩, asked ⟨rfl, rfl, rfl, rfl⟩, asked ⟨rfl, rfl, rfl, rfl⟩,
    asked ⟨rfl, rfl, rfl, rfl⟩, asked ⟨rfl, rfl, rfl, rfl⟩,
    same.pointee_any_eq ⟨rfl, rfl, rfl, rfl⟩, asked ⟨rfl, rfl, rfl, rfl⟩,
    same.pointee_any_eq ⟨rfl, rfl, rfl, rfl⟩, asked ⟨rfl, rfl, rfl, rfl⟩,
    asked ⟨rfl, rfl, rfl, rfl⟩⟩

/-! ## Ranks and ranges -/

/-- A type has the rank of its node, if it has any. -/
theorem conversionRank_toOption (graph : Graph) (type : Handle) :
    (graph.conversionRank type).toOption = (graph.node type).rank? := by
  unfold conversionRank
  cases graph.node type <;> rfl

/-- An integer type has the values of its basis. -/
theorem integerRange_toOption (graph : Graph) (type : Handle) :
    (graph.integerRange type).toOption =
      (graph.node type).integerBasis?.map graph.model.integerRange := by
  unfold integerRange
  cases (graph.node type).integerBasis? <;> rfl

/-- Whether one type represents another is asked of their ranges, if both have one. -/
theorem canRepresent_toOption (graph : Graph) (wide narrow : Handle) :
    (graph.canRepresent wide narrow).toOption =
      (graph.integerRange wide).toOption.bind fun outer =>
        (graph.integerRange narrow).toOption.map outer.covers := by
  unfold canRepresent
  cases graph.integerRange wide with
  | error fault => rfl
  | ok outer => cases graph.integerRange narrow <;> rfl

/-! ## Assigning -/

/-- Unless both types are records, assigning takes two scalars and is never refused. -/
theorem isAssignable_of_not_records {target source : Handle}
    (apart : ((graph.node target).isRecord && (graph.node source).isRecord) = false)
    (location : Location) :
    graph.isAssignable target source location =
      .silent (.ok ((graph.node target).isScalar && (graph.node source).isScalar)) := by
  unfold isAssignable compatibleRecords
  rw [apart]
  cases (graph.node target).isScalar && (graph.node source).isScalar <;> rfl

/-- Wherever an operand of one type may stand, one of the other type may stand with the
same effect. -/
structure Interchangeable (graph : Graph) (left right : Handle) : Prop where
  categories : graph.categories left = graph.categories right
  conversionRank :
    (graph.conversionRank left).toOption = (graph.conversionRank right).toOption
  integerRange : (graph.integerRange left).toOption = (graph.integerRange right).toOption
  representing : ∀ other,
    (graph.canRepresent left other).toOption = (graph.canRepresent right other).toOption
  represented : ∀ other,
    (graph.canRepresent other left).toOption = (graph.canRepresent other right).toOption
  assigned : ∀ {other} location, (graph.node other).isRecord = false →
    graph.isAssignable left other location = graph.isAssignable right other location
  assigning : ∀ {other} location, (graph.node other).isRecord = false →
    graph.isAssignable other left location = graph.isAssignable other right location

/-- Types that are the same are interchangeable as operands. -/
theorem sameType_interchangeable (same : graph.sameType left right = true) :
    graph.Interchangeable left right := by
  have confirmed : graph.Confirmed graph.comparisonSteps .followed left right :=
    sameType_eq_true_iff.mp same
  have rank : (graph.node left).rank? = (graph.node right).rank? :=
    confirmed.coarse_eq ⟨rfl, rfl, rfl, rfl⟩
  have basis : (graph.node left).integerBasis? = (graph.node right).integerBasis? :=
    confirmed.coarse_eq ⟨rfl, rfl, rfl, rfl⟩
  have scalar : (graph.node left).isScalar = (graph.node right).isScalar :=
    confirmed.coarse_eq ⟨rfl, rfl, rfl, rfl⟩
  have range : (graph.integerRange left).toOption = (graph.integerRange right).toOption := by
    rw [integerRange_toOption, integerRange_toOption, basis]
  refine {
    categories := confirmed.categories_eq
    conversionRank := ?rank
    integerRange := range
    representing := ?representing
    represented := ?represented
    assigned := ?assigned
    assigning := ?assigning }
  case rank => rw [conversionRank_toOption, conversionRank_toOption, rank]
  case representing =>
    intro other
    rw [canRepresent_toOption, canRepresent_toOption, range]
  case represented =>
    intro other
    rw [canRepresent_toOption, canRepresent_toOption, range]
  case assigned =>
    intro other location solid
    rw [isAssignable_of_not_records (by rw [solid, Bool.and_false]),
      isAssignable_of_not_records (by rw [solid, Bool.and_false]), scalar]
  case assigning =>
    intro other location solid
    rw [isAssignable_of_not_records (by rw [solid, Bool.false_and]),
      isAssignable_of_not_records (by rw [solid, Bool.false_and]), scalar]

end Graph

/-- Two enumerations, two functions that give one of them each, the pointers to these
functions, and `int`, in this order. -/
def callbacksGraph : Graph :=
  (Graph.empty .lp64).after
    [.makeEnumeration, .makeEnumeration, .makeFunction ⟨⟨0⟩, [], false⟩,
      .makeFunction ⟨⟨1⟩, [], false⟩, .internPointer ⟨2⟩, .internPointer ⟨3⟩,
      .internBasic ⟨.int, true⟩]

/-- The two pointers are the same type, and both of them are function pointers to which
`int` may be assigned. -/
theorem callbacks_interchangeable :
    callbacksGraph.Reachable ∧ callbacksGraph.sameType ⟨4⟩ ⟨5⟩ = true ∧
      callbacksGraph.Interchangeable ⟨4⟩ ⟨5⟩ ∧ callbacksGraph.isFunctionPointer ⟨5⟩ = true ∧
      callbacksGraph.isAssignable ⟨5⟩ ⟨6⟩ default = .silent (.ok true) := by
  have reachable : callbacksGraph.Reachable := ⟨.lp64, Graph.evolves_after (by decide +kernel)⟩
  have same : callbacksGraph.sameType ⟨4⟩ ⟨5⟩ = true := by decide +kernel
  have either : callbacksGraph.Interchangeable ⟨4⟩ ⟨5⟩ := Graph.sameType_interchangeable same
  have pointsAtFunction : callbacksGraph.isFunctionPointer ⟨4⟩ = true := by decide +kernel
  have assignable : callbacksGraph.isAssignable ⟨4⟩ ⟨6⟩ default = .silent (.ok true) := by rfl
  refine ⟨reachable, same, either, ?_, ?_⟩
  · rw [← pointsAtFunction]
    exact (congrArg Graph.Categories.functionPointer either.categories).symm
  · rw [← assignable]
    exact (either.assigned default (by decide +kernel)).symm

/-- Between records it is different. The two structs that point at each other are the same,
and still it is left undecided whether one may be assigned to the other. -/
example :
    linkedGraph.sameType ⟨0⟩ ⟨1⟩ = true ∧
      (linkedGraph.isAssignable ⟨0⟩ ⟨0⟩ default).value = .ok true ∧
      (linkedGraph.isAssignable ⟨0⟩ ⟨1⟩ default).value.toOption = none := by
  decide +kernel

end CTypeGraph
