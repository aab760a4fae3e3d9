import CTypeGraph.Proofs.Substitution

/-!
# When values may be assigned

An assignment is accepted, refused, or left undecided. It is accepted between two scalars,
whichever they are, and from a record to itself. It is left undecided between two different
records, whatever is in them: they may have the same members, they may even be the same type, and
still nothing is said about them but that the question is open, at the place where it was asked.
All other assignments are refused.

These are all the cases, and no two of them overlap, because no record is a scalar. Which of them
two types belong to does not depend on which of the two is assigned to the other. So a question
about an assignment never fails for a mistake of the one who asks, and asked the other way round
it comes out the same way.
-/

namespace CTypeGraph

/-- A single value: a basic type, an enumeration or a pointer. -/
inductive Node.Scalar : Node → Prop
  | basic (type : BasicType) : Scalar (.basic type)
  | enumeration : Scalar .enumeration
  | pointer (pointee : Handle) : Scalar (.pointer pointee)

/-- The arithmetic types and the pointers are those that hold a single value. -/
theorem Node.isScalar_iff {node : Node} : node.isScalar = true ↔ node.Scalar := by
  constructor
  · intro scalar
    cases node with
    | basic type => exact .basic type
    | enumeration => exact .enumeration
    | pointer pointee => exact .pointer pointee
    | void | function | record | array => cases scalar
  · intro scalar
    cases scalar with
    | basic type => cases kind : type.kind.isFloating <;>
        simp [isScalar, isArithmetic, isFloating, isInteger, BasicKind.isInteger, kind]
    | enumeration | pointer => rfl

namespace Graph

variable {graph : Graph} {target source : Handle}

/-- Two scalars, or one record twice. -/
def Assignable (graph : Graph) (target source : Handle) : Prop :=
  ((graph.node target).Scalar ∧ (graph.node source).Scalar) ∨
    (target = source ∧ ∃ contents, graph.node target = .record contents)

/-- Two records, each a struct or a union, that are not one. -/
def DifferentRecords (graph : Graph) (target source : Handle) : Prop :=
  target ≠ source ∧ (∃ contents, graph.node target = .record contents) ∧
    ∃ contents, graph.node source = .record contents

/-- Being assignable does not depend on the direction. -/
theorem Assignable.symm (assignable : graph.Assignable target source) :
    graph.Assignable source target := by
  rcases assignable with ⟨targetScalar, sourceScalar⟩ | ⟨rfl, record⟩
  · exact Or.inl ⟨sourceScalar, targetScalar⟩
  · exact Or.inr ⟨rfl, record⟩

/-- Nor does being different. -/
theorem DifferentRecords.symm (different : graph.DifferentRecords target source) :
    graph.DifferentRecords source target :=
  ⟨different.1.symm, different.2.2, different.2.1⟩

/-- What is assignable is not left undecided. -/
theorem Assignable.not_differentRecords (assignable : graph.Assignable target source) :
    ¬ graph.DifferentRecords target source := by
  rintro ⟨different, ⟨contents, there⟩, _⟩
  rcases assignable with ⟨scalar, _⟩ | ⟨same, _⟩
  · rw [there] at scalar
    cases scalar
  · exact different same

/-- Two scalars, and a record and itself, are accepted without a log line. -/
theorem Assignable.isAssignable_eq (assignable : graph.Assignable target source)
    (location : Location) : graph.isAssignable target source location = .silent (.ok true) := by
  rcases assignable with ⟨targetScalar, sourceScalar⟩ | ⟨rfl, contents, there⟩
  · rw [isAssignable, Node.isScalar_iff.mpr targetScalar, Node.isScalar_iff.mpr sourceScalar]
    rfl
  · simp [isAssignable, compatibleRecords, there, Node.isScalar, Node.isArithmetic,
      Node.isFloating, Node.isInteger, Node.isPointer, Node.isRecord]

/-- Two different records are left undecided, with a fault that names both of them and the place,
and with a log line. -/
theorem DifferentRecords.isAssignable_eq (different : graph.DifferentRecords target source)
    (location : Location) :
    graph.isAssignable target source location =
      ⟨.error (.unimplemented
          (.recordCompatibility (graph.spelling target) (graph.spelling source)) location),
        [.compatibilityUndecided (graph.spelling target) (graph.spelling source) location]⟩ := by
  obtain ⟨apart, ⟨_, targetThere⟩, _, sourceThere⟩ := different
  simp [isAssignable, compatibleRecords, targetThere, sourceThere, apart, Node.isScalar,
    Node.isArithmetic, Node.isFloating, Node.isInteger, Node.isPointer, Node.isRecord]

/-- Everything else is refused without a log line. -/
theorem isAssignable_of_neither (unfit : ¬ graph.Assignable target source)
    (related : ¬ graph.DifferentRecords target source) (location : Location) :
    graph.isAssignable target source location = .silent (.ok false) := by
  have apart : ((graph.node target).isRecord && (graph.node source).isRecord) = false := by
    by_contra both
    rw [Bool.not_eq_false, Bool.and_eq_true, Node.isRecord_iff, Node.isRecord_iff] at both
    by_cases same : target = source
    · exact unfit (Or.inr ⟨same, both.1⟩)
    · exact related ⟨same, both⟩
  rw [isAssignable_of_not_records apart]
  by_cases scalars : ((graph.node target).isScalar && (graph.node source).isScalar) = true
  · rw [Bool.and_eq_true, Node.isScalar_iff, Node.isScalar_iff] at scalars
    exact absurd (Or.inl scalars) unfit
  · rw [Bool.eq_false_iff.mpr scalars]

/-- An assignment is accepted exactly between two scalars and from a record to itself. It is left
undecided exactly between two different records, be they the same type or not, with the one fault
that names them and the very place that was given. It is refused in all other cases. There is no
fault but this one, and in the other direction, at whatever place, the assignment is accepted,
refused or left undecided just as well. -/
theorem assignment_judged (graph : Graph) (target source : Handle) (location : Location) :
    ((graph.isAssignable target source location).value = .ok true ↔
        graph.Assignable target source) ∧
      (∀ fault, (graph.isAssignable target source location).value = .error fault ↔
        graph.DifferentRecords target source ∧ fault = .unimplemented
          (.recordCompatibility (graph.spelling target) (graph.spelling source)) location) ∧
      ((graph.isAssignable target source location).value = .ok false ↔
        ¬ graph.Assignable target source ∧ ¬ graph.DifferentRecords target source) ∧
      ∀ location', (graph.isAssignable source target location').value.toOption =
        (graph.isAssignable target source location).value.toOption := by
  by_cases fit : graph.Assignable target source
  · have apart : ¬ graph.DifferentRecords target source := fit.not_differentRecords
    have turned := fit.symm.isAssignable_eq
    simp [fit.isAssignable_eq, turned, fit, apart, Logged.silent]
  · by_cases different : graph.DifferentRecords target source
    · have turned := different.symm.isAssignable_eq
      simp [different.isAssignable_eq, turned, fit, different, Except.toOption, eq_comm]
    · have unfit : ¬ graph.Assignable source target := fun assignable => fit assignable.symm
      have apart : ¬ graph.DifferentRecords source target := fun other => different other.symm
      have turned := isAssignable_of_neither unfit apart
      simp [isAssignable_of_neither fit different, turned, fit, different, Logged.silent]

/-- The two structs that point at each other are the same type, and it is left undecided in either
direction whether one may be assigned to the other. -/
example :
    linkedGraph.sameType ⟨0⟩ ⟨1⟩ = true ∧
      (linkedGraph.isAssignable ⟨0⟩ ⟨1⟩ ⟨7, 3⟩).value = .error (.unimplemented
        (.recordCompatibility "struct <#0>" "struct <#1>") ⟨7, 3⟩) ∧
      (linkedGraph.isAssignable ⟨1⟩ ⟨0⟩ ⟨7, 3⟩).value.toOption = none := by
  decide +kernel

end Graph

end CTypeGraph
