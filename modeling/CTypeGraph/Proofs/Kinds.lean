import CTypeGraph.Proofs.RecordLife

/-!
# Sameness and kinds

Types that are the same are of one kind, with one exception. Structs and unions are compared
by one rule, which asks first whether the records are complete and never which of the two they
are. A union is never finalized, so it stays incomplete, and a struct is incomplete as long as
it is being built. So long the struct is the same as every union, and once it is finalized it is
the same as none.

What is made from two types in the same manner is the same when they are. `Exchanges` relates
types that differ only in having one type in place of another, behind pointers and in what
functions take and give. Such types are told apart exactly as the two types are, so the
exception for a struct and a union extends to them, and ends for them at the same moment.
-/

namespace CTypeGraph

/-- The types that a function gives and takes, in this order. -/
def Signature.types (signature : Signature) : List Handle :=
  signature.result :: signature.parameters.map (·.type)

namespace Graph

variable {graph : Graph} {left right : Handle}

/-! ## Kinds -/

/-- Nodes that are alike are of one kind, or else they are records that are complete together. -/
theorem Alike.kindName_eq_or {same : RecordPointers → Handle → Handle → Prop}
    {rule : RecordPointers} {first second : Node} (alike : graph.Alike same rule first second) :
    first.kindName = second.kindName ∨
      ∃ leftRecord rightRecord, first = .record leftRecord ∧ second = .record rightRecord ∧
        leftRecord.incomplete = rightRecord.incomplete := by
  cases alike with
  | void | enumeration | basic | samePlace | bothIncomplete | pointees | functions | arrays =>
    exact Or.inl rfl
  | openRecords leftOpen rightOpen =>
    exact Or.inr ⟨_, _, rfl, rfl, leftOpen.trans rightOpen.symm⟩
  | records leftComplete rightComplete =>
    exact Or.inr ⟨_, _, rfl, rfl, leftComplete.trans rightComplete.symm⟩

/-- In a reachable graph a union is not finalized. -/
theorem Reachable.union_isFinalized (reachable : graph.Reachable) {contents : Record}
    (there : graph.node left = .record contents) (union : contents.isUnion = true) :
    contents.isFinalized = false := by
  rw [Bool.eq_false_iff]
  intro final
  have struct : contents.isUnion = false := (reachable.isLaidOut there final).struct
  rw [union] at struct
  cases struct

/-- One of the types is a struct and the other a union, and neither is finalized. -/
def DraftAndUnion (graph : Graph) (left right : Handle) : Prop :=
  ∃ leftRecord rightRecord, graph.node left = .record leftRecord ∧
    graph.node right = .record rightRecord ∧ leftRecord.isUnion ≠ rightRecord.isUnion ∧
    leftRecord.isFinalized = false ∧ rightRecord.isFinalized = false

/-- In a reachable graph types that are the same are of one kind, or else one of them is a
struct under construction and the other a union. -/
theorem Reachable.kindName_eq_or (reachable : graph.Reachable)
    (same : graph.sameType left right = true) :
    (graph.node left).kindName = (graph.node right).kindName ∨ graph.DraftAndUnion left right := by
  rcases (confirmed_iff_alike.mp (sameType_eq_true_iff.mp same)).kindName_eq_or with
    kinds | ⟨leftRecord, rightRecord, leftThere, rightThere, together⟩
  · exact Or.inl kinds
  by_cases unions : leftRecord.isUnion = rightRecord.isUnion
  · left
    simp only [leftThere, rightThere, Node.kindName, Record.keyword, unions]
  · right
    have finalized : leftRecord.isFinalized = rightRecord.isFinalized := by
      rw [reachable.isFinalized_eq leftThere, reachable.isFinalized_eq rightThere, together]
    refine ⟨leftRecord, rightRecord, leftThere, rightThere, unions, ?_⟩
    -- Whichever of the two is the union is not finalized, and they are finalized together.
    cases leftUnion : leftRecord.isUnion with
    | true =>
      have building := reachable.union_isFinalized leftThere leftUnion
      exact ⟨building, finalized ▸ building⟩
    | false =>
      have rightUnion : rightRecord.isUnion = true := by
        rw [leftUnion] at unions
        exact Bool.eq_true_of_not_eq_false fun struct => unions struct.symm
      have building := reachable.union_isFinalized rightThere rightUnion
      exact ⟨finalized.trans building, building⟩

/-- In a reachable graph a struct is the same as a union exactly as long as it is not
finalized. -/
theorem Reachable.sameType_struct_union (reachable : graph.Reachable) {struct union : Handle}
    {structRecord unionRecord : Record} (structThere : graph.node struct = .record structRecord)
    (unionThere : graph.node union = .record unionRecord) (isStruct : structRecord.isUnion = false)
    (isUnion : unionRecord.isUnion = true) :
    graph.sameType struct union = !structRecord.isFinalized := by
  have different : struct ≠ union := by
    rintro rfl
    rw [structThere, Node.record.injEq] at unionThere
    rw [unionThere, isUnion] at isStruct
    cases isStruct
  have unionOpen : unionRecord.incomplete = true :=
    (reachable.isOpen unionThere (reachable.union_isFinalized unionThere isUnion)).incomplete
  rw [sameType_of_incomplete different structThere unionThere unionOpen,
    reachable.isFinalized_eq structThere, Bool.not_not]

/-! ## One type in place of another -/

/-- Whether two types are the same does not depend on which comes first. -/
theorem sameType_comm (graph : Graph) (left right : Handle) :
    graph.sameType left right = graph.sameType right left := by
  rw [Bool.eq_iff_iff, sameType_eq_true_iff, sameType_eq_true_iff]
  exact ⟨.symm, .symm⟩

/-- A type is the same as itself. -/
theorem sameType_self (graph : Graph) (type : Handle) : graph.sameType type type = true :=
  sameType_eq_true_iff.mpr confirmed_self

/-- Pointers are the same when they point at types that are the same. -/
theorem sameType_pointers_iff {leftPointee rightPointee : Handle}
    (leftThere : graph.node left = .pointer leftPointee)
    (rightThere : graph.node right = .pointer rightPointee) :
    graph.sameType left right = true ↔ graph.sameType leftPointee rightPointee = true := by
  rw [sameType_eq_true_iff, sameType_eq_true_iff, confirmed_iff_alike, leftThere, rightThere]
  constructor
  · intro alike
    cases alike with
    | samePlace => exact confirmed_self
    | bothIncomplete fixed => exact absurd fixed not_fixed_followed
    | pointees _ pointees => exact pointees
  · exact .pointees not_fixed_followed

/-- Functions are the same when both or neither take further arguments, and what they give and
take is the same, one by one. -/
theorem sameType_functions_iff {leftSignature rightSignature : Signature}
    (leftThere : graph.node left = .function leftSignature)
    (rightThere : graph.node right = .function rightSignature) :
    graph.sameType left right = true ↔
      leftSignature.variadic = rightSignature.variadic ∧
        List.Forall₂ (fun first second => graph.sameType first second = true)
          leftSignature.types rightSignature.types := by
  simp only [sameType_eq_true_iff, Signature.types, List.forall₂_cons, List.forall₂_map_left_iff,
    List.forall₂_map_right_iff]
  rw [confirmed_iff_alike, leftThere, rightThere]
  constructor
  · intro alike
    cases alike with
    | functions results variadic parameters => exact ⟨variadic, results, parameters⟩
  · rintro ⟨variadic, results, parameters⟩
    exact .functions results variadic parameters

/-- Two types differ only in having one type where the other has the other, or the other way
round: they are the two types, or they point at types that so differ, or they are functions and
wherever these give or take different types, the types so differ. -/
inductive Exchanges (graph : Graph) (one other : Handle) : Handle → Handle → Prop
  | here : Exchanges graph one other one other
  | turned : Exchanges graph one other other one
  | pointers {left right leftPointee rightPointee : Handle}
      (leftThere : graph.node left = .pointer leftPointee)
      (rightThere : graph.node right = .pointer rightPointee)
      (pointees : Exchanges graph one other leftPointee rightPointee) :
      Exchanges graph one other left right
  | functions {left right : Handle} {leftSignature rightSignature : Signature}
      (leftThere : graph.node left = .function leftSignature)
      (rightThere : graph.node right = .function rightSignature)
      (variadic : leftSignature.variadic = rightSignature.variadic)
      (lengths : leftSignature.types.length = rightSignature.types.length)
      (differ : leftSignature.types ≠ rightSignature.types)
      (exchanged : ∀ (place : Nat) first second, leftSignature.types[place]? = some first →
        rightSignature.types[place]? = some second → first ≠ second →
        Exchanges graph one other first second) :
      Exchanges graph one other left right

/-- Types that differ in having one type in place of another are the same exactly when these
two are. By induction on how they differ. -/
theorem Exchanges.sameType_iff {one other : Handle}
    (exchanges : graph.Exchanges one other left right) :
    graph.sameType left right = true ↔ graph.sameType one other = true := by
  induction exchanges with
  | here => rfl
  | turned => rw [sameType_comm]
  | pointers leftThere rightThere _ inductionHypothesis =>
    exact (sameType_pointers_iff leftThere rightThere).trans inductionHypothesis
  | @functions _ _ leftSignature rightSignature leftThere rightThere variadic lengths differ _
      inductionHypothesis =>
    have decided : ∀ place (leftInside : place < leftSignature.types.length)
        (rightInside : place < rightSignature.types.length),
        leftSignature.types[place] ≠ rightSignature.types[place] →
          (graph.sameType leftSignature.types[place] rightSignature.types[place] = true ↔
            graph.sameType one other = true) :=
      fun place leftInside rightInside =>
        inductionHypothesis place _ _ (List.getElem?_eq_getElem leftInside)
          (List.getElem?_eq_getElem rightInside)
    rw [sameType_functions_iff leftThere rightThere, List.forall₂_iff_get]
    constructor
    · rintro ⟨_, _, places⟩
      -- Were the two types not the same, no place could have two types that differ.
      by_contra notSame
      refine differ (List.ext_getElem lengths fun place leftInside rightInside => ?_)
      by_contra different
      exact notSame ((decided place leftInside rightInside different).mp
        (places place leftInside rightInside))
    · intro same
      refine ⟨variadic, lengths, fun place leftInside rightInside => ?_⟩
      by_cases equal : leftSignature.types[place] = rightSignature.types[place]
      · rw [List.get_eq_getElem, List.get_eq_getElem, equal]
        exact sameType_self _ _
      · exact (decided place leftInside rightInside equal).mpr same

/-- In a reachable graph types that are the same are of one kind, except that a struct under
construction is the same as a union. So a finalized struct is never the same as a union, and
neither are pointers to them, or functions that differ only in taking or giving one instead of
the other. While the struct is under construction, all of these are the same. -/
theorem Reachable.sameType_kinds (reachable : graph.Reachable) :
    (∀ left right, graph.sameType left right = true →
        (graph.node left).kindName = (graph.node right).kindName ∨
          graph.DraftAndUnion left right) ∧
      ∀ struct union structRecord unionRecord, graph.node struct = .record structRecord →
        graph.node union = .record unionRecord → structRecord.isUnion = false →
        unionRecord.isUnion = true →
          ∀ left right, graph.Exchanges struct union left right →
            graph.sameType left right = !structRecord.isFinalized := by
  refine ⟨fun _ _ => reachable.kindName_eq_or, ?_⟩
  intro struct union structRecord unionRecord structThere unionThere isStruct isUnion left right
    exchanges
  rw [← reachable.sameType_struct_union structThere unionThere isStruct isUnion, Bool.eq_iff_iff]
  exact exchanges.sameType_iff

end Graph

/-! ## Two structs and a union -/

/-- The types are, in order: `int`, a struct of an `int`, a struct under construction, a union,
the pointers to these three records, and three functions. Each function gives one of the records
and takes the pointer to it and an `int`. -/
def mixedGraph : Graph :=
  (Graph.empty .lp64).after
    [.internBasic ⟨.int, true⟩, .makeRecord false, .makeRecord false, .makeRecord true,
      .internPointer ⟨1⟩, .internPointer ⟨2⟩, .internPointer ⟨3⟩,
      .makeFunction ⟨⟨1⟩, [⟨none, ⟨4⟩⟩, ⟨none, ⟨0⟩⟩], false⟩,
      .makeFunction ⟨⟨2⟩, [⟨none, ⟨5⟩⟩, ⟨none, ⟨0⟩⟩], false⟩,
      .makeFunction ⟨⟨3⟩, [⟨none, ⟨6⟩⟩, ⟨none, ⟨0⟩⟩], false⟩,
      .addMember ⟨1⟩ (some "x") ⟨0⟩ default, .finalize ⟨1⟩]

/-- The struct of an `int`. -/
def mixedRecord : Record where
  isUnion := false
  incomplete := false
  stage := .finalized
  members := [⟨some "x", ⟨0⟩, some 0⟩]
  exports := [⟨some "x", ⟨0⟩, some 0⟩]
  size := 4
  align := 4

/-- A history leads to the graph of the two structs and the union. -/
theorem mixedGraph_reachable : mixedGraph.Reachable :=
  ⟨.lp64, Graph.evolves_after (by decide +kernel)⟩

/-- What gives the first record and takes the pointer to it and an `int` differs from what so
does with the second only in having one record in place of the other. -/
theorem mixedGraph_functions {first second left right : Handle}
    (firstPointer secondPointer : Handle)
    (firstPoints : mixedGraph.node firstPointer = .pointer first)
    (secondPoints : mixedGraph.node secondPointer = .pointer second)
    (leftThere : mixedGraph.node left =
      .function ⟨first, [⟨none, firstPointer⟩, ⟨none, ⟨0⟩⟩], false⟩)
    (rightThere : mixedGraph.node right =
      .function ⟨second, [⟨none, secondPointer⟩, ⟨none, ⟨0⟩⟩], false⟩)
    (different : first ≠ second) : mixedGraph.Exchanges first second left right := by
  refine .functions leftThere rightThere rfl rfl (fun same => different (List.cons.inj same).1) ?_
  intro place one other oneThere otherThere apart
  simp only [Signature.types, List.map_cons, List.map_nil] at oneThere otherThere
  match place with
  | 0 =>
    cases oneThere
    cases otherThere
    exact .here
  | 1 =>
    cases oneThere
    cases otherThere
    exact .pointers firstPoints secondPoints .here
  | 2 =>
    cases oneThere
    cases otherThere
    exact absurd rfl apart
  | _ + 3 => cases oneThere

/-- A function of the finalized struct and one of the union are different, and a function of the
struct under construction and one of the union are the same. -/
theorem mixed_sameType_kinds :
    mixedGraph.Reachable ∧ mixedGraph.node ⟨1⟩ = .record mixedRecord ∧
      mixedGraph.node ⟨2⟩ = .record (.fresh false) ∧
      mixedGraph.node ⟨3⟩ = .record (.fresh true) ∧
      mixedGraph.sameType ⟨7⟩ ⟨9⟩ = false ∧ mixedGraph.sameType ⟨8⟩ ⟨9⟩ = true ∧
      mixedGraph.sameType ⟨2⟩ ⟨3⟩ = true ∧ mixedGraph.DraftAndUnion ⟨2⟩ ⟨3⟩ := by
  have finalized : mixedGraph.node ⟨1⟩ = .record mixedRecord := by decide +kernel
  have building : mixedGraph.node ⟨2⟩ = .record (.fresh false) := by decide +kernel
  have union : mixedGraph.node ⟨3⟩ = .record (.fresh true) := by decide +kernel
  have ofFinalized : mixedGraph.Exchanges ⟨1⟩ ⟨3⟩ ⟨7⟩ ⟨9⟩ :=
    mixedGraph_functions ⟨4⟩ ⟨6⟩ (by decide +kernel) (by decide +kernel) (by decide +kernel)
      (by decide +kernel) (by decide)
  have ofBuilding : mixedGraph.Exchanges ⟨2⟩ ⟨3⟩ ⟨8⟩ ⟨9⟩ :=
    mixedGraph_functions ⟨5⟩ ⟨6⟩ (by decide +kernel) (by decide +kernel) (by decide +kernel)
      (by decide +kernel) (by decide)
  obtain ⟨kinds, exchanged⟩ := mixedGraph_reachable.sameType_kinds
  have same : mixedGraph.sameType ⟨2⟩ ⟨3⟩ = true :=
    exchanged _ _ _ _ building union rfl rfl _ _ .here
  have draftAndUnion : mixedGraph.DraftAndUnion ⟨2⟩ ⟨3⟩ :=
    (kinds _ _ same).resolve_left (by decide +kernel)
  exact ⟨mixedGraph_reachable, finalized, building, union,
    exchanged _ _ _ _ finalized union rfl rfl _ _ ofFinalized,
    exchanged _ _ _ _ building union rfl rfl _ _ ofBuilding, same, draftAndUnion⟩

/-- A struct under construction is the same as a union, although they are of different kinds, and
so are the pointers to them, and functions that take and give one or the other. -/
theorem draft_same_as_union :
    mixedGraph.Reachable ∧ (mixedGraph.node ⟨2⟩).kindName = "struct" ∧
      (mixedGraph.node ⟨3⟩).kindName = "union" ∧ mixedGraph.sameType ⟨2⟩ ⟨3⟩ = true ∧
      mixedGraph.node ⟨5⟩ = .pointer ⟨2⟩ ∧ mixedGraph.node ⟨6⟩ = .pointer ⟨3⟩ ∧
      mixedGraph.sameType ⟨5⟩ ⟨6⟩ = true ∧
      mixedGraph.node ⟨8⟩ = .function ⟨⟨2⟩, [⟨none, ⟨5⟩⟩, ⟨none, ⟨0⟩⟩], false⟩ ∧
      mixedGraph.node ⟨9⟩ = .function ⟨⟨3⟩, [⟨none, ⟨6⟩⟩, ⟨none, ⟨0⟩⟩], false⟩ ∧
      mixedGraph.sameType ⟨8⟩ ⟨9⟩ = true :=
  ⟨mixedGraph_reachable, by decide +kernel, by decide +kernel, by decide +kernel,
    by decide +kernel, by decide +kernel, by decide +kernel, by decide +kernel, by decide +kernel,
    by decide +kernel⟩

end CTypeGraph
