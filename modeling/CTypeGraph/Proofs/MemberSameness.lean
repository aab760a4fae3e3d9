import CTypeGraph.Proofs.LastingSameness

/-!
# Sameness among members

Two finalized structs are the same when their members are, but among members types are
compared under another rule than on their own, since a pointer to a record is not followed
there. `sameAmongMembers` is the comparison under this rule. It is the stricter one: where it
says yes, the types are the same on their own. What it leaves unfollowed are two pointers to
one record, or two pointers to records that are both incomplete, and in either case following
them would have come to the same answer. So structs that are the same have members that are
the same. The converse fails, because following two pointers may show that two different
structs are alike, while their places never are.

Identity of place is not all that is asked of two pointers to records, though. Two records
under construction pass for one another as well, and with them the pointers, and with these
the structs that hold the pointers, finalized as they may be. `recordPointers_decide` says how
far this goes: as soon as one of the two records is finalized, a comparison of the structs can
only say no, and this remains so.

Whether it says anything is another matter. Members are compared in order, and a member that
comes before the pointers may lead the comparison round in circles, by way of a function that
gives a struct by value. `loopedHolders_comparison_unending` shows two structs with which this
happens. So the theorem speaks of the answers that come, and of an answer only where no record
reaches itself by value through a function type.
-/

namespace CTypeGraph

namespace Graph

variable {graph after : Graph} {steps : Nat} {left right : Handle} {leftRecord rightRecord : Record}

/-- Whether two types are the same as types of members: a pointer to a record counts by the
record it points at. As with `sameType`, the answer `false` stands as well for a comparison that
goes on forever. -/
def sameAmongMembers (graph : Graph) (left right : Handle) : Bool :=
  (graph.sameWithin graph.comparisonSteps .identified left right).getD false

/-- Types are the same among members when the comparison under that rule says yes. -/
theorem sameAmongMembers_eq_true_iff :
    graph.sameAmongMembers left right = true ↔
      graph.Confirmed graph.comparisonSteps .identified left right := by
  unfold sameAmongMembers Confirmed
  cases graph.sameWithin graph.comparisonSteps .identified left right <;> simp

/-! ## The stricter rule -/

/-- What the stricter rule confirms, the other one confirms with one step more. By induction on
the steps. The step more is for two pointers to incomplete records, which are found to be the
same without a look at the records. -/
theorem Confirmed.followed (same : graph.Confirmed steps .identified left right) :
    graph.Confirmed (steps + 1) .followed left right := by
  induction steps generalizing left right with
  | zero => cases same
  | succ steps inductionHypothesis =>
    rw [confirmed_succ_iff] at same ⊢
    refine same.imp_right fun alike => ?_
    generalize graph.node left = leftNode at alike ⊢
    generalize graph.node right = rightNode at alike ⊢
    cases alike with
    | void => exact .void
    | enumeration => exact .enumeration
    | basic => exact .basic
    | samePlace => exact .pointees not_fixed_followed (confirmed_succ_iff.mpr (Or.inl rfl))
    | bothIncomplete _ leftThere rightThere leftOpen rightOpen =>
      refine .pointees not_fixed_followed (confirmed_succ_iff.mpr (Or.inr ?_))
      rw [leftThere, rightThere]
      exact .openRecords leftOpen rightOpen
    | pointees _ pointees =>
      exact .pointees not_fixed_followed (inductionHypothesis pointees)
    | functions results variadic parameters =>
      exact .functions (inductionHypothesis results) variadic
        (parameters.imp fun _ _ => inductionHypothesis)
    | openRecords leftOpen rightOpen => exact .openRecords leftOpen rightOpen
    | records leftComplete rightComplete members =>
      exact .records leftComplete rightComplete
        (members.imp fun _ _ => sameWithin_agree (Nat.le_succ _))
    | arrays => exact .arrays

/-- Types that are the same among members are the same on their own. -/
theorem sameType_of_sameAmongMembers (same : graph.sameAmongMembers left right = true) :
    graph.sameType left right = true :=
  sameType_eq_of_answered (sameAmongMembers_eq_true_iff.mp same).followed

/-- Finalized structs are the same exactly when they have equally many members, which are the
same among members, one by one. -/
theorem Reachable.sameType_records_iff (reachable : graph.Reachable)
    (leftFinal : graph.finalizedRecord left = .ok leftRecord)
    (rightFinal : graph.finalizedRecord right = .ok rightRecord) :
    graph.sameType left right = true ↔
      List.Forall₂ (fun one other => graph.sameAmongMembers one.type other.type = true)
        leftRecord.members rightRecord.members := by
  obtain ⟨leftThere, leftFinal⟩ := finalizedRecord_eq_ok_iff.mp leftFinal
  obtain ⟨rightThere, rightFinal⟩ := finalizedRecord_eq_ok_iff.mp rightFinal
  have leftComplete : leftRecord.incomplete = false :=
    (reachable.isLaidOut leftThere leftFinal).complete
  have rightComplete : rightRecord.incomplete = false :=
    (reachable.isLaidOut rightThere rightFinal).complete
  simp only [sameAmongMembers_eq_true_iff]
  rw [sameType_eq_true_iff, confirmed_iff_alike, leftThere, rightThere]
  constructor
  · intro alike
    cases alike with
    | openRecords leftOpen =>
      rw [leftComplete] at leftOpen
      cases leftOpen
    | records _ _ members => exact members
  · exact .records leftComplete rightComplete

/-- Structs that are the same have members that are the same on their own. -/
theorem Reachable.members_sameType (reachable : graph.Reachable)
    (leftFinal : graph.finalizedRecord left = .ok leftRecord)
    (rightFinal : graph.finalizedRecord right = .ok rightRecord)
    (same : graph.sameType left right = true) :
    List.Forall₂ (fun one other => graph.sameType one.type other.type = true)
      leftRecord.members rightRecord.members :=
  ((reachable.sameType_records_iff leftFinal rightFinal).mp same).imp
    fun _ _ => sameType_of_sameAmongMembers

/-! ## Pointers to records -/

/-- Among members, pointers to records are the same when they point at one record or when both
records are incomplete. -/
theorem sameAmongMembers_pointers_iff {leftTarget rightTarget : Handle}
    (leftPoints : graph.node left = .pointer leftTarget)
    (rightPoints : graph.node right = .pointer rightTarget)
    (leftThere : graph.node leftTarget = .record leftRecord)
    (rightThere : graph.node rightTarget = .record rightRecord) :
    graph.sameAmongMembers left right = true ↔
      leftTarget = rightTarget ∨ leftRecord.incomplete = true ∧ rightRecord.incomplete = true := by
  have fixed : graph.Fixed .identified leftTarget rightTarget :=
    ⟨rfl, Node.isRecord_iff.mpr ⟨_, leftThere⟩, Node.isRecord_iff.mpr ⟨_, rightThere⟩⟩
  rw [sameAmongMembers_eq_true_iff, confirmed_iff_alike, leftPoints, rightPoints]
  constructor
  · intro alike
    cases alike with
    | samePlace => exact Or.inl rfl
    | bothIncomplete _ leftThere' rightThere' leftOpen rightOpen =>
      rw [leftThere, Node.record.injEq] at leftThere'
      rw [rightThere, Node.record.injEq] at rightThere'
      subst leftThere' rightThere'
      exact Or.inr ⟨leftOpen, rightOpen⟩
    | pointees free => exact absurd fixed free
  · rintro (rfl | ⟨leftOpen, rightOpen⟩)
    · exact .samePlace fixed
    · exact .bothIncomplete fixed leftThere rightThere leftOpen rightOpen

/-- A finalized struct that holds, at this position, a pointer to the target. -/
def HoldsPointer (graph : Graph) (struct : Handle) (position : Nat) (target : Handle) : Prop :=
  ∃ contents member, graph.finalizedRecord struct = .ok contents ∧
    contents.members[position]? = some member ∧ graph.node member.type = .pointer target

/-- What a finalized struct points at, it points at from then on. -/
theorem HoldsPointer.stable (later : graph.Extends after) {struct target : Handle} {position : Nat}
    (holds : graph.HoldsPointer struct position target) :
    after.HoldsPointer struct position target := by
  obtain ⟨contents, member, final, listed, points⟩ := holds
  exact ⟨contents, member, finalizedRecord_stable later final, listed,
    later.node_eq points Node.noConfusion rfl⟩

/-- A record remains a record, and when it is finalized it remains so. -/
theorem Evolves.exists_record (history : Evolves graph after) {type : Handle} {contents : Record}
    (there : graph.node type = .record contents) :
    ∃ later, after.node type = .record later ∧
      (contents.isFinalized = true → later.isFinalized = true) := by
  cases final : contents.isFinalized with
  | true => exact ⟨contents, history.extension.node_eq there Node.noConfusion final, fun _ => final⟩
  | false =>
    have alike := history.alike (present_of_record there)
    rw [there] at alike
    generalize after.node type = node at alike
    cases alike with
    | same => exact ⟨contents, rfl, nofun⟩
    | records => exact ⟨_, rfl, nofun⟩

/-- A struct that holds a pointer belongs to the graph. -/
theorem HoldsPointer.present {struct target : Handle} {position : Nat}
    (holds : graph.HoldsPointer struct position target) : struct.index < graph.size := by
  obtain ⟨_, _, final, _⟩ := holds
  exact present_of_record (finalizedRecord_eq_ok_iff.mp final).1

/-- Structs that hold pointers to different records at one position are never found to be the
same when one of the records is finalized. -/
theorem Reachable.sameType_ne_true_of_pointers (reachable : graph.Reachable) {position : Nat}
    {leftTarget rightTarget : Handle} (leftHolds : graph.HoldsPointer left position leftTarget)
    (rightHolds : graph.HoldsPointer right position rightTarget)
    (leftThere : graph.node leftTarget = .record leftRecord)
    (rightThere : graph.node rightTarget = .record rightRecord)
    (different : leftTarget ≠ rightTarget)
    (final : leftRecord.isFinalized = true ∨ rightRecord.isFinalized = true) :
    graph.sameType left right ≠ true := by
  obtain ⟨leftStruct, one, leftFinal, leftAt, leftPoints⟩ := leftHolds
  obtain ⟨rightStruct, other, rightFinal, rightAt, rightPoints⟩ := rightHolds
  intro same
  have members := (reachable.sameType_records_iff leftFinal rightFinal).mp same
  have paired : graph.sameAmongMembers one.type other.type = true := by
    obtain ⟨leftInside, rfl⟩ := List.getElem?_eq_some_iff.mp leftAt
    obtain ⟨rightInside, rfl⟩ := List.getElem?_eq_some_iff.mp rightAt
    exact members.get leftInside rightInside
  rcases (sameAmongMembers_pointers_iff leftPoints rightPoints leftThere rightThere).mp paired with
    one | ⟨leftOpen, rightOpen⟩
  · exact different one
  · rw [reachable.isFinalized_eq leftThere, reachable.isFinalized_eq rightThere, leftOpen,
      rightOpen] at final
    simp at final

/-- Let two finalized structs hold pointers to different records at one position. As soon as one
of these records is finalized, no comparison of the structs says yes, at that moment and ever
after: whatever it answers, with any number of steps, is no. Whenever no record reaches itself by
value through a function type, there is an answer, and so it is no. Elsewhere the comparison may
go on forever, and nothing is said then. Only as long as neither record is finalized, the pointers
pass for one another among members. -/
theorem Reachable.recordPointers_decide (reachable : graph.Reachable) {position : Nat}
    {leftTarget rightTarget : Handle} (leftHolds : graph.HoldsPointer left position leftTarget)
    (rightHolds : graph.HoldsPointer right position rightTarget)
    (leftThere : graph.node leftTarget = .record leftRecord)
    (rightThere : graph.node rightTarget = .record rightRecord)
    (different : leftTarget ≠ rightTarget) :
    (leftRecord.isFinalized = true ∨ rightRecord.isFinalized = true →
        ∀ after, Evolves graph after →
          (∀ steps answer, after.sameWithin steps .followed left right = some answer →
            answer = false) ∧
          ((∀ type, ¬ after.LoopsThroughFunction type) → ∀ steps, after.comparisonSteps ≤ steps →
            after.sameWithin steps .followed left right = some false)) ∧
      (leftRecord.isFinalized = false → rightRecord.isFinalized = false →
        ∀ one other, graph.node one = .pointer leftTarget →
          graph.node other = .pointer rightTarget → graph.sameAmongMembers one other = true) := by
  refine ⟨?apart, ?alike⟩
  case apart =>
    intro final after history
    -- What is held, and that a record is finalized, lasts, so that the later graph is in the same
    -- situation. The two records may have changed, which makes no difference.
    have reachableLater : after.Reachable := reachable.evolved history
    have leftHoldsLater := leftHolds.stable history.extension
    have rightHoldsLater := rightHolds.stable history.extension
    obtain ⟨leftLater, leftThereLater, leftKept⟩ := history.exists_record leftThere
    obtain ⟨rightLater, rightThereLater, rightKept⟩ := history.exists_record rightThere
    have neverYes : ∀ steps answer,
        after.sameWithin steps .followed left right = some answer → answer = false := by
      intro steps answer answered
      rw [← sameType_eq_of_answered answered, ← Bool.not_eq_true]
      exact reachableLater.sameType_ne_true_of_pointers leftHoldsLater rightHoldsLater
        leftThereLater rightThereLater different (final.imp leftKept rightKept)
    -- A comparison that ends has an answer, and by what precedes there is only one left.
    refine ⟨neverYes, fun straight steps enough => ?_⟩
    have asked : after.Asked ⟨.followed, left, right⟩ :=
      ⟨leftHoldsLater.present, rightHoldsLater.present⟩
    obtain ⟨answer, answered⟩ := reachableLater.answered straight asked
    obtain rfl : answer = false := neverYes steps answer (answered steps enough)
    exact answered steps enough
  case alike =>
    intro leftBuilding rightBuilding one other leftPoints rightPoints
    have leftOpen : leftRecord.incomplete = true :=
      (reachable.isOpen leftThere leftBuilding).incomplete
    have rightOpen : rightRecord.incomplete = true :=
      (reachable.isOpen rightThere rightBuilding).incomplete
    exact (sameAmongMembers_pointers_iff leftPoints rightPoints leftThere rightThere).mpr
      (Or.inr ⟨leftOpen, rightOpen⟩)

end Graph

/-! ## Structs that look alike -/

/-- Three structs of three members each, and what these are made from. The types are, in order:
`int`, two structs of an `int`, two structs that are never finalized, the pointers to these four,
and the three structs. The last one differs from the one before it in what `link` points at. -/
def lookalikesGraph : Graph :=
  (Graph.empty .lp64).after
    [.internBasic ⟨.int, true⟩, .makeRecord false, .makeRecord false, .makeRecord false,
      .makeRecord false, .internPointer ⟨1⟩, .internPointer ⟨2⟩, .internPointer ⟨3⟩,
      .internPointer ⟨4⟩, .makeRecord false, .makeRecord false, .makeRecord false,
      .addMember ⟨1⟩ (some "x") ⟨0⟩ default, .addMember ⟨2⟩ (some "y") ⟨0⟩ default,
      .finalize ⟨1⟩, .finalize ⟨2⟩,
      .addMember ⟨9⟩ (some "inner") ⟨1⟩ default, .addMember ⟨9⟩ (some "draft") ⟨7⟩ default,
      .addMember ⟨9⟩ (some "link") ⟨5⟩ default, .addMember ⟨10⟩ (some "inner") ⟨2⟩ default,
      .addMember ⟨10⟩ (some "draft") ⟨8⟩ default, .addMember ⟨10⟩ (some "link") ⟨5⟩ default,
      .addMember ⟨11⟩ (some "inner") ⟨2⟩ default, .addMember ⟨11⟩ (some "draft") ⟨8⟩ default,
      .addMember ⟨11⟩ (some "link") ⟨6⟩ default,
      .finalize ⟨9⟩, .finalize ⟨10⟩, .finalize ⟨11⟩]

/-- One of the structs of an `int`, by the name of its member. -/
def innerRecord (name : String) : Record where
  isUnion := false
  incomplete := false
  stage := .finalized
  members := [⟨some name, ⟨0⟩, some 0⟩]
  exports := [⟨some name, ⟨0⟩, some 0⟩]
  size := 4
  align := 4

/-- One of the three structs, by the types of its members. -/
def lookalikeRecord (inner draft link : Handle) : Record where
  isUnion := false
  incomplete := false
  stage := .finalized
  members := [⟨some "inner", inner, some 0⟩, ⟨some "draft", draft, some 8⟩,
    ⟨some "link", link, some 16⟩]
  exports := [⟨some "inner", inner, some 0⟩, ⟨some "draft", draft, some 8⟩,
    ⟨some "link", link, some 16⟩]
  size := 24
  align := 8

/-- A history leads to the graph of the three structs. -/
theorem lookalikesGraph_reachable : lookalikesGraph.Reachable :=
  ⟨.lp64, Graph.evolves_after (by decide +kernel)⟩

/-- The first struct holds the first inner struct and the first draft. -/
theorem lookalikesGraph_first :
    lookalikesGraph.finalizedRecord ⟨9⟩ = .ok (lookalikeRecord ⟨1⟩ ⟨7⟩ ⟨5⟩) := by
  decide +kernel

/-- The second struct holds the other inner struct and the other draft, with the same link. -/
theorem lookalikesGraph_second :
    lookalikesGraph.finalizedRecord ⟨10⟩ = .ok (lookalikeRecord ⟨2⟩ ⟨8⟩ ⟨5⟩) := by
  decide +kernel

/-- The third struct is like the second, but its link points at the other inner struct. -/
theorem lookalikesGraph_third :
    lookalikesGraph.finalizedRecord ⟨11⟩ = .ok (lookalikeRecord ⟨2⟩ ⟨8⟩ ⟨6⟩) := by
  decide +kernel

/-- No record is reached again through a function, since there is none. -/
theorem lookalikesGraph_straight (type : Handle) : ¬ lookalikesGraph.LoopsThroughFunction type :=
  Graph.not_loopsThroughFunction_of_rank
    (fun type => [0, 1, 1, 0, 0, 0, 0, 0, 0, 2, 2, 2].getD type.index 0) (by decide +kernel) type

/-- In a reachable graph finalized structs that are the same have equally many members, and the
types of these are the same, one by one, since types that are the same among members are the
same on their own. Neither can be turned round, even where no record reaches itself by value
through a function type: there are finalized structs that are different although their members
are the same, one by one, and there are types that are the same on their own but not among
members. -/
theorem sameType_members :
    (∀ graph : Graph, graph.Reachable →
        (∀ left right leftRecord rightRecord, graph.finalizedRecord left = .ok leftRecord →
          graph.finalizedRecord right = .ok rightRecord → graph.sameType left right = true →
            List.Forall₂ (fun one other => graph.sameType one.type other.type = true)
              leftRecord.members rightRecord.members) ∧
        ∀ left right, graph.sameAmongMembers left right = true →
          graph.sameType left right = true) ∧
      ∃ graph : Graph, graph.Reachable ∧ (∀ type, ¬ graph.LoopsThroughFunction type) ∧
        (∃ left right leftRecord rightRecord, graph.finalizedRecord left = .ok leftRecord ∧
          graph.finalizedRecord right = .ok rightRecord ∧
          List.Forall₂ (fun one other => graph.sameType one.type other.type = true)
            leftRecord.members rightRecord.members ∧
          graph.sameType left right = false) ∧
        ∃ left right, graph.sameType left right = true ∧
          graph.sameAmongMembers left right = false := by
  constructor
  · intro graph reachable
    exact ⟨fun _ _ _ _ => reachable.members_sameType,
      fun _ _ => Graph.sameType_of_sameAmongMembers⟩
  · refine ⟨lookalikesGraph, lookalikesGraph_reachable, lookalikesGraph_straight,
      ⟨⟨10⟩, ⟨11⟩, _, _, lookalikesGraph_second, lookalikesGraph_third, ?members, ?different⟩,
      ⟨5⟩, ⟨6⟩, by decide +kernel, by decide +kernel⟩
    case members =>
      -- The first two members have one type each, and the links are followed.
      exact .cons (by decide +kernel) (.cons (by decide +kernel) (.cons (by decide +kernel) .nil))
    case different => decide +kernel

/-- The first two of the three structs are the same, and so are the structs that they hold, the
pointers to the structs that are not finalized, and the links, which are one type. -/
theorem lookalikes_sameType_members :
    lookalikesGraph.Reachable ∧ (∀ type, ¬ lookalikesGraph.LoopsThroughFunction type) ∧
      lookalikesGraph.finalizedRecord ⟨9⟩ = .ok (lookalikeRecord ⟨1⟩ ⟨7⟩ ⟨5⟩) ∧
      lookalikesGraph.finalizedRecord ⟨10⟩ = .ok (lookalikeRecord ⟨2⟩ ⟨8⟩ ⟨5⟩) ∧
      lookalikesGraph.sameType ⟨9⟩ ⟨10⟩ = true ∧ lookalikesGraph.sameType ⟨1⟩ ⟨2⟩ = true ∧
      lookalikesGraph.sameType ⟨7⟩ ⟨8⟩ = true ∧ lookalikesGraph.sameType ⟨5⟩ ⟨5⟩ = true := by
  have same : lookalikesGraph.sameType ⟨9⟩ ⟨10⟩ = true := by decide +kernel
  obtain ⟨decomposes, _⟩ := sameType_members.1 lookalikesGraph lookalikesGraph_reachable
  cases decomposes _ _ _ _ lookalikesGraph_first lookalikesGraph_second same with
  | cons inner others =>
    cases others with
    | cons draft others =>
      cases others with
      | cons link =>
        exact ⟨lookalikesGraph_reachable, lookalikesGraph_straight, lookalikesGraph_first,
          lookalikesGraph_second, same, inner, draft, link⟩

/-- The links of the last two structs are the same on their own and different among members, and
so these two structs are different. -/
example :
    lookalikesGraph.sameType ⟨5⟩ ⟨6⟩ = true ∧ lookalikesGraph.sameAmongMembers ⟨5⟩ ⟨6⟩ = false ∧
      lookalikesGraph.sameType ⟨10⟩ ⟨11⟩ = false := by
  decide +kernel

/-- The links of the last two structs point at different structs, both finalized, so that these
two are never found to be the same from then on, and a comparison of them says no. The pointers
to the structs that are not finalized pass for one another. -/
theorem lookalikes_recordPointers_decide :
    lookalikesGraph.Reachable ∧ lookalikesGraph.HoldsPointer ⟨10⟩ 2 ⟨1⟩ ∧
      lookalikesGraph.HoldsPointer ⟨11⟩ 2 ⟨2⟩ ∧
      lookalikesGraph.node ⟨1⟩ = .record (innerRecord "x") ∧
      lookalikesGraph.node ⟨2⟩ = .record (innerRecord "y") ∧
      (∀ after, Graph.Evolves lookalikesGraph after → ∀ steps answer,
        after.sameWithin steps .followed ⟨10⟩ ⟨11⟩ = some answer → answer = false) ∧
      (∀ type, ¬ lookalikesGraph.LoopsThroughFunction type) ∧
      (∀ steps, lookalikesGraph.comparisonSteps ≤ steps →
        lookalikesGraph.sameWithin steps .followed ⟨10⟩ ⟨11⟩ = some false) ∧
      lookalikesGraph.HoldsPointer ⟨9⟩ 1 ⟨3⟩ ∧ lookalikesGraph.HoldsPointer ⟨10⟩ 1 ⟨4⟩ ∧
      lookalikesGraph.node ⟨3⟩ = .record (.fresh false) ∧
      lookalikesGraph.node ⟨4⟩ = .record (.fresh false) ∧
      lookalikesGraph.sameAmongMembers ⟨7⟩ ⟨8⟩ = true := by
  have secondLink : lookalikesGraph.HoldsPointer ⟨10⟩ 2 ⟨1⟩ :=
    ⟨_, _, lookalikesGraph_second, rfl, by decide +kernel⟩
  have thirdLink : lookalikesGraph.HoldsPointer ⟨11⟩ 2 ⟨2⟩ :=
    ⟨_, _, lookalikesGraph_third, rfl, by decide +kernel⟩
  have firstInner : lookalikesGraph.node ⟨1⟩ = .record (innerRecord "x") := by decide +kernel
  have secondInner : lookalikesGraph.node ⟨2⟩ = .record (innerRecord "y") := by decide +kernel
  obtain ⟨apart, _⟩ := lookalikesGraph_reachable.recordPointers_decide secondLink thirdLink
    firstInner secondInner (by decide)
  have decided := apart (Or.inl rfl)
  have firstHeld : lookalikesGraph.HoldsPointer ⟨9⟩ 1 ⟨3⟩ :=
    ⟨_, _, lookalikesGraph_first, rfl, by decide +kernel⟩
  have secondHeld : lookalikesGraph.HoldsPointer ⟨10⟩ 1 ⟨4⟩ :=
    ⟨_, _, lookalikesGraph_second, rfl, by decide +kernel⟩
  have firstDraft : lookalikesGraph.node ⟨3⟩ = .record (.fresh false) := by decide +kernel
  have secondDraft : lookalikesGraph.node ⟨4⟩ = .record (.fresh false) := by decide +kernel
  obtain ⟨_, alike⟩ := lookalikesGraph_reachable.recordPointers_decide firstHeld secondHeld
    firstDraft secondDraft (by decide)
  exact ⟨lookalikesGraph_reachable, secondLink, thirdLink, firstInner, secondInner,
    fun after history => (decided after history).1, lookalikesGraph_straight,
    (decided lookalikesGraph .refl).2 lookalikesGraph_straight, firstHeld, secondHeld, firstDraft,
    secondDraft, alike rfl rfl ⟨7⟩ ⟨8⟩ (by decide +kernel) (by decide +kernel)⟩

/-- A finalized struct of a number and a pointer, by the pointer that it holds. -/
def holderRecord (held : Handle) : Record where
  isUnion := false
  incomplete := false
  stage := .finalized
  members := [⟨some "count", ⟨6⟩, some 0⟩, ⟨some "held", held, some 8⟩]
  exports := [⟨some "count", ⟨6⟩, some 0⟩, ⟨some "held", held, some 8⟩]
  size := 16
  align := 8

/-- Two finalized structs that hold pointers to different structs are the same nevertheless,
because neither of the latter is finalized. Finalizing one of these makes the former different:
the comparison ends as before, and says no. -/
theorem holders_same_by_drafts :
    (holdersGraph false).Reachable ∧ (holdersGraph false).HoldsPointer ⟨0⟩ 1 ⟨2⟩ ∧
      (holdersGraph false).HoldsPointer ⟨1⟩ 1 ⟨3⟩ ∧
      (holdersGraph false).node ⟨2⟩ = .record (.fresh false) ∧
      (holdersGraph false).node ⟨3⟩ = .record (.fresh false) ∧
      (holdersGraph false).sameType ⟨0⟩ ⟨1⟩ = true ∧
      (laterHoldersGraph false).sameType ⟨0⟩ ⟨1⟩ = false ∧
      (laterHoldersGraph false).sameWithin (laterHoldersGraph false).comparisonSteps .followed
        ⟨0⟩ ⟨1⟩ = some false := by
  have first : (holdersGraph false).finalizedRecord ⟨0⟩ = .ok (holderRecord ⟨4⟩) := by
    decide +kernel
  have second : (holdersGraph false).finalizedRecord ⟨1⟩ = .ok (holderRecord ⟨5⟩) := by
    decide +kernel
  exact ⟨⟨.lp64, Graph.evolves_after (by decide +kernel)⟩,
    ⟨_, _, first, rfl, by decide +kernel⟩, ⟨_, _, second, rfl, by decide +kernel⟩,
    by decide +kernel, by decide +kernel, by decide +kernel, by decide +kernel,
    by decide +kernel⟩

/-! ## Structs that are never told apart -/

/-- Two structs, each of which holds a pointer to a function that gives the struct itself by
value, and after it a pointer to one of two other structs. All four are finalized. The types are,
in order: `int`, the two other structs, the two structs, for each of these its function and the
pointer to that, and the pointers to the other structs. -/
def loopedHoldersGraph : Graph :=
  (Graph.empty .lp64).after
    [.internBasic ⟨.int, true⟩, .makeRecord false, .makeRecord false, .makeRecord false,
      .makeRecord false, .makeFunction ⟨⟨3⟩, [], false⟩, .internPointer ⟨5⟩,
      .makeFunction ⟨⟨4⟩, [], false⟩, .internPointer ⟨7⟩, .internPointer ⟨1⟩, .internPointer ⟨2⟩,
      .addMember ⟨1⟩ (some "x") ⟨0⟩ default, .addMember ⟨2⟩ (some "y") ⟨0⟩ default,
      .addMember ⟨3⟩ (some "copy") ⟨6⟩ default, .addMember ⟨3⟩ (some "link") ⟨9⟩ default,
      .addMember ⟨4⟩ (some "copy") ⟨8⟩ default, .addMember ⟨4⟩ (some "link") ⟨10⟩ default,
      .finalize ⟨1⟩, .finalize ⟨2⟩, .finalize ⟨3⟩, .finalize ⟨4⟩]

/-- One of the two structs, by the types of its members. -/
def loopedHolderRecord (copy link : Handle) : Record where
  isUnion := false
  incomplete := false
  stage := .finalized
  members := [⟨some "copy", copy, some 0⟩, ⟨some "link", link, some 8⟩]
  exports := [⟨some "copy", copy, some 0⟩, ⟨some "link", link, some 8⟩]
  size := 16
  align := 8

/-- The two structs hold pointers to different structs, which are both finalized, but a comparison
does not come as far as these pointers. The functions come first, and through what they give it is
back with the two structs, so that no number of steps is enough for it to say no. -/
theorem loopedHolders_comparison_unending :
    loopedHoldersGraph.Reachable ∧ loopedHoldersGraph.HoldsPointer ⟨3⟩ 1 ⟨1⟩ ∧
      loopedHoldersGraph.HoldsPointer ⟨4⟩ 1 ⟨2⟩ ∧
      loopedHoldersGraph.node ⟨1⟩ = .record (innerRecord "x") ∧
      loopedHoldersGraph.node ⟨2⟩ = .record (innerRecord "y") ∧
      ∀ steps, loopedHoldersGraph.sameWithin steps .followed ⟨3⟩ ⟨4⟩ = none := by
  have first : loopedHoldersGraph.finalizedRecord ⟨3⟩ = .ok (loopedHolderRecord ⟨6⟩ ⟨9⟩) := by
    decide +kernel
  have second : loopedHoldersGraph.finalizedRecord ⟨4⟩ = .ok (loopedHolderRecord ⟨8⟩ ⟨10⟩) := by
    decide +kernel
  exact ⟨⟨.lp64, Graph.evolves_after (by decide +kernel)⟩,
    ⟨_, _, first, rfl, by decide +kernel⟩, ⟨_, _, second, rfl, by decide +kernel⟩,
    by decide +kernel, by decide +kernel, Graph.sameWithin_eq_none (by decide +kernel)⟩

end CTypeGraph
