import CTypeGraph.Graph.Spelling

/-!
# Reaching into records

Reading a record through its handle, adding members to it while it is being
built, and looking up its fields once it has been laid out. Each question first
checks that the handle denotes a record of the right age and answers with a
fault when it does not.
-/

namespace CTypeGraph

namespace Graph

/-- The record a handle denotes, whatever its age. -/
def record (graph : Graph) (type : Handle) : Except Fault Record :=
  match graph.node type with
  | .record contents => .ok contents
  | other => .error (.internal (.notRecord other.kindName (graph.spelling type)))

/-- The record a handle denotes, provided that its layout is fixed. -/
def finalizedRecord (graph : Graph) (type : Handle) : Except Fault Record := do
  let contents ← graph.record type
  if contents.isFinalized then .ok contents
  else .error (.internal (.stillBuilding (graph.spelling type)))

/-- Reading a record succeeds exactly on handles of records, and gives what is there. -/
theorem record_eq_ok_iff {graph : Graph} {type : Handle} {contents : Record} :
    graph.record type = .ok contents ↔ graph.node type = .record contents := by
  unfold record
  split
  case h_1 found there => simp [there]
  case h_2 other mismatch =>
    simp only [reduceCtorEq, false_iff]
    exact mismatch contents

/-- Reading a layout succeeds exactly on handles of finalized records. -/
theorem finalizedRecord_eq_ok_iff {graph : Graph} {type : Handle} {contents : Record} :
    graph.finalizedRecord type = .ok contents ↔
      graph.node type = .record contents ∧ contents.isFinalized = true := by
  rw [← record_eq_ok_iff]
  unfold finalizedRecord
  cases reading : graph.record type with
  | error fault => simp [bind, Except.bind]
  | ok found =>
    simp only [bind, Except.bind, Except.ok.injEq]
    split
    case isTrue final =>
      simp only [Except.ok.injEq]
      exact ⟨fun same => ⟨same, same ▸ final⟩, fun both => both.1⟩
    case isFalse building =>
      simp only [reduceCtorEq, false_iff, not_and]
      intro same final
      exact building (same ▸ final)

/-- Declare one more member of a record that is being built. The member goes to
the end and has no offset yet. Nothing is asked of its type. -/
def addMember (graph : Graph) (type : Handle) (name? : Option String) (memberType : Handle)
    (location : Location) : Except Fault Graph := do
  let contents ← graph.record type
  if contents.isFinalized then
    .error (.internal (.memberAfterFinalize type location.line))
  else
    let declared : Member := ⟨name?, memberType, none⟩
    .ok (graph.replace type (.record { contents with members := contents.members ++ [declared] }))

/-- The first field of a laid-out record with this name. -/
def fieldNamed? (graph : Graph) (type : Handle) (name : String) :
    Except Fault (Option Member) := do
  let contents ← graph.finalizedRecord type
  .ok (contents.fieldNamed? name)

/-- The field of a laid-out record that opens this position. -/
def fieldAt? (graph : Graph) (type : Handle) (position : Nat) :
    Except Fault (Option Member) := do
  let contents ← graph.finalizedRecord type
  .ok (contents.fieldAt? position)

/-- The position of the first field of a laid-out record with this name. -/
def fieldIndex? (graph : Graph) (type : Handle) (name : String) :
    Except Fault (Option Nat) := do
  let contents ← graph.finalizedRecord type
  contents.fieldIndex? name

end Graph

end CTypeGraph
