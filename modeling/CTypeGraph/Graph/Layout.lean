import CTypeGraph.Graph.ObjectExtent

/-!
# Laying out records

Finalizing a record fixes where its members are. The alignment of the record is
the largest alignment among its members. Members are placed in the order of
their declaration, each at the first suitable boundary after the end of the one
before. The size of the record is the end of its last member, rounded up to the
record's alignment, so that records can stand side by side in an array.

The fields of a record are its members, except that an unnamed member of record
type gives way to the fields of that record. An inner record has to be laid out
first, so its own list of fields is already flat and one level of replacement
is enough.

A member is measured by what the graph says about its type, and every number has
to fit a word. When anything is wrong the graph stays as it was and nothing is
logged. Of several faults the earliest wins: first those of the record itself,
then those of the alignments in declaration order, then those of the placement
in declaration order, then the final rounding.
-/

namespace CTypeGraph

namespace Graph

/-- The largest alignment among the members and `least`. A member of the
record's own type is refused here, before it is measured. -/
def widestAlign (graph : Graph) (type : Handle) (least : ByteCount) :
    List Member → Except Fault ByteCount
  | [] => .ok least
  | member :: rest =>
    if member.type = type then
      .error (.internal (.containsItself (graph.spelling type)))
    else do
      let align ← graph.byteAlign member.type
      graph.widestAlign type (max least align) rest

/-- The members with their offsets, placed one after the other from `start` on,
and the end of the last one. -/
def placeMembers (graph : Graph) (type : Handle) (start : ByteCount) :
    List Member → Except Fault (List Member × ByteCount)
  | [] => .ok ([], start)
  | member :: rest => do
    let align ← graph.byteAlign member.type
    let offset ← graph.fitting type (start.roundUp? align)
    let size ← graph.byteSize member.type
    let stop ← graph.fitting type (offset.add? size)
    let (placed, finish) ← graph.placeMembers type stop rest
    .ok ({ member with offset? := some offset } :: placed, finish)

/-- The fields that a placed member contributes: itself, or, when it is an
unnamed record, the fields of that record seen from the enclosing one. -/
def fieldsOf (graph : Graph) (member : Member) : List Member :=
  match member.name?, graph.node member.type with
  | none, .record inner => inner.exports.map (·.shiftedBy member.offsetOrZero)
  | _, _ => [member]

/-- The record with its layout fixed, or the first reason why it has none. -/
def laidOut (graph : Graph) (type : Handle) (contents : Record) : Except Fault Record := do
  let align ← graph.widestAlign type (max contents.align 1) contents.members
  let (placed, stop) ← graph.placeMembers type 0 contents.members
  let size ← graph.fitting type (stop.roundUp? align)
  .ok { contents with
    incomplete := false
    stage := .finalized
    members := placed
    exports := placed.flatMap graph.fieldsOf
    size := size
    align := align }

/-- The record behind a handle with its layout fixed. Unions have no layout, and
a layout is never fixed twice. -/
def layoutOf (graph : Graph) (type : Handle) : Except Fault Record := do
  let contents ← graph.record type
  if contents.isUnion then
    .error (.internal (.unionLayout (graph.spelling type)))
  else if contents.isFinalized then
    .error (.internal (.finalizedTwice (graph.spelling type)))
  else graph.laidOut type contents

/-- Fix the layout of a record. Success is worth a log line, failure changes nothing. -/
def finalize (graph : Graph) (type : Handle) : Logged (Except Fault Graph) :=
  match graph.layoutOf type with
  | .error fault => .silent (.error fault)
  | .ok contents =>
    ⟨.ok (graph.replace type (.record contents)),
      [.recordFinalized (graph.spelling type) contents.size contents.align
        contents.members.length contents.exports.length]⟩

/-- Finalizing succeeds exactly when the record has a layout, and then the layout
is all that changes. -/
theorem finalize_eq_ok_iff {graph after : Graph} {type : Handle} :
    (graph.finalize type).value = .ok after ↔
      ∃ contents, graph.layoutOf type = .ok contents ∧
        after = graph.replace type (.record contents) := by
  unfold finalize
  split
  case h_1 fault refused => simp [Logged.silent, refused]
  case h_2 contents settled => simp [settled, eq_comm]

end Graph

end CTypeGraph
