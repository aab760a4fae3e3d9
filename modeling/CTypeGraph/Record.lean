import CTypeGraph.ByteCount
import CTypeGraph.Fault

/-!
# Records and their fields

A record is a struct or a union. It carries its members twice: as declared, and
as the flat list of fields that can be named from outside, in which the fields
of unnamed inner records take the place of those records. Both lists are kept in
order, and a member's offset is absent until the record has been laid out.

Consecutive fields that share an offset form one position. Fields can be found
by name, by position, and a name can be turned into a position. These lookups
read the flat list alone and make no assumption about it: offsets may be absent
or out of order, and names may be missing or repeated.
-/

namespace CTypeGraph

/-- A member of a record, as declared or as a field of the flat list. The empty
string is a name like any other, different from having none. -/
structure Member where
  name? : Option String
  type : Handle
  offset? : Option ByteCount
  deriving DecidableEq, Repr

namespace Member

/-- The distance from the start of the record, where an absent offset reads as zero. -/
def offsetOrZero (member : Member) : ByteCount :=
  member.offset?.getD 0

/-- Whether the member carries exactly this name. -/
def hasName (member : Member) (name : String) : Bool :=
  member.name? == some name

/-- The same member seen from `distance` bytes further out. The sum is a plain
word sum: fields of a laid-out record end within the record, so it does not wrap. -/
def shiftedBy (member : Member) (distance : ByteCount) : Member :=
  { member with offset? := some (member.offsetOrZero + distance) }

end Member

/-- The two ages of a record. -/
inductive Stage where
  /-- Members are still being added, and no offset is known. -/
  | building
  /-- The layout is fixed and the record no longer changes. -/
  | finalized
  deriving DecidableEq, Repr

/-- The name of a stage. -/
def Stage.name : Stage → String
  | .building => "building"
  | .finalized => "finalized"

/-- A struct or a union. An alignment of zero means that none has been settled.
`incomplete` is what comparison of types reads; `stage` is what everything else reads. -/
structure Record where
  isUnion : Bool
  incomplete : Bool
  stage : Stage
  /-- The members as declared, in order. -/
  members : List Member
  /-- The fields that can be named from outside, in order. -/
  exports : List Member
  size : ByteCount
  align : ByteCount
  deriving DecidableEq, Repr

namespace Record

/-- A record without members, open for additions. -/
def fresh (isUnion : Bool) : Record where
  isUnion := isUnion
  incomplete := true
  stage := .building
  members := []
  exports := []
  size := 0
  align := 0

/-- Whether the layout is fixed. -/
def isFinalized (record : Record) : Bool :=
  record.stage == .finalized

/-- The C keyword that introduces the record. -/
def keyword (record : Record) : String :=
  if record.isUnion then "union" else "struct"

/-- The first field with this name. -/
def fieldNamed? (record : Record) (name : String) : Option Member :=
  record.exports.find? (·.hasName name)

end Record

/-- The entries that open a run of equal offsets, given the offset before them. -/
def runLeadersAfter (previous : Option ByteCount) : List Member → List Member
  | [] => []
  | field :: rest =>
    if field.offset? = previous then runLeadersAfter previous rest
    else field :: runLeadersAfter field.offset? rest

/-- The first entry of every maximal run of consecutive fields that share an
offset. Two absent offsets count as equal. -/
def runLeaders : List Member → List Member
  | [] => []
  | field :: rest => field :: runLeadersAfter field.offset? rest

namespace Record

/-- The field that opens the run at this position. -/
def fieldAt? (record : Record) (position : Nat) : Option Member :=
  (runLeaders record.exports)[position]?

/-- The position of the first field with this name: the first run that has its
offset. A name that no field carries has no position, which is not a fault. -/
def fieldIndex? (record : Record) (name : String) : Except Fault (Option Nat) :=
  match record.fieldNamed? name with
  | none => .ok none
  | some field =>
    match (runLeaders record.exports).findIdx? (·.offset? == field.offset?) with
    | some position => .ok (some position)
    | none => .error (.internal (.noLogicalIndex name))

end Record

end CTypeGraph
