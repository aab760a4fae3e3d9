import CTypeGraph.Proofs.Positions
import Mathlib.Data.List.SplitBy
import Mathlib.Order.Bounds.Basic

/-!
# Lookups in any list of fields

The lookups by position assume nothing about the fields: offsets may be absent, out of order or
met again later, and names may be missing or repeated. `RunsOf` says what the runs of such a
list are, and there is one way to split a list into them. A position is then the number of a
run, and the field at the position is the one that the run begins with.

The lookups are stated here as loops over places as well. The inner one passes a run, the one
around it counts the runs passed, and the outermost asks for one position after another until it
meets an offset. The inner loop passes at least the field that it starts at, so each loop comes
closer to its end. What is invariant is that the runs not yet passed are the runs of the fields
from the current place on. The outermost loop could end without having met the offset only if no
field had it, and the offset is taken from a field, so the fault that is kept for this case is
never given.
-/

namespace CTypeGraph

variable {fields : List Member} {runs : List (List Member)} {offset? : Option ByteCount}
  {record : Record} {name : String} {position : Nat}

/-! ## Runs -/

/-- The runs are the longest stretches of fields at one offset, in order. -/
structure RunsOf (fields : List Member) (runs : List (List Member)) : Prop where
  together : runs.flatten = fields
  occupied : [] ∉ runs
  level : ∀ run ∈ runs, ∀ one ∈ run, ∀ other ∈ run, one.offset? = other.offset?
  maximal : runs.IsChain fun run next =>
    ∀ one ∈ run, ∀ other ∈ next, one.offset? ≠ other.offset?

/-- Where neighbours are at one offset, all fields are. -/
theorem offset?_eq_of_isChain {run : List Member}
    (neighbours : run.IsChain fun one other => one.offset? = other.offset?) :
    ∀ one ∈ run, ∀ other ∈ run, one.offset? = other.offset? := by
  have chain : (run.map (·.offset?)).IsChain (· = ·) := (List.isChain_map _).mpr neighbours
  have equal : ∀ ⦃one⦄, one ∈ run.map (·.offset?) → ∀ ⦃other⦄, other ∈ run.map (·.offset?) →
      one = other :=
    (List.isChain_iff_pairwise.mp chain).forall_of_forall fun _ _ => rfl
  intro one oneWithin other otherWithin
  exact equal (List.mem_map_of_mem oneWithin) (List.mem_map_of_mem otherWithin)

/-- There is one way to split fields into runs, which is to split them where the offset
changes. -/
theorem runsOf_iff :
    RunsOf fields runs ↔ runs = fields.splitBy fun one other => one.offset? == other.offset? := by
  rw [eq_comm, List.splitBy_eq_iff]
  simp only [beq_iff_eq, beq_eq_false_iff_ne]
  constructor
  · rintro ⟨rfl, occupied, level, maximal⟩
    refine ⟨rfl, occupied, fun run within => ?_, ?_⟩
    · exact (List.pairwise_of_forall_mem_list (level run within)).isChain
    · refine maximal.imp_of_mem_imp fun run next within withinNext apart => ?_
      have runOccupied : run ≠ [] := ne_of_mem_of_not_mem within occupied
      have nextOccupied : next ≠ [] := ne_of_mem_of_not_mem withinNext occupied
      exact ⟨runOccupied, nextOccupied,
        apart _ (List.getLast_mem runOccupied) _ (List.head_mem nextOccupied)⟩
  · rintro ⟨rfl, occupied, neighbours, maximal⟩
    have level : ∀ run ∈ runs, ∀ one ∈ run, ∀ other ∈ run, one.offset? = other.offset? :=
      fun run within => offset?_eq_of_isChain (neighbours run within)
    refine ⟨rfl, occupied, level, ?_⟩
    refine maximal.imp_of_mem_imp fun run next within withinNext apart => ?_
    obtain ⟨runOccupied, nextOccupied, differ⟩ := apart
    intro one oneWithin other otherWithin
    rwa [level run within one oneWithin _ (List.getLast_mem runOccupied),
      level next withinNext other otherWithin _ (List.head_mem nextOccupied)]

/-- Fields at the offset before them open no run. -/
theorem runLeadersAfter_append {run : List Member}
    (level : ∀ field ∈ run, field.offset? = offset?) (rest : List Member) :
    runLeadersAfter offset? (run ++ rest) = runLeadersAfter offset? rest := by
  induction run with
  | nil => rfl
  | cons field others inductionHypothesis =>
    obtain ⟨here, levelOthers⟩ := List.forall_mem_cons.mp level
    rw [List.cons_append, runLeadersAfter, if_pos here, inductionHypothesis levelOthers]

/-- Behind another offset, the first field opens a run. -/
theorem runLeadersAfter_of_ne
    (apart : ∀ field, fields.head? = some field → field.offset? ≠ offset?) :
    runLeadersAfter offset? fields = runLeaders fields := by
  cases fields with
  | nil => rfl
  | cons field rest => rw [runLeadersAfter, if_neg (apart field rfl), runLeaders]

/-- The leaders are the fields that the runs begin with. -/
theorem RunsOf.leaders (split : RunsOf fields runs) :
    (runLeaders fields).map some = runs.map List.head? := by
  obtain ⟨rfl, occupied, level, maximal⟩ := split
  induction runs with
  | nil => rfl
  | cons run others inductionHypothesis =>
    cases run with
    | nil => exact absurd List.mem_cons_self occupied
    | cons leader followers =>
      obtain ⟨levelHere, levelOthers⟩ := List.forall_mem_cons.mp level
      have passed : runLeadersAfter leader.offset? (followers ++ others.flatten) =
          runLeaders others.flatten := by
        rw [runLeadersAfter_append fun field within =>
          levelHere field (List.mem_cons_of_mem _ within) leader List.mem_cons_self]
        refine runLeadersAfter_of_ne fun field first same => ?_
        cases others with
        | nil => cases first
        | cons next more =>
          cases next with
          | nil => exact occupied (List.mem_cons_of_mem _ List.mem_cons_self)
          | cons nextLeader nextFollowers =>
            obtain rfl : nextLeader = field := Option.some.inj first
            exact (List.isChain_cons_cons.mp maximal).1 leader List.mem_cons_self nextLeader
              List.mem_cons_self same.symm
      rw [List.flatten_cons, List.cons_append, runLeaders, passed, List.map_cons, List.map_cons,
        inductionHypothesis (fun within => occupied (List.mem_cons_of_mem _ within)) levelOthers
          maximal.tail]
      rfl

/-! ## The lookup by position as two loops -/

/-- The first place from this one on at which the fields are not at the offset. -/
def passRun (fields : List Member) (offset? : Option ByteCount) (place : Nat) : Nat :=
  if inside : place < fields.length then
    if fields[place].offset? = offset? then passRun fields offset? (place + 1) else place
  else place
termination_by fields.length - place

/-- Passing a run never leads back. -/
theorem le_passRun (fields : List Member) (offset? : Option ByteCount) (place : Nat) :
    place ≤ passRun fields offset? place := by
  fun_induction passRun fields offset? place with
  | case1 place inside here inductionHypothesis => exact Nat.le_of_succ_le inductionHypothesis
  | case2 | case3 => exact Nat.le_refl _

/-- The field that a run begins with is passed with it. -/
theorem lt_passRun {place : Nat} (inside : place < fields.length) :
    place < passRun fields fields[place].offset? place := by
  rw [passRun, dif_pos inside, if_pos rfl]
  exact le_passRun fields _ (place + 1)

/-- Where a run has been passed, the next one begins. -/
theorem runLeaders_drop_passRun (fields : List Member) (offset? : Option ByteCount) (place : Nat) :
    runLeaders (fields.drop (passRun fields offset? place)) =
      runLeadersAfter offset? (fields.drop place) := by
  fun_induction passRun fields offset? place with
  | case1 place inside here inductionHypothesis =>
    rw [inductionHypothesis, List.drop_eq_getElem_cons inside, runLeadersAfter, if_pos here]
  | case2 place inside apart =>
    rw [List.drop_eq_getElem_cons inside, runLeadersAfter, if_neg apart, runLeaders]
  | case3 place outside =>
    rw [List.drop_eq_nil_of_le (Nat.le_of_not_lt outside)]
    rfl

/-- The first field of the run at this position, where `count` runs have been passed and the next
one begins at `place`. -/
def scanFrom (fields : List Member) (position count place : Nat) : Option Member :=
  if inside : place < fields.length then
    if count = position then some fields[place]
    else scanFrom fields position (count + 1) (passRun fields fields[place].offset? place)
  else none
termination_by fields.length - place
decreasing_by exact Nat.sub_lt_sub_left inside (lt_passRun inside)

/-- The runs from the current place on are those that have not been counted. -/
theorem scanFrom_eq {count place : Nat} (counted : count ≤ position) :
    scanFrom fields position count place =
      (runLeaders (fields.drop place))[position - count]? := by
  fun_induction scanFrom fields position count place with
  | case1 place inside =>
    rw [List.drop_eq_getElem_cons inside, runLeaders, Nat.sub_self, List.getElem?_cons_zero]
  | case2 count place inside other inductionHypothesis =>
    have left : position - count = position - (count + 1) + 1 := by omega
    rw [inductionHypothesis (by omega), runLeaders_drop_passRun, List.drop_eq_getElem_cons inside,
      runLeadersAfter, if_pos rfl, runLeaders, left, List.getElem?_cons_succ]
  | case3 count place outside =>
    rw [List.drop_eq_nil_of_le (Nat.le_of_not_lt outside)]
    rfl

namespace Record

/-- The field at the position, found by the loops. -/
def scanAt? (record : Record) (position : Nat) : Option Member :=
  scanFrom record.exports position 0 0

/-- The loops find the field that opens the run. -/
theorem scanAt?_eq (record : Record) (position : Nat) :
    record.scanAt? position = record.fieldAt? position :=
  scanFrom_eq (Nat.zero_le position)

/-- A position at which a field is found is the position of a run. -/
theorem lt_of_scanAt? {field : Member} (found : record.scanAt? position = some field) :
    position < (runLeaders record.exports).length := by
  rw [scanAt?_eq] at found
  exact (List.getElem?_eq_some_iff.mp found).1

/-- The first position from this one on whose field is at the offset. -/
def searchFrom (record : Record) (offset? : Option ByteCount) (position : Nat) : Option Nat :=
  match _found : record.scanAt? position with
  | none => none
  | some candidate =>
    if candidate.offset? = offset? then some position
    else record.searchFrom offset? (position + 1)
termination_by (runLeaders record.exports).length - position
decreasing_by exact Nat.sub_lt_sub_left (lt_of_scanAt? _found) (Nat.lt_succ_self position)

/-- The position of the first field with this name, found by the loops. -/
def scanIndex? (record : Record) (name : String) : Except Fault (Option Nat) :=
  match record.fieldNamed? name with
  | none => .ok none
  | some field =>
    match record.searchFrom field.offset? 0 with
    | some position => .ok (some position)
    | none => .error (.internal (.noLogicalIndex name))

/-- What is found from a position on is the first leader at the offset among those from there. -/
theorem searchFrom_eq (record : Record) (offset? : Option ByteCount) (position : Nat) :
    record.searchFrom offset? position =
      (((runLeaders record.exports).drop position).findIdx? (·.offset? == offset?)).map
        (· + position) := by
  fun_induction record.searchFrom offset? position with
  | case1 position absent =>
    rw [scanAt?_eq] at absent
    rw [List.drop_eq_nil_of_le (List.getElem?_eq_none_iff.mp absent)]
    rfl
  | case2 position candidate found here =>
    rw [scanAt?_eq] at found
    obtain ⟨inside, rfl⟩ := List.getElem?_eq_some_iff.mp found
    rw [List.drop_eq_getElem_cons inside, List.findIdx?_cons, if_pos (beq_iff_eq.mpr here),
      Option.map_some, Nat.zero_add]
  | case3 position candidate found apart inductionHypothesis =>
    rw [scanAt?_eq] at found
    obtain ⟨inside, rfl⟩ := List.getElem?_eq_some_iff.mp found
    rw [inductionHypothesis, List.drop_eq_getElem_cons inside, List.findIdx?_cons,
      if_neg (fun here => apart (beq_iff_eq.mp here)), Option.map_map]
    simp only [Function.comp_def, Nat.add_assoc, Nat.add_comm 1]

/-- The loops find the position that is the number of the run. -/
theorem scanIndex?_eq (record : Record) (name : String) :
    record.scanIndex? name = record.fieldIndex? name := by
  unfold scanIndex? fieldIndex?
  cases record.fieldNamed? name with
  | none => rfl
  | some field =>
    have searched := record.searchFrom_eq field.offset? 0
    simp only [List.drop_zero, Nat.add_zero, Option.map_id'] at searched
    cases located : (runLeaders record.exports).findIdx? (·.offset? == field.offset?) with
    | none => simp only [searched, located]
    | some position => simp only [searched, located]

end Record

/-! ## What the lookups find -/

/-- The first of the fields that has the name. -/
def IsFirstNamed (fields : List Member) (name : String) (field : Member) : Prop :=
  ∃ before after, fields = before ++ field :: after ∧ field.name? = some name ∧
    ∀ earlier ∈ before, earlier.name? ≠ some name

/-- The numbers of the runs at the offset. -/
def runsAt (runs : List (List Member)) (offset? : Option ByteCount) : Set Nat :=
  {place | ∃ run, runs[place]? = some run ∧ ∀ field ∈ run, field.offset? = offset?}

namespace RunsOf

/-- There is one leader for each run. -/
theorem length_runLeaders (split : RunsOf fields runs) :
    (runLeaders fields).length = runs.length := by
  simpa using congrArg List.length split.leaders

/-- The leader at a place is what the run at this place begins with. -/
theorem getElem?_runLeaders (split : RunsOf fields runs) (place : Nat) :
    (runLeaders fields)[place]? = runs[place]?.bind List.head? := by
  have matched : ((runLeaders fields).map some)[place]? = (runs.map List.head?)[place]? := by
    rw [split.leaders]
  rw [List.getElem?_map, List.getElem?_map] at matched
  cases found : runs[place]? with
  | none =>
    rw [found, Option.map_none, Option.map_eq_none_iff] at matched
    exact matched
  | some run =>
    rw [found, Option.map_some] at matched
    obtain ⟨leader, read, first⟩ := Option.map_eq_some_iff.mp matched
    rw [read, Option.bind_some, first]

/-- A run is at the offset of its leader. -/
theorem mem_runsAt_iff (split : RunsOf fields runs) {place : Nat} :
    place ∈ runsAt runs offset? ↔
      ∃ leader, (runLeaders fields)[place]? = some leader ∧ leader.offset? = offset? := by
  simp only [split.getElem?_runLeaders, Option.bind_eq_some_iff]
  constructor
  · rintro ⟨run, found, atOffset⟩
    cases run with
    | nil => exact absurd (List.mem_of_getElem? found) split.occupied
    | cons leader followers =>
      exact ⟨leader, ⟨_, found, rfl⟩, atOffset leader List.mem_cons_self⟩
  · rintro ⟨leader, ⟨run, found, first⟩, rfl⟩
    refine ⟨run, found, fun field within => ?_⟩
    exact split.level run (List.mem_of_getElem? found) field within leader
      (List.mem_of_head? first)

end RunsOf

namespace Record

/-- What is found by name is the first field with the name. -/
theorem fieldNamed?_eq_some_iff {field : Member} :
    record.fieldNamed? name = some field ↔ IsFirstNamed record.exports name field := by
  simp only [fieldNamed?, List.find?_eq_some_iff_append, IsFirstNamed, Member.hasName, beq_iff_eq,
    Bool.not_eq_true', beq_eq_false_iff_ne]
  constructor
  · rintro ⟨named, before, after, list, others⟩
    exact ⟨before, after, list, named, others⟩
  · rintro ⟨before, after, list, named, others⟩
    exact ⟨named, before, after, list, others⟩

/-- Nothing is found by name when no field has the name. -/
theorem fieldNamed?_eq_none_iff :
    record.fieldNamed? name = none ↔ ∀ field ∈ record.exports, field.name? ≠ some name := by
  simp only [fieldNamed?, List.find?_eq_none, Member.hasName, beq_iff_eq, ne_eq]

/-- The position of a name is the number of the first run at the offset of the first field with
the name. -/
theorem fieldIndex?_of_isFirstNamed (split : RunsOf record.exports runs) {field : Member}
    (first : IsFirstNamed record.exports name field) :
    ∃ position, IsLeast (runsAt runs field.offset?) position ∧
      record.fieldIndex? name = .ok (some position) := by
  have found : record.fieldNamed? name = some field := fieldNamed?_eq_some_iff.mpr first
  obtain ⟨position, _, answered, _⟩ := fieldIndex?_of_fieldNamed? found
  refine ⟨position, ?_, answered⟩
  have located : (runLeaders record.exports).findIdx? (·.offset? == field.offset?) =
      some position := by
    simp only [fieldIndex?, found] at answered
    split at answered
    case h_1 located =>
      rw [located]
      exact Except.ok.inj answered
    case h_2 => cases answered
  obtain ⟨inside, atOffset, before⟩ := List.findIdx?_eq_some_iff_getElem.mp located
  simp only [beq_iff_eq] at atOffset before
  refine ⟨split.mem_runsAt_iff.mpr ⟨_, List.getElem?_eq_getElem inside, atOffset⟩, ?_⟩
  intro other isAt
  obtain ⟨leader, read, same⟩ := split.mem_runsAt_iff.mp isAt
  obtain ⟨_, rfl⟩ := List.getElem?_eq_some_iff.mp read
  exact Nat.le_of_not_lt fun earlier => before other earlier same

/-- Split the fields of a record into runs, whatever their names and offsets. Then the field at a
position is the first one of the run with this number, and there is none when there are not so
many runs. A name always has an answer. It has no position when no field has the name, and
otherwise its position is the number of the first run at the offset of the first field with the
name. The loops come to an end with these answers. -/
theorem lookups_by_runs (record : Record) :
    ∃ runs, (∀ other, RunsOf record.exports other ↔ other = runs) ∧
      (∀ position, record.scanAt? position = record.fieldAt? position ∧
        record.fieldAt? position = runs[position]?.bind List.head? ∧
        (record.fieldAt? position = none ↔ runs.length ≤ position)) ∧
      ∀ name, record.scanIndex? name = record.fieldIndex? name ∧
        (∃ answer, record.fieldIndex? name = .ok answer) ∧
        (record.fieldIndex? name = .ok none ↔
          ∀ field ∈ record.exports, field.name? ≠ some name) ∧
        ∀ field, IsFirstNamed record.exports name field →
          ∃ position, IsLeast (runsAt runs field.offset?) position ∧
            record.fieldIndex? name = .ok (some position) := by
  obtain ⟨runs, split⟩ : ∃ runs, RunsOf record.exports runs := ⟨_, runsOf_iff.mpr rfl⟩
  refine ⟨runs, fun other => ?unique, fun position => ⟨?scan, ?head, ?beyond⟩,
    fun name => ⟨?search, ?answered, ?absent, ?named⟩⟩
  case unique =>
    rw [runsOf_iff, runsOf_iff.mp split]
  case scan => exact record.scanAt?_eq position
  case head => exact split.getElem?_runLeaders position
  case beyond => rw [fieldAt?, List.getElem?_eq_none_iff, split.length_runLeaders]
  case search => exact record.scanIndex?_eq name
  case answered =>
    cases found : record.fieldNamed? name with
    | none => exact ⟨none, by rw [fieldIndex?, found]⟩
    | some field =>
      obtain ⟨position, _, answered, _⟩ := fieldIndex?_of_fieldNamed? found
      exact ⟨some position, answered⟩
  case absent =>
    rw [← fieldNamed?_eq_none_iff]
    cases found : record.fieldNamed? name with
    | none => simp [fieldIndex?, found]
    | some field =>
      obtain ⟨position, _, answered, _⟩ := fieldIndex?_of_fieldNamed? found
      simp [answered]
  case named => exact fun field => fieldIndex?_of_isFirstNamed split

end Record

/-- A record whose fields come back to the offset that they begin with. Two neighbours have no
offset, two fields have one name, and one has none. -/
def scatteredRecord : Record :=
  { Record.fresh false with
    exports := [⟨some "a", ⟨0⟩, some 8⟩, ⟨none, ⟨0⟩, some 8⟩, ⟨some "b", ⟨0⟩, none⟩,
      ⟨some "c", ⟨0⟩, none⟩, ⟨some "b", ⟨0⟩, some 0⟩, ⟨some "d", ⟨0⟩, some 8⟩] }

/-- The runs of its fields. -/
def scatteredRuns : List (List Member) :=
  [[⟨some "a", ⟨0⟩, some 8⟩, ⟨none, ⟨0⟩, some 8⟩], [⟨some "b", ⟨0⟩, none⟩, ⟨some "c", ⟨0⟩, none⟩],
    [⟨some "b", ⟨0⟩, some 0⟩], [⟨some "d", ⟨0⟩, some 8⟩]]

/-- The last field has a run for itself, but its position is that of the first run at its offset.
The name that two fields have is that of the earlier one. -/
theorem scattered_lookups_by_runs :
    RunsOf scatteredRecord.exports scatteredRuns ∧
      scatteredRecord.fieldAt? 3 = some ⟨some "d", ⟨0⟩, some 8⟩ ∧
      scatteredRecord.fieldAt? 4 = none ∧
      (∃ position, IsLeast (runsAt scatteredRuns (some 8)) position ∧
        scatteredRecord.fieldIndex? "d" = .ok (some position)) ∧
      (∃ position, IsLeast (runsAt scatteredRuns none) position ∧
        scatteredRecord.fieldIndex? "b" = .ok (some position)) ∧
      scatteredRecord.fieldIndex? "d" = .ok (some 0) ∧
      scatteredRecord.fieldIndex? "b" = .ok (some 1) := by
  have split : RunsOf scatteredRecord.exports scatteredRuns := runsOf_iff.mpr (by decide)
  have lastNamed : IsFirstNamed scatteredRecord.exports "d" ⟨some "d", ⟨0⟩, some 8⟩ :=
    ⟨scatteredRecord.exports.take 5, [], by decide, rfl, by decide⟩
  have twiceNamed : IsFirstNamed scatteredRecord.exports "b" ⟨some "b", ⟨0⟩, none⟩ :=
    ⟨scatteredRecord.exports.take 2, scatteredRecord.exports.drop 3, by decide, rfl, by decide⟩
  obtain ⟨runs, unique, positions, names⟩ := scatteredRecord.lookups_by_runs
  obtain rfl : scatteredRuns = runs := (unique _).mp split
  obtain ⟨_, _, _, lastIndex⟩ := names "d"
  obtain ⟨_, _, _, twiceIndex⟩ := names "b"
  exact ⟨split, (positions 3).2.1, (positions 4).2.2.mpr (by decide), lastIndex _ lastNamed,
    twiceIndex _ twiceNamed, by decide, by decide⟩

end CTypeGraph
