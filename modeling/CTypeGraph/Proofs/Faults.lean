import CTypeGraph.Graph.Assignment
import CTypeGraph.Graph.Conversion
import CTypeGraph.Proofs.Growth

/-!
# What faults say

A graph is asked many questions, and most of them can fail. This module goes through them once
and says of each which faults it has. Apart from the comparison of different records, which is
not handled, they are all the caller's mistake. And whatever a fault says about types it says by
their spellings: of the type in question, of the record that stood in the way, or of the element
of an array that could not be measured.

A fault carries the spellings as texts, and its wording shows each of them. That a text in a
fault is the spelling of a type is all that is said here, for every graph. Whether the spelling
is one that was found and not the question mark for a spelling without an end is another matter,
and depends on how the graph was built.
-/

namespace CTypeGraph

/-! ## The wording of faults -/

/-- The spellings of types that a breach shows. -/
def Breach.spellings : Breach → List String
  | .notRecord _ spelling | .stillBuilding spelling | .noObjectLayout spelling
  | .sizeOverflow spelling | .unionLayout spelling | .finalizedTwice spelling
  | .containsItself spelling | .rankOfNonArithmetic spelling | .rangeOfNonInteger spelling =>
    [spelling]
  | .memberAfterFinalize .. | .noLogicalIndex _ | .described _ => []

/-- The spellings of types that an unhandled feature shows. -/
def Feature.spellings : Feature → List String
  | .recordCompatibility left right => [left, right]
  | .described _ => []

/-- The spellings of types that a fault shows. -/
def Fault.spellings : Fault → List String
  | .internal breach => breach.spellings
  | .unimplemented feature _ => feature.spellings

/-- The text has the other one in it. -/
def Shows (text part : String) : Prop :=
  ∃ before after, text = before ++ part ++ after

namespace Shows

variable {text part : String}

/-- A text has itself in it. -/
theorem self (text : String) : Shows text text :=
  ⟨"", "", by rw [String.empty_append, String.append_empty]⟩

/-- What stands in front takes nothing away. -/
theorem behind (head : String) (shows : Shows text part) : Shows (head ++ text) part := by
  obtain ⟨before, after, rfl⟩ := shows
  exact ⟨head ++ before, after, by simp only [String.append_assoc]⟩

/-- Nor does what follows. -/
theorem ahead (shows : Shows text part) (tail : String) : Shows (text ++ tail) part := by
  obtain ⟨before, after, rfl⟩ := shows
  exact ⟨before, after ++ tail, by simp only [String.append_assoc]⟩

end Shows

/-- The wording of a breach shows its spellings. -/
theorem Breach.text_shows {breach : Breach} {spelling : String}
    (within : spelling ∈ breach.spellings) : Shows breach.text spelling := by
  have self : Shows spelling spelling := .self spelling
  cases breach with
  | notRecord | sizeOverflow | unionLayout =>
    obtain rfl := List.mem_singleton.mp within
    exact (self.behind _).ahead _
  | stillBuilding | noObjectLayout | finalizedTwice | containsItself =>
    obtain rfl := List.mem_singleton.mp within
    exact self.ahead _
  | rankOfNonArithmetic | rangeOfNonInteger =>
    obtain rfl := List.mem_singleton.mp within
    exact self.behind _
  | memberAfterFinalize | noLogicalIndex | described => cases within

/-- The wording of an unhandled feature shows its spellings. -/
theorem Feature.text_shows {feature : Feature} {spelling : String}
    (within : spelling ∈ feature.spellings) : Shows feature.text spelling := by
  have self : Shows spelling spelling := .self spelling
  cases feature with
  | described => cases within
  | recordCompatibility left right =>
    rcases List.mem_cons.mp within with rfl | within
    · exact ((self.behind _).ahead _).ahead _
    · obtain rfl := List.mem_singleton.mp within
      exact self.behind _

/-- The wording of a fault shows its spellings. -/
theorem Fault.message_shows {fault : Fault} {spelling : String}
    (within : spelling ∈ fault.spellings) : Shows fault.message spelling := by
  cases fault with
  | internal breach => exact (breach.text_shows within).behind _
  | unimplemented feature location =>
    exact (((feature.text_shows within).behind _).ahead _).ahead _

/-! ## The faults of an answer -/

/-- Where the answer is a fault, the fault is an allowed one. -/
def FaultsAre {α : Type} (allowed : Fault → Prop) (answer : Except Fault α) : Prop :=
  ∀ fault, answer = .error fault → allowed fault

namespace FaultsAre

variable {α β : Type} {allowed : Fault → Prop}

/-- An answer that is no fault needs no permission. -/
theorem of_ok (value : α) : FaultsAre allowed (.ok value) :=
  fun _ absent => nomatch absent

/-- A fault that is allowed may be the answer. -/
theorem of_error {fault : Fault} (fits : allowed fault) :
    FaultsAre allowed (.error fault : Except Fault α) := by
  rintro other ⟨⟩
  exact fits

/-- Two questions in a row fail with the fault of the first or of the second. -/
theorem bind {first : Except Fault α} {next : α → Except Fault β}
    (early : FaultsAre allowed first) (late : ∀ value, FaultsAre allowed (next value)) :
    FaultsAre allowed (first >>= next) := by
  cases first with
  | error fault => exact of_error (early fault rfl)
  | ok value => exact late value

/-- Reading something off an answer adds no fault. -/
theorem map {answer : Except Fault α} (only : FaultsAre allowed answer) (read : α → β) :
    FaultsAre allowed (answer.map read) := by
  cases answer with
  | error fault => exact of_error (only fault rfl)
  | ok value => exact of_ok (read value)

end FaultsAre

namespace Graph

variable {graph : Graph}

/-- What the fault shows of types are spellings of the graph. -/
def Spells (graph : Graph) (fault : Fault) : Prop :=
  ∀ text ∈ fault.spellings, ∃ type, graph.spelling type = text

/-- The fault is the caller's mistake, and shows types by their spellings. -/
def Blames (graph : Graph) (fault : Fault) : Prop :=
  fault.isInternal = true ∧ graph.Spells fault

/-- A mistake that shows the spelling of one type. -/
theorem blames_of_spelling {breach : Breach} {type : Handle}
    (shown : breach.spellings = [graph.spelling type]) : graph.Blames (.internal breach) := by
  refine ⟨rfl, fun text within => ⟨type, ?_⟩⟩
  rw [Fault.spellings, shown] at within
  exact (List.mem_singleton.mp within).symm

/-- A mistake that shows no type. -/
theorem blames_of_none {breach : Breach} (shown : breach.spellings = []) :
    graph.Blames (.internal breach) := by
  refine ⟨rfl, fun text within => ?_⟩
  rw [Fault.spellings, shown] at within
  cases within

/-! ## Reaching into records -/

/-- What is no record is named by its spelling. -/
theorem record_faults (type : Handle) : FaultsAre graph.Blames (graph.record type) := by
  unfold record
  split
  case h_1 contents _ => exact .of_ok contents
  case h_2 => exact .of_error (blames_of_spelling rfl)

/-- A record that is under construction is named by its spelling, and so is what is no record. -/
theorem finalizedRecord_faults (type : Handle) :
    FaultsAre graph.Blames (graph.finalizedRecord type) := by
  refine (record_faults type).bind fun contents => ?_
  split
  case isTrue => exact .of_ok contents
  case isFalse => exact .of_error (blames_of_spelling rfl)

/-- A member that comes too late is refused by the handle of the record, and no spelling is
shown. -/
theorem addMember_faults (type : Handle) (name? : Option String) (memberType : Handle)
    (location : Location) :
    FaultsAre graph.Blames (graph.addMember type name? memberType location) := by
  refine (record_faults type).bind fun contents => ?_
  split
  case isTrue => exact .of_error (blames_of_none rfl)
  case isFalse => exact .of_ok _

/-- A field is looked up in a finalized record, and the lookup itself cannot fail. -/
theorem fieldNamed?_faults (type : Handle) (name : String) :
    FaultsAre graph.Blames (graph.fieldNamed? type name) :=
  (finalizedRecord_faults type).bind fun _ => .of_ok _

/-- The same holds of a field that is looked up by its position. -/
theorem fieldAt?_faults (type : Handle) (position : Nat) :
    FaultsAre graph.Blames (graph.fieldAt? type position) :=
  (finalizedRecord_faults type).bind fun _ => .of_ok _

/-- A field that has no position is refused by its name, which is not a type's. -/
theorem fieldIndex?_faults (type : Handle) (name : String) :
    FaultsAre graph.Blames (graph.fieldIndex? type name) := by
  refine (finalizedRecord_faults type).bind fun contents => ?_
  unfold Record.fieldIndex?
  split
  case h_1 => exact .of_ok none
  case h_2 field _ =>
    split
    case h_1 position _ => exact .of_ok (some position)
    case h_2 => exact .of_error (blames_of_none rfl)

/-! ## Sizes, alignments and layouts -/

/-- Where a number does not fit into a word, the type is named. -/
theorem fitting_faults (type : Handle) (count? : Option ByteCount) :
    FaultsAre graph.Blames (graph.fitting type count?) := by
  cases count? with
  | none => exact .of_error (blames_of_spelling rfl)
  | some count => exact .of_ok count

/-- A type without an object layout is named. -/
theorem noObjectLayout_blames (type : Handle) : graph.Blames (graph.noObjectLayout type) :=
  blames_of_spelling rfl

/-- The fault of an array is that of its element, or that the product does not fit. -/
theorem byteSize_faults (type : Handle) : FaultsAre graph.Blames (graph.byteSize type) := by
  have found : ∀ (steps : Nat) (type : Handle) (answer : Except Fault ByteCount),
      graph.byteSizeWithin steps type = some answer → FaultsAre graph.Blames answer := by
    intro steps
    induction steps with
    | zero => exact fun _ _ absent => nomatch absent
    | succ steps inductionHypothesis =>
      intro type answer found
      unfold byteSizeWithin at found
      split at found
      case h_4 element count there =>
        obtain ⟨inner, foundInner, rfl⟩ := Option.map_eq_some_iff.mp found
        cases inner with
        | error fault => exact .of_error (inductionHypothesis element _ foundInner fault rfl)
        | ok each => exact fitting_faults type _
      case h_5 =>
        cases found
        exact (finalizedRecord_faults type).map _
      case h_1 | h_2 | h_3 =>
        cases found
        exact .of_ok _
      case h_6 | h_7 =>
        cases found
        exact .of_error (noObjectLayout_blames type)
  unfold byteSize
  cases answered : graph.byteSizeWithin (type.index + 1) type with
  | none => exact .of_error (noObjectLayout_blames type)
  | some answer => exact found _ _ _ answered

/-- The fault of an array is that of its element. -/
theorem byteAlign_faults (type : Handle) : FaultsAre graph.Blames (graph.byteAlign type) := by
  have found : ∀ (steps : Nat) (type : Handle) (answer : Except Fault ByteCount),
      graph.byteAlignWithin steps type = some answer → FaultsAre graph.Blames answer := by
    intro steps
    induction steps with
    | zero => exact fun _ _ absent => nomatch absent
    | succ steps inductionHypothesis =>
      intro type answer found
      unfold byteAlignWithin at found
      split at found
      case h_4 element _ _ => exact inductionHypothesis element answer found
      case h_5 =>
        cases found
        exact (finalizedRecord_faults type).map _
      case h_1 | h_2 | h_3 =>
        cases found
        exact .of_ok _
      case h_6 | h_7 =>
        cases found
        exact .of_error (noObjectLayout_blames type)
  unfold byteAlign
  cases answered : graph.byteAlignWithin (type.index + 1) type with
  | none => exact .of_error (noObjectLayout_blames type)
  | some answer => exact found _ _ _ answered

/-- The widest boundary fails for a member that contains the record itself, which is named, or with
the alignment of a member. -/
theorem widestAlign_faults (type : Handle) (least : ByteCount) (members : List Member) :
    FaultsAre graph.Blames (graph.widestAlign type least members) := by
  induction members generalizing least with
  | nil => exact .of_ok least
  | cons member rest inductionHypothesis =>
    unfold widestAlign
    split
    case isTrue => exact .of_error (blames_of_spelling rfl)
    case isFalse => exact (byteAlign_faults member.type).bind fun _ => inductionHypothesis _

/-- A member is placed with its alignment and its size, and each of these may fail; so may the two
sums, which name the record. -/
theorem placeMembers_faults (type : Handle) (start : ByteCount) (members : List Member) :
    FaultsAre graph.Blames (graph.placeMembers type start members) := by
  induction members generalizing start with
  | nil => exact .of_ok _
  | cons member rest inductionHypothesis =>
    refine (byteAlign_faults member.type).bind fun _ => ?_
    refine (fitting_faults type _).bind fun _ => ?_
    refine (byteSize_faults member.type).bind fun _ => ?_
    refine (fitting_faults type _).bind fun stop => ?_
    exact (inductionHypothesis stop).bind fun _ => .of_ok _

/-- A layout is refused to unions and to finalized records by name, and fails otherwise with what it
is worked out from. -/
theorem layoutOf_faults (type : Handle) : FaultsAre graph.Blames (graph.layoutOf type) := by
  refine (record_faults type).bind fun contents => ?_
  split
  case isTrue => exact .of_error (blames_of_spelling rfl)
  case isFalse =>
    split
    case isTrue => exact .of_error (blames_of_spelling rfl)
    case isFalse =>
      refine (widestAlign_faults type _ _).bind fun _ => ?_
      refine (placeMembers_faults type _ _).bind fun _ => ?_
      exact (fitting_faults type _).bind fun _ => .of_ok _

/-- Finalizing fails with the faults of the layout. -/
theorem finalize_faults (type : Handle) : FaultsAre graph.Blames (graph.finalize type).value := by
  have only := graph.layoutOf_faults type
  unfold finalize
  cases settled : graph.layoutOf type with
  | error fault => exact .of_error (only fault settled)
  | ok contents => exact .of_ok _

/-! ## Conversions and assignments -/

/-- What has no rank is named. -/
theorem conversionRank_faults (type : Handle) :
    FaultsAre graph.Blames (graph.conversionRank type) := by
  unfold conversionRank
  split
  case h_1 | h_2 => exact .of_ok _
  case h_3 => exact .of_error (blames_of_spelling rfl)

/-- What has no range of integers is named. -/
theorem integerRange_faults (type : Handle) :
    FaultsAre graph.Blames (graph.integerRange type) := by
  unfold integerRange
  split
  case h_1 => exact .of_ok _
  case h_2 => exact .of_error (blames_of_spelling rfl)

/-- Comparing two ranges fails only where one of them does. -/
theorem canRepresent_faults (wide narrow : Handle) :
    FaultsAre graph.Blames (graph.canRepresent wide narrow) := by
  refine (integerRange_faults wide).bind fun _ => ?_
  exact (integerRange_faults narrow).bind fun _ => .of_ok _

/-- Two different records are shown both, and the fault is not the caller's mistake. -/
theorem compatibleRecords_faults (left right : Handle) (location : Location) :
    FaultsAre graph.Spells (graph.compatibleRecords left right location).value := by
  unfold compatibleRecords
  split
  case isTrue => exact .of_ok false
  case isFalse =>
    split
    case isTrue => exact .of_ok true
    case isFalse =>
      apply FaultsAre.of_error
      intro text shown
      rcases List.mem_cons.mp shown with rfl | shown
      · exact ⟨left, rfl⟩
      · exact ⟨right, (List.mem_singleton.mp shown).symm⟩

/-- Two scalars are no question, and all other types are judged as records, with the same faults. -/
theorem isAssignable_faults (target source : Handle) (location : Location) :
    FaultsAre graph.Spells (graph.isAssignable target source location).value := by
  unfold isAssignable
  split
  case isTrue => exact .of_ok true
  case isFalse => exact compatibleRecords_faults target source location

/-! ## All questions together -/

/-- The fault is the answer of the graph to a question or the refusal of an operation. -/
inductive Reports (graph : Graph) (fault : Fault) : Prop
  | record {type : Handle} (refused : graph.record type = .error fault)
  | finalizedRecord {type : Handle} (refused : graph.finalizedRecord type = .error fault)
  | fieldNamed? {type : Handle} {name : String}
      (refused : graph.fieldNamed? type name = .error fault)
  | fieldAt? {type : Handle} {position : Nat}
      (refused : graph.fieldAt? type position = .error fault)
  | fieldIndex? {type : Handle} {name : String}
      (refused : graph.fieldIndex? type name = .error fault)
  | byteSize {type : Handle} (refused : graph.byteSize type = .error fault)
  | byteAlign {type : Handle} (refused : graph.byteAlign type = .error fault)
  | conversionRank {type : Handle} (refused : graph.conversionRank type = .error fault)
  | integerRange {type : Handle} (refused : graph.integerRange type = .error fault)
  | canRepresent {wide narrow : Handle} (refused : graph.canRepresent wide narrow = .error fault)
  | compatibleRecords {left right : Handle} {location : Location}
      (refused : (graph.compatibleRecords left right location).value = .error fault)
  | isAssignable {target source : Handle} {location : Location}
      (refused : (graph.isAssignable target source location).value = .error fault)
  | operation {operation : Operation}
      (refused : (graph.perform operation).result = .error fault)

/-- An operation that is refused is refused for the caller's mistake. -/
theorem perform_faults (operation : Operation) :
    FaultsAre graph.Blames (graph.perform operation).result := by
  have change : ∀ {change : Logged (Except Fault Graph)}, FaultsAre graph.Blames change.value →
      FaultsAre graph.Blames (Outcome.ofChange graph change).result := by
    intro change only
    unfold Outcome.ofChange
    cases answered : change.value with
    | ok after => exact .of_ok none
    | error fault => exact .of_error (only fault answered)
  cases operation with
  | addMember type name? memberType location =>
    exact change (addMember_faults type name? memberType location)
  | finalize type => exact change (finalize_faults type)
  | internVoid | internBasic | internPointer | makeEnumeration | makeFunction | makeArray
  | makeRecord => exact .of_ok _

/-- What any fault of a graph shows of types are spellings of the graph. -/
theorem Reports.spells {fault : Fault} (reports : graph.Reports fault) : graph.Spells fault := by
  cases reports with
  | record refused => exact (record_faults _ _ refused).2
  | finalizedRecord refused => exact (finalizedRecord_faults _ _ refused).2
  | fieldNamed? refused => exact (fieldNamed?_faults _ _ _ refused).2
  | fieldAt? refused => exact (fieldAt?_faults _ _ _ refused).2
  | fieldIndex? refused => exact (fieldIndex?_faults _ _ _ refused).2
  | byteSize refused => exact (byteSize_faults _ _ refused).2
  | byteAlign refused => exact (byteAlign_faults _ _ refused).2
  | conversionRank refused => exact (conversionRank_faults _ _ refused).2
  | integerRange refused => exact (integerRange_faults _ _ refused).2
  | canRepresent refused => exact (canRepresent_faults _ _ _ refused).2
  | compatibleRecords refused => exact compatibleRecords_faults _ _ _ _ refused
  | isAssignable refused => exact isAssignable_faults _ _ _ _ refused
  | operation refused => exact (perform_faults _ _ refused).2

end Graph

end CTypeGraph
