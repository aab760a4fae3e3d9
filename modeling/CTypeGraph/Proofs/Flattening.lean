import CTypeGraph.Proofs.Storage

/-!
# The flat list is the flattened declaration

Finalizing a record replaces an unnamed member of record type by the flat list
stored in that record, one level deep. The flattening proper goes all the way
down through the declarations: `Flattens` follows unnamed records to any depth,
adds up the offsets on the way as plain numbers, and never reads a stored flat
list. Both give the same fields in the same order at every later time.

`FirstNamed` is the walk that looks for one name: depth first, into unnamed
records only, up to the first hit. It finds what the lookup by name finds.
-/

namespace CTypeGraph

/-- A field with its distance from the start of the outermost record. The empty
string is a name. -/
structure Entry where
  name? : Option String
  type : Handle
  offset : Nat
  deriving DecidableEq, Repr

/-- A member read as a field, when its offset is resolved. -/
def Member.entry? (member : Member) : Option Entry :=
  member.offset?.map fun offset => ⟨member.name?, member.type, offset.toNat⟩

/-- A member read as a field of a record that starts at `base`. An absent offset
reads as zero; it is established where this is used that none is absent. -/
def Member.entryFrom (base : Nat) (member : Member) : Entry :=
  ⟨member.name?, member.type, base + member.offsetOrZero.toNat⟩

namespace Graph

variable {graph : Graph} {type : Handle}

/-- The record whose members stand for this member: it has no name, and its type
is that record. A member with any name, and one of any other type, stands for itself. -/
def opened? (graph : Graph) (member : Member) : Option Record :=
  match member.name? with
  | none => (graph.node member.type).record?
  | some _ => none

/-- The fields of a list of members that starts at `base`, in the order of
declaration. -/
inductive Flattens (graph : Graph) : (base : Nat) → List Member → List Entry → Prop
  | nil {base : Nat} : Flattens graph base [] []
  | keep {base : Nat} {member : Member} {rest : List Member} {offset : ByteCount}
      {entries : List Entry} (closed : graph.opened? member = none)
      (placed : member.offset? = some offset) (others : Flattens graph base rest entries) :
      Flattens graph base (member :: rest)
        (⟨member.name?, member.type, base + offset.toNat⟩ :: entries)
  | splice {base : Nat} {member : Member} {rest : List Member} {inner : Record}
      {offset : ByteCount} {fields entries : List Entry}
      (opened : graph.opened? member = some inner) (placed : member.offset? = some offset)
      (within : Flattens graph (base + offset.toNat) inner.members fields)
      (others : Flattens graph base rest entries) :
      Flattens graph base (member :: rest) (fields ++ entries)

/-- The first field of this name on a walk through the declarations. A member that
stands for itself is looked at, an unnamed record is walked through, and the walk
goes on behind it only when the name was not found inside. -/
inductive FirstNamed (graph : Graph) (name : String) :
    (base : Nat) → List Member → Option Entry → Prop
  | exhausted {base : Nat} : FirstNamed graph name base [] none
  | here {base : Nat} {member : Member} {rest : List Member} {offset : ByteCount}
      (closed : graph.opened? member = none) (named : member.hasName name = true)
      (placed : member.offset? = some offset) :
      FirstNamed graph name base (member :: rest)
        (some ⟨member.name?, member.type, base + offset.toNat⟩)
  | past {base : Nat} {member : Member} {rest : List Member} {found : Option Entry}
      (closed : graph.opened? member = none) (other : member.hasName name = false)
      (others : FirstNamed graph name base rest found) :
      FirstNamed graph name base (member :: rest) found
  | inside {base : Nat} {member : Member} {rest : List Member} {inner : Record}
      {offset : ByteCount} {entry : Entry} (opened : graph.opened? member = some inner)
      (placed : member.offset? = some offset)
      (within : FirstNamed graph name (base + offset.toNat) inner.members (some entry)) :
      FirstNamed graph name base (member :: rest) (some entry)
  | behind {base : Nat} {member : Member} {rest : List Member} {inner : Record}
      {offset : ByteCount} {found : Option Entry} (opened : graph.opened? member = some inner)
      (placed : member.offset? = some offset)
      (within : FirstNamed graph name (base + offset.toNat) inner.members none)
      (others : FirstNamed graph name base rest found) :
      FirstNamed graph name base (member :: rest) found

/-- A list of members has one flattening at most. -/
theorem Flattens.unique {base : Nat} {members : List Member} {one other : List Entry}
    (flattens : graph.Flattens base members one) (again : graph.Flattens base members other) :
    one = other := by
  induction flattens generalizing other with
  | nil =>
    cases again
    rfl
  | keep closed placed _ inductionHypothesis =>
    cases again with
    | keep _ placed' others' =>
      rw [placed, Option.some.injEq] at placed'
      rw [placed', inductionHypothesis others']
    | splice opened' => simp [closed] at opened'
  | splice opened placed _ _ inductionWithin inductionOthers =>
    cases again with
    | keep closed' => simp [opened] at closed'
    | splice opened' placed' within' others' =>
      rw [opened, Option.some.injEq] at opened'
      rw [placed, Option.some.injEq] at placed'
      subst opened' placed'
      rw [inductionWithin within', inductionOthers others']

/-- The walk for a name finds the first entry of the flattening that has it, and
nothing else. -/
theorem Flattens.firstNamed_iff {base : Nat} {members : List Member} {entries : List Entry}
    (flattens : graph.Flattens base members entries) {name : String} {found : Option Entry} :
    graph.FirstNamed name base members found ↔
      found = entries.find? (fun entry => entry.name? == some name) := by
  induction flattens generalizing found with
  | nil =>
    constructor
    · rintro ⟨⟩
      rfl
    · rintro rfl
      exact .exhausted
  | @keep base member rest offset entries closed placed _ inductionHypothesis =>
    have head : (member.name? == some name) = member.hasName name := rfl
    rw [List.find?_cons, head]
    constructor
    · intro walk
      cases walk with
      | here _ named placed' =>
        rw [placed, Option.some.injEq] at placed'
        simp [named, placed']
      | past _ other others =>
        simp only [other]
        exact inductionHypothesis.mp others
      | inside opened => simp [closed] at opened
      | behind opened => simp [closed] at opened
    · intro same
      cases named : member.hasName name with
      | true =>
        simp only [named] at same
        rw [same]
        exact .here closed named placed
      | false =>
        simp only [named] at same
        exact .past closed named (inductionHypothesis.mpr same)
  | @splice base member rest inner offset fields entries opened placed _ _ inductionWithin
      inductionOthers =>
    rw [List.find?_append]
    constructor
    · intro walk
      cases walk with
      | here closed => simp [opened] at closed
      | past closed => simp [opened] at closed
      | inside opened' placed' within =>
        rw [opened, Option.some.injEq] at opened'
        rw [placed, Option.some.injEq] at placed'
        subst opened' placed'
        rw [← inductionWithin.mp within, Option.some_or]
      | behind opened' placed' within others =>
        rw [opened, Option.some.injEq] at opened'
        rw [placed, Option.some.injEq] at placed'
        subst opened' placed'
        rw [← inductionWithin.mp within, Option.none_or]
        exact inductionOthers.mp others
    · intro same
      cases inside : fields.find? (fun entry => entry.name? == some name) with
      | some entry =>
        rw [inside, Option.some_or] at same
        rw [same]
        exact .inside opened placed (inductionWithin.mpr inside.symm)
      | none =>
        rw [inside, Option.none_or] at same
        exact .behind opened placed (inductionWithin.mpr inside.symm) (inductionOthers.mpr same)

/-- A member that stands for itself is its own only field. -/
theorem fieldsOf_closed {member : Member} (closed : graph.opened? member = none) :
    graph.fieldsOf member = [member] := by
  unfold fieldsOf
  split
  case h_1 inner unnamed there => simp [opened?, unnamed, there, Node.record?] at closed
  case h_2 => rfl

/-- A member that stands for a record has the fields of that record, moved out. -/
theorem fieldsOf_opened {member : Member} {inner : Record}
    (opened : graph.opened? member = some inner) :
    graph.node member.type = .record inner ∧
      graph.fieldsOf member = inner.exports.map (·.shiftedBy member.offsetOrZero) := by
  have shape : member.name? = none ∧ graph.node member.type = .record inner := by
    unfold opened? at opened
    cases named : member.name? with
    | some name => simp [named] at opened
    | none =>
      cases there : graph.node member.type <;> simp_all [Node.record?]
  exact ⟨shape.2, by simp only [fieldsOf, shape.1, shape.2]⟩

/-- Every field that fills a record is resolved and starts within the limit. -/
theorem Fills.resolved {start limit : Nat} {fields : List Member}
    (fills : graph.Fills start fields limit) :
    ∀ field ∈ fields, ∃ offset, field.offset? = some offset ∧ offset.toNat ≤ limit := by
  intro field within
  obtain ⟨offset, extent, resolved, _, ends⟩ := fills.inside field within
  exact ⟨offset, resolved, Nat.le_trans (Nat.le_add_right _ _) ends⟩

/-- Moving a field out by a distance that leaves it in the word is the same as
starting its record further out. -/
theorem entryFrom_shiftedBy {field : Member} {offset distance : ByteCount} (base : Nat)
    (resolved : field.offset? = some offset)
    (fits : offset.toNat + distance.toNat < UInt64.size) :
    (field.shiftedBy distance).entryFrom base = field.entryFrom (base + distance.toNat) := by
  have exact : (offset + distance).toNat = offset.toNat + distance.toNat :=
    ByteCount.toNat_add_of_lt fits
  simp only [Member.entryFrom, Member.shiftedBy, Member.offsetOrZero, resolved, Option.getD_some,
    exact, Entry.mk.injEq, true_and]
  omega

/-- The fields that placed members contribute are the flattening of the members, if
the same is true of the records they hold. The bound on the end of the members is
what keeps the offsets of the inner fields from wrapping. -/
theorem Fills.flattens {start limit : Nat} {members : List Member}
    (fills : graph.Fills start members limit) (fits : limit < UInt64.size)
    (inner : ∀ member ∈ members, ∀ contents, graph.node member.type = .record contents →
      graph.Fills 0 contents.exports contents.size.toNat ∧
        ∀ base, graph.Flattens base contents.members (contents.exports.map (·.entryFrom base)))
    (base : Nat) :
    graph.Flattens base members ((members.flatMap graph.fieldsOf).map (·.entryFrom base)) := by
  induction fills with
  | done => exact .nil
  | @next start limit member rest offset extent resolved measured _ others inductionHypothesis =>
    have tail := inductionHypothesis fits fun other within =>
      inner other (List.mem_cons_of_mem _ within)
    have read : member.offsetOrZero = offset := by simp [Member.offsetOrZero, resolved]
    rw [List.flatMap_cons, List.map_append]
    cases opening : graph.opened? member with
    | none =>
      rw [fieldsOf_closed opening, List.map_singleton, Member.entryFrom, read]
      exact .keep opening resolved tail
    | some contents =>
      obtain ⟨there, fields⟩ := fieldsOf_opened opening
      obtain ⟨fillsInner, flattensInner⟩ := inner member List.mem_cons_self contents there
      obtain ⟨_, same⟩ := measured.of_record there
      have bound : offset.toNat + contents.size.toNat ≤ limit := by
        have room := others.room
        rw [same] at room
        exact room
      have moved : (graph.fieldsOf member).map (·.entryFrom base) =
          contents.exports.map (·.entryFrom (base + offset.toNat)) := by
        rw [fields, read, List.map_map]
        apply List.map_congr_left
        intro field within
        obtain ⟨inside, resolvedInside, bounded⟩ := fillsInner.resolved field within
        exact entryFrom_shiftedBy base resolvedInside (by omega)
      rw [moved]
      exact .splice opening resolved (flattensInner _) tail

/-- In a reachable graph the flat list of a finalized record is the flattening of
its declaration, wherever the record may start. -/
theorem Reachable.flattens (reachable : graph.Reachable) {contents : Record}
    (there : graph.node type = .record contents) (final : contents.isFinalized = true) :
    ∀ base, graph.Flattens base contents.members (contents.exports.map (·.entryFrom base)) := by
  refine reachable.settled_induction (motive := fun _ contents =>
    ∀ base, graph.Flattens base contents.members (contents.exports.map (·.entryFrom base)))
    ?_ there final
  intro type contents there settled inner base
  have exports : contents.exports = contents.members.flatMap graph.fieldsOf := by
    obtain ⟨_, _, _, _, settles⟩ := settled
    exact settles.exports
  rw [exports]
  refine settled.members_fill.flattens (UInt64.toNat_lt_size _) ?_ base
  intro member within innerContents innerThere
  obtain ⟨innerFinal, flattened⟩ := inner member within innerContents innerThere
  exact ⟨reachable.exports_fill innerThere innerFinal, flattened⟩

/-- In a reachable graph the flat list of a finalized record is its full flattening,
entry by entry, and nothing else is. A lookup by name gives the field that the walk
for this name finds first, or none when the walk finds none. -/
theorem Reachable.exports_flattened (reachable : graph.Reachable) {contents : Record}
    (there : graph.node type = .record contents) (final : contents.isFinalized = true) :
    ∃ entries, contents.exports.map Member.entry? = entries.map some ∧
      (∀ other, graph.Flattens 0 contents.members other ↔ other = entries) ∧
      ∀ name, ∃ found, graph.fieldNamed? type name = .ok found ∧
        ∀ first, graph.FirstNamed name 0 contents.members first ↔
          found.map Member.entry? = first.map some := by
  have flattens := reachable.flattens there final 0
  have read : ∀ field ∈ contents.exports, field.entry? = some (field.entryFrom 0) := by
    intro field within
    obtain ⟨offset, resolved, _⟩ := (reachable.exports_fill there final).resolved field within
    simp [Member.entry?, Member.entryFrom, Member.offsetOrZero, resolved]
  refine ⟨contents.exports.map (·.entryFrom 0), ?_, ?_, ?_⟩
  · rw [List.map_map]
    exact List.map_congr_left read
  · intro other
    refine ⟨fun again => again.unique flattens, ?_⟩
    rintro rfl
    exact flattens
  · intro name
    have answered : graph.fieldNamed? type name = .ok (contents.fieldNamed? name) := by
      unfold Graph.fieldNamed?
      rw [finalizedRecord_eq_ok_iff.mpr ⟨there, final⟩]
      rfl
    refine ⟨contents.fieldNamed? name, answered, fun first => ?_⟩
    have found : (contents.fieldNamed? name).map Member.entry? =
        ((contents.fieldNamed? name).map (·.entryFrom 0)).map some := by
      cases located : contents.fieldNamed? name with
      | none => rfl
      | some field => simp [read field (List.mem_of_find?_eq_some located)]
    have walked : (contents.exports.map (·.entryFrom 0)).find?
          (fun entry => entry.name? == some name) =
        (contents.fieldNamed? name).map (·.entryFrom 0) := by
      rw [List.find?_map]
      rfl
    rw [flattens.firstNamed_iff, walked, found,
      (Option.map_injective (Option.some_injective _)).eq_iff]
    exact eq_comm

end Graph

/-- Two levels of unnamed structs give way to their fields, with both distances
added, and the named members stand for themselves. -/
theorem nested_exports_flattened :
    nestedGraph.Reachable ∧ nestedGraph.node ⟨4⟩ = .record nestedRecord ∧
      nestedRecord.isFinalized = true ∧
      ∃ entries, nestedRecord.exports.map Member.entry? = entries.map some ∧
        (∀ other, nestedGraph.Flattens 0 nestedRecord.members other ↔ other = entries) ∧
        ∀ name, ∃ found, nestedGraph.fieldNamed? ⟨4⟩ name = .ok found ∧
          ∀ first, nestedGraph.FirstNamed name 0 nestedRecord.members first ↔
            found.map Member.entry? = first.map some :=
  ⟨nestedGraph_reachable, nestedGraph_record, rfl,
    nestedGraph_reachable.exports_flattened nestedGraph_record rfl⟩

end CTypeGraph
