import CTypeGraph.Proofs.RecordLife

/-!
# The members of a record are its declarations

A history may work on many records at once, declare members of one between those of another,
and finalize some too early and others twice. The members of a record at any time are then the
arguments of the additions to it that succeeded, in their order: `additions` reads them from the
history, and nothing else in the history is seen in them. Finalizing gives the members their
offsets, and does nothing to their names, their types and their order.

Whether one more addition succeeds can be read from the history too. It does unless the record
was finalized, which is an operation that succeeded, and not one that was tried.

Nothing is asked of the handles here. An operation on a type that is not there is refused, and
a record is without members and open when it is made, whatever was tried on its handle before.
-/

namespace CTypeGraph

/-- What was declared of the type behind a node. Only records have declarations. -/
def Node.declared : Node → List (Option String × Handle)
  | .record contents => contents.declared
  | .void | .basic _ | .enumeration | .pointer _ | .function _ | .array .. => []

/-- Whether the node is a record with a layout. -/
def Node.isFinalized : Node → Bool
  | .record contents => contents.isFinalized
  | .void | .basic _ | .enumeration | .pointer _ | .function _ | .array .. => false

/-- The name and the type that an operation with this result has added to a record. -/
def Operation.addition? (type : Handle) :
    Operation → Except Fault (Option Handle) → Option (Option String × Handle)
  | .addMember record name? memberType _, .ok _ =>
    if record = type then some (name?, memberType) else none
  | _, _ => none

/-- Nothing is added to a record by an operation that does not name it. -/
theorem Operation.addition?_of_subject?_ne {type : Handle} {operation : Operation}
    (other : operation.subject? ≠ some type) (result : Except Fault (Option Handle)) :
    operation.addition? type result = none := by
  cases operation with
  | addMember record name? memberType location =>
    have different : record ≠ type := by
      rintro rfl
      exact other rfl
    cases result with
    | ok made => exact if_neg different
    | error fault => rfl
  | _ => rfl

/-- Nothing is added by an operation that is refused. -/
theorem Operation.addition?_error (type : Handle) (operation : Operation) (fault : Fault) :
    operation.addition? type (.error fault) = none := by
  cases operation <;> rfl

namespace Graph

variable {graph : Graph} {type : Handle} {contents : Record} {operation : Operation}

/-! ## One operation -/

/-- A record that was not there before an operation is a fresh one. -/
theorem perform_newcomer (absent : graph.size ≤ type.index)
    (there : (graph.perform operation).graph.node type = .record contents) :
    ∃ isUnion, contents = .fresh isUnion := by
  have grown : (graph.perform operation).graph.size ≠ graph.size :=
    Nat.ne_of_gt (Nat.lt_of_le_of_lt absent (present_of_record there))
  have enrolls : ∀ {node}, operation.asked? = some node ∨ operation.made? = some node →
      node = .record contents := by
    intro node wanted
    rcases perform_enrolls wanted with same | ⟨_, done⟩
    · exact absurd (by rw [same]) grown
    · rw [done] at there
      rcases present_enroll_iff.mp (present_of_record there) with old | rfl
      · exact absurd old (Nat.not_lt.mpr absent)
      · rwa [node_enroll_new] at there
  cases operation with
  | internVoid | internBasic | internPointer => cases enrolls (Or.inl rfl)
  | makeEnumeration | makeFunction | makeArray => cases enrolls (Or.inr rfl)
  | makeRecord isUnion =>
    cases enrolls (Or.inr rfl)
    exact ⟨isUnion, rfl⟩
  | addMember record name? memberType location =>
    rcases graph.perform_addMember_cases record name? memberType location with
      ⟨_, _, _, done⟩ | same
    · exact absurd (by rw [done, size_replace]) grown
    · exact absurd (by rw [same]) grown
  | finalize record =>
    rcases graph.perform_finalize_cases record with ⟨_, _, done⟩ | same
    · exact absurd (by rw [done, size_replace]) grown
    · exact absurd (by rw [same]) grown

/-- An operation that does not name a type declares nothing of it and does not finalize it. -/
theorem perform_spares (other : operation.subject? ≠ some type) :
    ((graph.perform operation).graph.node type).declared = (graph.node type).declared ∧
      ((graph.perform operation).graph.node type).isFinalized =
        (graph.node type).isFinalized := by
  by_cases present : type.index < graph.size
  · rw [perform_node_other present other]
    exact ⟨rfl, rfl⟩
  · -- The operation may make a type at this very handle, but then it is a new one.
    have absent : graph.size ≤ type.index := Nat.le_of_not_lt present
    rw [node_of_size_le absent]
    cases there : (graph.perform operation).graph.node type with
    | record contents =>
      obtain ⟨isUnion, rfl⟩ := perform_newcomer absent there
      exact ⟨rfl, rfl⟩
    | _ => exact ⟨rfl, rfl⟩

/-- An operation that names a record and succeeds has found it open. It has put a member at its
end, or it has laid it out with the members it had. -/
theorem perform_subject (names : operation.subject? = some type) {made : Option Handle}
    (succeeded : (graph.perform operation).result = .ok made) :
    ∃ before later, graph.node type = .record before ∧
      (graph.perform operation).graph.node type = .record later ∧
      before.isFinalized = false ∧
      later.declared = before.declared ++ (operation.addition? type (.ok made)).toList ∧
      later.isFinalized = (operation == .finalize type) := by
  cases operation with
  | addMember record name? memberType location =>
    obtain rfl : record = type := Option.some.inj names
    cases answered : graph.addMember record name? memberType location with
    | ok after =>
      obtain ⟨before, there, building, rfl⟩ := addMember_eq_ok_iff.mp answered
      have replaced := node_replace_same graph (.record
        { before with members := before.members ++ [⟨name?, memberType, none⟩] })
        (present_of_record there)
      simp only [perform, Outcome.ofChange, Logged.silent, answered]
      refine ⟨before, _, there, replaced, building, ?_, building⟩
      simp [Record.declared, Operation.addition?]
    | error fault => simp [perform, Outcome.ofChange, Logged.silent, answered] at succeeded
  | finalize record =>
    obtain rfl : record = type := Option.some.inj names
    cases answered : (graph.finalize record).value with
    | ok after =>
      obtain ⟨settled, layout, rfl⟩ := finalize_eq_ok_iff.mp answered
      obtain ⟨draft, stop, there, struct, building, settles⟩ :=
        layoutOf_eq_ok_iff_settles.mp layout
      have replaced := node_replace_same graph (.record settled) (present_of_record there)
      simp only [perform, Outcome.ofChange, answered]
      have kept : settled.declared = draft.declared := settles.places.declared
      refine ⟨draft, settled, there, replaced, building, ?_, ?_⟩
      · exact kept.trans (List.append_nil _).symm
      · simpa using settles.isFinalized
    | error fault => simp [perform, Outcome.ofChange, answered] at succeeded
  | internVoid | internBasic | internPointer | makeEnumeration | makeFunction | makeArray
  | makeRecord => cases names

/-- What has been declared of a type is followed by what an operation adds to it. -/
theorem declared_perform (graph : Graph) (type : Handle) (operation : Operation) :
    ((graph.perform operation).graph.node type).declared = (graph.node type).declared ++
      (operation.addition? type (graph.perform operation).result).toList := by
  by_cases names : operation.subject? = some type
  · cases result : (graph.perform operation).result with
    | ok made =>
      obtain ⟨before, later, there, thereLater, _, declared, _⟩ := perform_subject names result
      rw [there, thereLater]
      exact declared
    | error fault =>
      rw [perform_graph_of_error result, Operation.addition?_error, Option.toList_none,
        List.append_nil]
  · rw [(perform_spares names).1, Operation.addition?_of_subject?_ne names, Option.toList_none,
      List.append_nil]

/-- A type becomes finalized exactly through an operation that finalizes it and succeeds. -/
theorem isFinalized_perform (graph : Graph) (type : Handle) (operation : Operation) :
    (graph.node type).isFinalized.toNat +
        (operation == .finalize type && (graph.perform operation).result.isOk).toNat =
      ((graph.perform operation).graph.node type).isFinalized.toNat := by
  by_cases names : operation.subject? = some type
  · cases result : (graph.perform operation).result with
    | ok made =>
      obtain ⟨before, later, there, thereLater, building, _, final⟩ := perform_subject names result
      simp [there, thereLater, Node.isFinalized, building, final, Except.isOk, Except.toBool]
    | error fault => simp [perform_graph_of_error result, Except.isOk, Except.toBool]
  · simp [(perform_spares names).2, Operation.ne_finalize_of_subject?_ne names]

/-! ## Whole histories -/

/-- The names and types that the operations of a list have added to a record, in order. -/
def additions (graph : Graph) (type : Handle) (operations : List Operation) :
    List (Option String × Handle) :=
  (operations.zip (graph.performAll operations)).filterMap fun performed =>
    performed.1.addition? type performed.2.result

/-- What the first operation adds comes first. -/
theorem additions_cons (rest : List Operation) :
    graph.additions type (operation :: rest) =
      (operation.addition? type (graph.perform operation).result).toList ++
        (graph.perform operation).graph.additions type rest := by
  simp only [additions, performAll, List.zip_cons_cons, List.filterMap_cons]
  cases operation.addition? type (graph.perform operation).result <;> rfl

/-- What has been declared of a type is followed by what a list of operations adds to it. -/
theorem declared_after (graph : Graph) (type : Handle) (operations : List Operation) :
    ((graph.after operations).node type).declared =
      (graph.node type).declared ++ graph.additions type operations := by
  induction operations generalizing graph with
  | nil => exact (List.append_nil _).symm
  | cons operation rest inductionHypothesis =>
    rw [after_cons, inductionHypothesis, declared_perform, additions_cons, List.append_assoc]

/-- A type becomes finalized exactly through the one success in finalizing it. -/
theorem isFinalized_after (graph : Graph) (type : Handle) (operations : List Operation) :
    (graph.node type).isFinalized.toNat + graph.finalizations type operations =
      ((graph.after operations).node type).isFinalized.toNat := by
  induction operations generalizing graph with
  | nil => rfl
  | cons operation rest inductionHypothesis =>
    rw [after_cons, ← inductionHypothesis, ← isFinalized_perform, finalizations_cons,
      Nat.add_assoc]

/-- A member is added exactly to a record that is not finalized. -/
theorem perform_addMember_isOk_iff {name? : Option String} {memberType : Handle}
    {location : Location} :
    (graph.perform (.addMember type name? memberType location)).result.isOk = true ↔
      ∃ contents, graph.node type = .record contents ∧ contents.isFinalized = false := by
  have answered : (graph.perform (.addMember type name? memberType location)).result.isOk =
      (graph.addMember type name? memberType location).isOk := by
    simp only [perform, Outcome.ofChange, Logged.silent]
    cases graph.addMember type name? memberType location <;> rfl
  rw [answered]
  constructor
  · intro succeeded
    cases added : graph.addMember type name? memberType location with
    | ok after =>
      obtain ⟨contents, there, building, _⟩ := addMember_eq_ok_iff.mp added
      exact ⟨contents, there, building⟩
    | error fault =>
      rw [added] at succeeded
      cases succeeded
  · rintro ⟨contents, there, building⟩
    rw [addMember_eq_ok_iff.mpr ⟨contents, there, building, rfl⟩]
    rfl

/-- The members of a record are, at any time in any history, what was successfully added to it,
in that order. One more is accepted exactly by a record that no operation has finalized. -/
theorem members_are_additions (model : DataModel) (operations : List Operation) (type : Handle) :
    (∀ contents, ((empty model).after operations).node type = .record contents →
        contents.declared = (empty model).additions type operations) ∧
      ∀ name? memberType location,
        (((empty model).after operations).perform
            (.addMember type name? memberType location)).result.isOk = true ↔
          (∃ contents, ((empty model).after operations).node type = .record contents) ∧
            (empty model).finalizations type operations = 0 := by
  have vacant : (empty model).node type = .void := node_of_size_le (Nat.zero_le _)
  have declared := declared_after (empty model) type operations
  have finalized := isFinalized_after (empty model) type operations
  rw [vacant] at declared finalized
  constructor
  · intro contents there
    rwa [there] at declared
  · intro name? memberType location
    rw [perform_addMember_isOk_iff]
    constructor
    · rintro ⟨contents, there, building⟩
      rw [there, Node.isFinalized, building] at finalized
      exact ⟨⟨contents, there⟩, (Nat.zero_add _).symm.trans finalized⟩
    · rintro ⟨⟨contents, there⟩, never⟩
      rw [there, never] at finalized
      exact ⟨contents, there, Bool.toNat_eq_zero.mp finalized.symm⟩

end Graph

/-- The nested history declares five members of the outermost struct in two parts, between
members of the other structs and around an attempt to finalize it that fails. After its first
eighteen operations one more is accepted, and none when the second attempt has succeeded. -/
theorem nested_members_are_additions :
    nestedHistory[15]? = some (.finalize ⟨4⟩) ∧ nestedHistory[21]? = some (.finalize ⟨4⟩) ∧
      (Graph.empty .lp64).additions ⟨4⟩ nestedHistory =
        [(some "flag", ⟨0⟩), (none, ⟨3⟩), (some "rows", ⟨5⟩), (some "next", ⟨6⟩),
          (some "visit", ⟨8⟩)] ∧
      (((Graph.empty .lp64).after (nestedHistory.take 18)).perform
        (.addMember ⟨4⟩ none ⟨2⟩ default)).result.isOk = true ∧
      (nestedGraph.perform (.addMember ⟨4⟩ none ⟨2⟩ default)).result.isOk = false := by
  obtain ⟨declared, more⟩ := Graph.members_are_additions .lp64 nestedHistory ⟨4⟩
  obtain ⟨_, early⟩ := Graph.members_are_additions .lp64 (nestedHistory.take 18) ⟨4⟩
  refine ⟨rfl, rfl, (declared nestedRecord nestedGraph_record).symm, ?_, ?_⟩
  · exact (early none ⟨2⟩ default).mpr
      ⟨⟨draftNestedRecord, by decide +kernel⟩, by decide +kernel⟩
  · rw [← Bool.not_eq_true]
    intro accepted
    have never := ((more none ⟨2⟩ default).mp accepted).2
    exact absurd never (by decide +kernel)

end CTypeGraph
