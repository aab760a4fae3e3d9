import CTypeGraph.Graph.Conversion
import CTypeGraph.Proofs.Growth
import Mathlib.Algebra.Order.Ring.Int
import Mathlib.Algebra.Order.Ring.Basic

/-!
# The values of integer types

An integer type is a number of bytes and a sign, and its values are what the bit patterns
of these bytes denote. `Denotes` says just that. Of the bytes at most eight carry the
value, so that types larger than this have no more values than types of eight bytes.

Containment of one integer type in another is decided on the ends of their ranges. That
this is containment of their values holds because no range is empty. It comes down to the
bytes: between types of one sign the wider one has all the values, a signed type has those
of an unsigned one if it is wider, for the sign takes a bit, and an unsigned type never has
those of a signed one. All of this is for types of at least one byte. With no byte at all
there would be no bit for the sign.
-/

namespace CTypeGraph

/-! ## Ranges -/

namespace IntegerRange

/-- A number is in a range when it lies between the ends, which belong to the range. -/
instance : Membership Int IntegerRange where
  mem range value := range.least ≤ value ∧ value ≤ range.greatest

/-- Membership of a range is the two comparisons with its ends. -/
theorem mem_iff {range : IntegerRange} {value : Int} :
    value ∈ range ↔ range.least ≤ value ∧ value ≤ range.greatest := Iff.rfl

/-- Covering is the two comparisons of the ends. -/
theorem covers_iff_ends {outer inner : IntegerRange} :
    outer.covers inner = true ↔
      outer.least ≤ inner.least ∧ inner.greatest ≤ outer.greatest := by
  simp only [covers, decide_eq_true_eq]

/-- Unless the inner range is empty, comparing the ends is comparing the values. -/
theorem covers_iff {outer inner : IntegerRange} (inhabited : inner.least ≤ inner.greatest) :
    outer.covers inner = true ↔ ∀ value, value ∈ inner → value ∈ outer := by
  simp only [covers_iff_ends, mem_iff]
  constructor
  · rintro ⟨below, above⟩ value ⟨least, greatest⟩
    exact ⟨Int.le_trans below least, Int.le_trans greatest above⟩
  · intro contained
    exact ⟨(contained inner.least ⟨Int.le_refl _, inhabited⟩).1,
      (contained inner.greatest ⟨inhabited, Int.le_refl _⟩).2⟩

/-- The numbers that a signed word of 128 bits holds. Ranges are worked out in such words. -/
def ofDoubleWord : IntegerRange := ⟨-2 ^ 127, 2 ^ 127 - 1⟩

end IntegerRange

/-! ## Values -/

namespace DataModel

variable {model : DataModel} {type outer inner : BasicType} {kind : BasicKind} {value : Int}

/-- The number of bytes of a kind that carry its value. -/
def valueBytes (model : DataModel) (kind : BasicKind) : Nat :=
  min (model.basic kind).size.toNat 8

/-- Every integer kind has at least one byte. -/
def IntegersSized (model : DataModel) : Prop :=
  ∀ kind, kind.isInteger = true → 1 ≤ (model.basic kind).size.toNat

/-- The number is what some bit pattern of the type denotes, in two's complement if the
type is signed. -/
def Denotes (model : DataModel) (type : BasicType) (value : Int) : Prop :=
  ∃ pattern : BitVec (8 * model.valueBytes type.kind),
    value = if type.signed then pattern.toInt else pattern.toNat

/-- By their bytes the outer type has all the values of the inner one. -/
def Encompasses (model : DataModel) (outer inner : BasicType) : Prop :=
  outer.signed = inner.signed ∧ model.valueBytes inner.kind ≤ model.valueBytes outer.kind ∨
    outer.signed = true ∧ inner.signed = false ∧
      model.valueBytes inner.kind < model.valueBytes outer.kind

/-- The value bits of a kind are eight for each byte that carries its value. -/
theorem valueBits_eq (model : DataModel) (kind : BasicKind) :
    model.valueBits kind = 8 * model.valueBytes kind :=
  Nat.mul_comm _ _

/-- No more than eight bytes carry the value of a kind. -/
theorem valueBytes_le (model : DataModel) (kind : BasicKind) : model.valueBytes kind ≤ 8 :=
  Nat.min_le_right _ _

/-- Where every integer kind has a byte, one of its bytes carries the value. -/
theorem IntegersSized.valueBytes_pos (sized : model.IntegersSized)
    (integer : kind.isInteger = true) : 0 < model.valueBytes kind :=
  Nat.lt_min.mpr ⟨sized kind integer, by decide⟩

/-- The ends of the range of a signed type. -/
theorem integerRange_of_signed (signed : type.signed = true) :
    model.integerRange type = ⟨-2 ^ (8 * model.valueBytes type.kind - 1),
      2 ^ (8 * model.valueBytes type.kind - 1) - 1⟩ := by
  simp only [integerRange, signed, if_true, valueBits_eq]
  rfl

/-- The ends of the range of an unsigned type. -/
theorem integerRange_of_unsigned (unsigned : type.signed = false) :
    model.integerRange type = ⟨0, 2 ^ (8 * model.valueBytes type.kind) - 1⟩ := by
  simp only [integerRange, unsigned, Bool.false_eq_true, if_false, valueBits_eq]
  rfl

/-- The range of a type of at least one byte holds exactly what its bit patterns denote. -/
theorem mem_integerRange_iff (positive : 0 < model.valueBytes type.kind) :
    value ∈ model.integerRange type ↔ model.Denotes type value := by
  cases sign : type.signed with
  | true =>
    rw [integerRange_of_signed sign, IntegerRange.mem_iff, Denotes]
    simp only [sign, if_true]
    constructor
    · rintro ⟨least, greatest⟩
      exact ⟨BitVec.ofInt _ value,
        (BitVec.toInt_ofInt_eq_self (by omega) least (Int.lt_of_le_sub_one greatest)).symm⟩
    · rintro ⟨pattern, rfl⟩
      exact ⟨BitVec.le_toInt pattern, Int.le_sub_one_of_lt BitVec.toInt_lt⟩
  | false =>
    rw [integerRange_of_unsigned sign, IntegerRange.mem_iff, Denotes]
    simp only [sign, Bool.false_eq_true, if_false]
    constructor
    · rintro ⟨least, greatest⟩
      obtain ⟨number, rfl⟩ := Int.eq_ofNat_of_zero_le least
      have inside : number < 2 ^ (8 * model.valueBytes type.kind) := by
        exact_mod_cast Int.lt_of_le_sub_one greatest
      exact ⟨BitVec.ofNat _ number, by rw [BitVec.toNat_ofNat, Nat.mod_eq_of_lt inside]⟩
    · rintro ⟨pattern, rfl⟩
      exact ⟨Int.natCast_nonneg _, Int.le_sub_one_of_lt (by exact_mod_cast pattern.isLt)⟩

/-- No range is empty. -/
theorem integerRange_inhabited (model : DataModel) (type : BasicType) :
    (model.integerRange type).least ≤ (model.integerRange type).greatest := by
  cases sign : type.signed with
  | true =>
    have positive : (0 : Int) < 2 ^ (8 * model.valueBytes type.kind - 1) := Int.pow_pos (by decide)
    rw [integerRange_of_signed sign]
    exact Int.le_trans (Int.neg_nonpos_of_nonneg (Int.le_of_lt positive))
      (Int.le_sub_one_of_lt positive)
  | false =>
    have positive : (0 : Int) < 2 ^ (8 * model.valueBytes type.kind) := Int.pow_pos (by decide)
    rw [integerRange_of_unsigned sign]
    exact Int.le_sub_one_of_lt positive

/-- The power of two that the ends of a range are worked out from fits into a double word. -/
theorem two_pow_valueBits_mem (model : DataModel) (kind : BasicKind) :
    2 ^ model.valueBits kind ∈ IntegerRange.ofDoubleWord := by
  have positive : (0 : Int) < 2 ^ model.valueBits kind := Int.pow_pos (by decide)
  have bounded : (2 : Int) ^ model.valueBits kind ≤ 2 ^ 64 := by
    refine pow_le_pow_right₀ (by decide) ?_
    rw [valueBits_eq]
    exact Nat.mul_le_mul_left 8 (model.valueBytes_le kind)
  simp only [IntegerRange.mem_iff, IntegerRange.ofDoubleWord]
  omega

/-- So do the ends of a range. -/
theorem ofDoubleWord_covers_integerRange (model : DataModel) (type : BasicType) :
    IntegerRange.ofDoubleWord.covers (model.integerRange type) = true := by
  obtain ⟨_, bounded⟩ := model.two_pow_valueBits_mem type.kind
  rw [valueBits_eq] at bounded
  simp only [IntegerRange.ofDoubleWord] at bounded
  have positive : (0 : Int) < 2 ^ (8 * model.valueBytes type.kind) := Int.pow_pos (by decide)
  cases sign : type.signed with
  | true =>
    have halved : (2 : Int) ^ (8 * model.valueBytes type.kind - 1) ≤
        2 ^ (8 * model.valueBytes type.kind) := pow_le_pow_right₀ (by decide) (Nat.sub_le _ _)
    rw [integerRange_of_signed sign, IntegerRange.covers_iff_ends]
    simp only [IntegerRange.ofDoubleWord]
    omega
  | false =>
    rw [integerRange_of_unsigned sign, IntegerRange.covers_iff_ends]
    simp only [IntegerRange.ofDoubleWord]
    omega

/-- Between types of one sign the bytes alone decide. -/
theorem encompasses_of_same_sign (same : outer.signed = inner.signed) :
    model.Encompasses outer inner ↔
      model.valueBytes inner.kind ≤ model.valueBytes outer.kind := by
  refine ⟨?_, fun wide => Or.inl ⟨same, wide⟩⟩
  rintro (⟨_, wide⟩ | ⟨signed, unsigned, _⟩)
  · exact wide
  · rw [same, unsigned] at signed
    cases signed

/-- A signed type needs a byte more than an unsigned one. -/
theorem encompasses_of_signed_of_unsigned (signed : outer.signed = true)
    (unsigned : inner.signed = false) :
    model.Encompasses outer inner ↔
      model.valueBytes inner.kind < model.valueBytes outer.kind := by
  refine ⟨?_, fun wider => Or.inr ⟨signed, unsigned, wider⟩⟩
  rintro (⟨same, _⟩ | ⟨_, _, wider⟩)
  · rw [signed, unsigned] at same
    cases same
  · exact wider

/-- An unsigned type is never wide enough for a signed one. -/
theorem not_encompasses_of_unsigned_of_signed (unsigned : outer.signed = false)
    (signed : inner.signed = true) : ¬ model.Encompasses outer inner := by
  rintro (⟨same, _⟩ | ⟨signed', _⟩)
  · rw [signed, unsigned] at same
    cases same
  · rw [unsigned] at signed'
    cases signed'

/-- Comparing the ends of two ranges is comparing the bytes of the types. Powers of two are
in the order of their exponents; the sign takes one bit, and eight bits are a byte. -/
theorem covers_integerRange_iff (outerPositive : 0 < model.valueBytes outer.kind)
    (innerPositive : 0 < model.valueBytes inner.kind) :
    (model.integerRange outer).covers (model.integerRange inner) = true ↔
      model.Encompasses outer inner := by
  have powers (first second : Nat) : (2 : Int) ^ first ≤ 2 ^ second ↔ first ≤ second :=
    pow_le_pow_iff_right₀ (by decide)
  have positive (exponent : Nat) : (0 : Int) < 2 ^ exponent := Int.pow_pos (by decide)
  rw [IntegerRange.covers_iff_ends]
  cases outerSign : outer.signed with
  | true =>
    have outerPower := positive (8 * model.valueBytes outer.kind - 1)
    cases innerSign : inner.signed with
    | true =>
      have compared := powers (8 * model.valueBytes inner.kind - 1)
        (8 * model.valueBytes outer.kind - 1)
      rw [encompasses_of_same_sign (outerSign.trans innerSign.symm)]
      simp only [integerRange_of_signed outerSign, integerRange_of_signed innerSign]
      omega
    | false =>
      have compared := powers (8 * model.valueBytes inner.kind)
        (8 * model.valueBytes outer.kind - 1)
      rw [encompasses_of_signed_of_unsigned outerSign innerSign]
      simp only [integerRange_of_signed outerSign, integerRange_of_unsigned innerSign]
      omega
  | false =>
    cases innerSign : inner.signed with
    | true =>
      have innerPower := positive (8 * model.valueBytes inner.kind - 1)
      refine iff_of_false ?_ (not_encompasses_of_unsigned_of_signed outerSign innerSign)
      simp only [integerRange_of_unsigned outerSign, integerRange_of_signed innerSign]
      omega
    | false =>
      have compared := powers (8 * model.valueBytes inner.kind) (8 * model.valueBytes outer.kind)
      rw [encompasses_of_same_sign (outerSign.trans innerSign.symm)]
      simp only [integerRange_of_unsigned outerSign, integerRange_of_unsigned innerSign]
      omega

end DataModel

/-! ## Integer types of a graph -/

namespace Graph

variable {graph : Graph} {type wide narrow : Handle} {basic outer inner : BasicType}

/-- The type is an integer type, and its values are those of the basic type. An enumeration
has the values of a signed `int`. -/
inductive ValuedAs (graph : Graph) (type : Handle) : BasicType → Prop
  | basic {basic : BasicType} (there : graph.node type = .basic basic)
      (integer : basic.kind.isInteger = true) : ValuedAs graph type basic
  | enumeration (there : graph.node type = .enumeration) : ValuedAs graph type ⟨.int, true⟩

/-- Whatever an integer type is valued as is of an integer kind. -/
theorem ValuedAs.isInteger (valued : graph.ValuedAs type basic) : basic.kind.isInteger = true := by
  cases valued with
  | basic _ integer => exact integer
  | enumeration => rfl

/-- An integer type is valued as one basic type only. -/
theorem ValuedAs.unique (valued : graph.ValuedAs type outer)
    (again : graph.ValuedAs type inner) : outer = inner := by
  cases valued with
  | basic there =>
    cases again with
    | basic there' => exact Node.basic.inj (there.symm.trans there')
    | enumeration there' => cases there.symm.trans there'
  | enumeration there =>
    cases again with
    | basic there' => cases there.symm.trans there'
    | enumeration => rfl

/-- The range of an integer type is that of the basic type. -/
theorem ValuedAs.integerRange_eq (valued : graph.ValuedAs type basic) :
    graph.integerRange type = .ok (graph.model.integerRange basic) := by
  cases valued with
  | basic there integer => simp only [integerRange, there, Node.integerBasis?, integer, if_true]
  | enumeration there => simp only [integerRange, there, Node.integerBasis?]

/-- Any other type has no range. -/
theorem integerRange_of_not_valuedAs (other : ∀ basic, ¬ graph.ValuedAs type basic) :
    graph.integerRange type = .error (.internal (.rangeOfNonInteger (graph.spelling type))) := by
  cases there : graph.node type with
  | basic basic =>
    have fractional : basic.kind.isInteger = false :=
      Bool.eq_false_iff.mpr fun integer => other basic (.basic there integer)
    simp only [integerRange, there, Node.integerBasis?, fractional, Bool.false_eq_true, if_false]
  | enumeration => exact absurd (.enumeration there) (other _)
  | void | pointer | function | record | array =>
    simp only [integerRange, there, Node.integerBasis?]

/-- Containment among two integer types compares the ranges of the basic types. -/
theorem ValuedAs.canRepresent_eq (wideValued : graph.ValuedAs wide outer)
    (narrowValued : graph.ValuedAs narrow inner) :
    graph.canRepresent wide narrow =
      .ok ((graph.model.integerRange outer).covers (graph.model.integerRange inner)) := by
  rw [canRepresent, wideValued.integerRange_eq, narrowValued.integerRange_eq]
  rfl

/-- Containment is refused if one of the types is not an integer type, and the fault names
such a type. -/
theorem canRepresent_of_not_valuedAs
    (other : (∀ basic, ¬ graph.ValuedAs wide basic) ∨ ∀ basic, ¬ graph.ValuedAs narrow basic) :
    ∃ blamed, (blamed = wide ∨ blamed = narrow) ∧ (∀ basic, ¬ graph.ValuedAs blamed basic) ∧
      graph.canRepresent wide narrow =
        .error (.internal (.rangeOfNonInteger (graph.spelling blamed))) := by
  by_cases known : ∃ outer, graph.ValuedAs wide outer
  · obtain ⟨outer, valued⟩ := known
    have unknown : ∀ basic, ¬ graph.ValuedAs narrow basic :=
      other.resolve_left fun none => none outer valued
    refine ⟨narrow, Or.inr rfl, unknown, ?_⟩
    rw [canRepresent, valued.integerRange_eq, integerRange_of_not_valuedAs unknown]
    rfl
  · have unknown : ∀ basic, ¬ graph.ValuedAs wide basic := not_exists.mp known
    refine ⟨wide, Or.inl rfl, unknown, ?_⟩
    rw [canRepresent, integerRange_of_not_valuedAs unknown]
    rfl

/-- Containment that is answered is asked among integer types. -/
theorem valuedAs_of_canRepresent {answer : Bool}
    (answered : graph.canRepresent wide narrow = .ok answer) :
    ∃ outer inner, graph.ValuedAs wide outer ∧ graph.ValuedAs narrow inner := by
  by_contra missing
  have other : (∀ basic, ¬ graph.ValuedAs wide basic) ∨ ∀ basic, ¬ graph.ValuedAs narrow basic := by
    by_contra present
    push Not at present
    obtain ⟨⟨outer, wideValued⟩, inner, narrowValued⟩ := present
    exact missing ⟨outer, inner, wideValued, narrowValued⟩
  obtain ⟨_, _, _, refused⟩ := canRepresent_of_not_valuedAs other
  rw [refused] at answered
  cases answered

/-- An integer type represents another exactly when it has all the values of the other. -/
theorem ValuedAs.canRepresent_iff_denotes (sized : graph.model.IntegersSized)
    (wideValued : graph.ValuedAs wide outer) (narrowValued : graph.ValuedAs narrow inner) :
    graph.canRepresent wide narrow = .ok true ↔
      ∀ value, graph.model.Denotes inner value → graph.model.Denotes outer value := by
  rw [wideValued.canRepresent_eq narrowValued, Except.ok.injEq,
    IntegerRange.covers_iff (graph.model.integerRange_inhabited inner)]
  simp only [DataModel.mem_integerRange_iff (sized.valueBytes_pos wideValued.isInteger),
    DataModel.mem_integerRange_iff (sized.valueBytes_pos narrowValued.isInteger)]

/-- An integer type represents another exactly when its bytes suffice. -/
theorem ValuedAs.canRepresent_iff_encompasses (sized : graph.model.IntegersSized)
    (wideValued : graph.ValuedAs wide outer) (narrowValued : graph.ValuedAs narrow inner) :
    graph.canRepresent wide narrow = .ok true ↔ graph.model.Encompasses outer inner := by
  rw [wideValued.canRepresent_eq narrowValued, Except.ok.injEq,
    DataModel.covers_integerRange_iff (sized.valueBytes_pos wideValued.isInteger)
      (sized.valueBytes_pos narrowValued.isInteger)]

/-- What there is to know about the values of the integer types of a graph, and about which
of them represent which others. -/
structure RepresentsByValues (graph : Graph) : Prop where
  /-- An integer type has a range. It consists of the values of the type, and it is worked
  out without leaving the double words. -/
  ranged : ∀ {type basic}, graph.ValuedAs type basic → ∃ range,
    graph.integerRange type = .ok range ∧
      (∀ value, value ∈ range ↔ graph.model.Denotes basic value) ∧
      IntegerRange.ofDoubleWord.covers range = true ∧
      2 ^ graph.model.valueBits basic.kind ∈ IntegerRange.ofDoubleWord
  /-- Among integer types there is an answer. It is yes exactly when all values of the one
  are values of the other, and it is yes exactly when the bytes suffice. -/
  decided : ∀ {wide narrow outer inner}, graph.ValuedAs wide outer → graph.ValuedAs narrow inner →
    ∃ answer, graph.canRepresent wide narrow = .ok answer ∧
      (answer = true ↔ ∀ value, graph.model.Denotes inner value → graph.model.Denotes outer value) ∧
      (answer = true ↔ graph.model.Encompasses outer inner)
  /-- If one of the types is not an integer type, the question is the caller's mistake. -/
  refused : ∀ {wide narrow},
    ((∀ basic, ¬ graph.ValuedAs wide basic) ∨ ∀ basic, ¬ graph.ValuedAs narrow basic) →
    ∃ blamed, (blamed = wide ∨ blamed = narrow) ∧ (∀ basic, ¬ graph.ValuedAs blamed basic) ∧
      graph.canRepresent wide narrow =
        .error (.internal (.rangeOfNonInteger (graph.spelling blamed)))
  /-- An integer type represents itself. -/
  reflexive : ∀ {type basic}, graph.ValuedAs type basic → graph.canRepresent type type = .ok true
  /-- A type also represents whatever is represented by a type that it represents. -/
  transitive : ∀ {first second third}, graph.canRepresent first second = .ok true →
    graph.canRepresent second third = .ok true → graph.canRepresent first third = .ok true

/-- Over a model in which integers have at least one byte, whatever their sizes are, one
integer type represents another exactly when it has all values of the other. -/
theorem represents_by_values (sized : graph.model.IntegersSized) : graph.RepresentsByValues where
  ranged := by
    intro type basic valued
    exact ⟨_, valued.integerRange_eq,
      fun _ => DataModel.mem_integerRange_iff (sized.valueBytes_pos valued.isInteger),
      graph.model.ofDoubleWord_covers_integerRange basic,
      graph.model.two_pow_valueBits_mem basic.kind⟩
  decided := by
    intro wide narrow outer inner wideValued narrowValued
    have answered := wideValued.canRepresent_eq narrowValued
    have byValues := wideValued.canRepresent_iff_denotes sized narrowValued
    have byBytes := wideValued.canRepresent_iff_encompasses sized narrowValued
    rw [answered, Except.ok.injEq] at byValues byBytes
    exact ⟨_, answered, byValues, byBytes⟩
  refused := canRepresent_of_not_valuedAs
  reflexive := by
    intro type basic valued
    exact (valued.canRepresent_iff_denotes sized valued).mpr fun _ denoted => denoted
  transitive := by
    intro first second third early late
    obtain ⟨outer, middle, firstValued, secondValued⟩ := valuedAs_of_canRepresent early
    obtain ⟨middle', inner, secondValued', thirdValued⟩ := valuedAs_of_canRepresent late
    obtain rfl : middle = middle' := secondValued.unique secondValued'
    rw [firstValued.canRepresent_iff_denotes sized secondValued] at early
    rw [secondValued.canRepresent_iff_denotes sized thirdValued] at late
    rw [firstValued.canRepresent_iff_denotes sized thirdValued]
    exact fun value denoted => early value (late value denoted)

end Graph

/-! ## Integers of unusual sizes -/

/-- A model in which `short` has three bytes and `long` twenty, more than carry a value. -/
def unusualModel : DataModel :=
  { DataModel.lp64 with short := ⟨3, 1⟩, long := ⟨20, 4⟩ }

/-- All integers of the unusual model have a byte at least. -/
theorem unusualModel_sized : unusualModel.IntegersSized := by
  intro kind
  cases kind <;> decide

/-- The types are, in order: an enumeration, `unsigned short`, `long`, `unsigned long long`
and `double`. -/
def unusualGraph : Graph :=
  (Graph.empty unusualModel).after
    [.makeEnumeration, .internBasic ⟨.short, false⟩, .internBasic ⟨.long, true⟩,
      .internBasic ⟨.longLong, false⟩, .internBasic ⟨.double, true⟩]

/-- An enumeration has all values of `unsigned short`, but `long` does not have those of
`unsigned long long`, although it is larger. `double` is not an integer type. -/
theorem unusual_represents_by_values :
    unusualGraph.Reachable ∧ unusualGraph.model.IntegersSized ∧ unusualGraph.RepresentsByValues ∧
      (∀ value, unusualGraph.model.Denotes ⟨.short, false⟩ value →
        unusualGraph.model.Denotes ⟨.int, true⟩ value) ∧
      (¬ ∀ value, unusualGraph.model.Denotes ⟨.longLong, false⟩ value →
        unusualGraph.model.Denotes ⟨.long, true⟩ value) ∧
      unusualGraph.canRepresent ⟨2⟩ ⟨4⟩ = .error (.internal (.rangeOfNonInteger "double")) := by
  have reachable : unusualGraph.Reachable :=
    ⟨unusualModel, Graph.evolves_after (by decide +kernel)⟩
  have model : unusualGraph.model = unusualModel := by decide +kernel
  have sized : unusualGraph.model.IntegersSized := model ▸ unusualModel_sized
  have exact : unusualGraph.RepresentsByValues := Graph.represents_by_values sized
  have enumeration : unusualGraph.ValuedAs ⟨0⟩ ⟨.int, true⟩ := .enumeration (by decide +kernel)
  have short : unusualGraph.ValuedAs ⟨1⟩ ⟨.short, false⟩ := .basic (by decide +kernel) rfl
  have long : unusualGraph.ValuedAs ⟨2⟩ ⟨.long, true⟩ := .basic (by decide +kernel) rfl
  have longLong : unusualGraph.ValuedAs ⟨3⟩ ⟨.longLong, false⟩ := .basic (by decide +kernel) rfl
  refine ⟨reachable, sized, exact, ?contained, ?exceeded, by decide +kernel⟩
  case contained =>
    obtain ⟨answer, answered, byValues, _⟩ := exact.decided enumeration short
    have yes : unusualGraph.canRepresent ⟨0⟩ ⟨1⟩ = .ok true := by decide +kernel
    exact byValues.mp (Except.ok.inj (answered.symm.trans yes))
  case exceeded =>
    obtain ⟨answer, answered, byValues, _⟩ := exact.decided long longLong
    have no : unusualGraph.canRepresent ⟨2⟩ ⟨3⟩ = .ok false := by decide +kernel
    intro contained
    cases (Except.ok.inj (answered.symm.trans no)).symm.trans (byValues.mpr contained)

end CTypeGraph
