import CTypeGraph.Proofs.IntegerValues

/-!
# Rank and values

Arithmetic on two integer types takes place in the one of higher rank. The rank of a kind is
fixed, while its values follow from a size that the data model is free to choose. So it is up
to the model whether a value survives the conversion. It does between types of one sign if no
kind is smaller than one of lower rank. Kinds of different rank may be of one size, and kinds
of more than eight bytes have no more values than kinds of eight, so a higher rank need not
bring any new values; but it never loses any.

From unsigned to signed the rank says nothing. There it takes a byte more that carries the
value, and the sizes in the model decide, cut down to eight.
-/

namespace CTypeGraph

namespace DataModel

variable {model : DataModel} {lower higher : BasicKind}

/-- Integers have at least one byte, and none has more than the next one in rank. -/
structure IntegersOrdered (model : DataModel) : Prop where
  char : 1 ≤ model.char.size
  short : model.char.size ≤ model.short.size
  int : model.short.size ≤ model.int.size
  long : model.int.size ≤ model.long.size
  longLong : model.long.size ≤ model.longLong.size

/-- A kind is at least as large as any of no higher rank. -/
theorem IntegersOrdered.size_mono (ordered : model.IntegersOrdered)
    (lowerInteger : lower.isInteger = true) (higherInteger : higher.isInteger = true)
    (ranked : lower.rank ≤ higher.rank) :
    (model.basic lower).size.toNat ≤ (model.basic higher).size.toNat := by
  obtain ⟨_, short, int, long, longLong⟩ := ordered
  rw [UInt64.le_iff_toNat_le] at short int long longLong
  cases lower with
  | float | double | longDouble => cases lowerInteger
  | char | short | int | long | longLong =>
    cases higher with
    | float | double | longDouble => cases higherInteger
    | char | short | int | long | longLong =>
      revert ranked
      simp only [BasicKind.rank, basic]
      omega

/-- As every kind is at least as large as `char`, all of them have at least one byte. -/
theorem IntegersOrdered.sized (ordered : model.IntegersOrdered) : model.IntegersSized := by
  intro kind integer
  have least : 1 ≤ (model.basic .char).size.toNat := UInt64.le_iff_toNat_le.mp ordered.char
  exact Nat.le_trans least (ordered.size_mono rfl integer (Nat.zero_le _))

/-- So it has at least as many bytes that carry the value. -/
theorem IntegersOrdered.valueBytes_mono (ordered : model.IntegersOrdered)
    (lowerInteger : lower.isInteger = true) (higherInteger : higher.isInteger = true)
    (ranked : lower.rank ≤ higher.rank) : model.valueBytes lower ≤ model.valueBytes higher := by
  have larger := ordered.size_mono lowerInteger higherInteger ranked
  exact Nat.le_min.mpr ⟨Nat.le_trans (Nat.min_le_left _ _) larger, Nat.min_le_right _ _⟩

end DataModel

namespace Graph

variable {graph : Graph} {type wide narrow : Handle} {basic outer inner : BasicType}

/-- An integer type has the rank of the kind that it is valued as. -/
theorem ValuedAs.conversionRank_eq (valued : graph.ValuedAs type basic) :
    graph.conversionRank type = .ok basic.kind.rank := by
  cases valued with
  | basic there => simp only [conversionRank, there]
  | enumeration there => simp only [conversionRank, there]

/-- Over a model whose integer kinds are ordered by size as they are by rank, every integer type
has a rank, and between types of one sign that of higher or equal rank represents the other:
all values of the other are values of it. A signed type of higher rank represents an unsigned
one exactly when more bytes of it carry the value. -/
theorem represents_of_rank (ordered : graph.model.IntegersOrdered)
    (wideValued : graph.ValuedAs wide outer) (narrowValued : graph.ValuedAs narrow inner) :
    ∃ wideRank narrowRank, graph.conversionRank wide = .ok wideRank ∧
      graph.conversionRank narrow = .ok narrowRank ∧
      (outer.signed = inner.signed → narrowRank ≤ wideRank →
        graph.canRepresent wide narrow = .ok true ∧
          ∀ value, graph.model.Denotes inner value → graph.model.Denotes outer value) ∧
      (outer.signed = true → inner.signed = false → narrowRank < wideRank →
        graph.canRepresent wide narrow = .ok (decide
          (graph.model.valueBytes inner.kind < graph.model.valueBytes outer.kind))) := by
  have byBytes := wideValued.canRepresent_iff_encompasses ordered.sized narrowValued
  refine ⟨outer.kind.rank, inner.kind.rank, wideValued.conversionRank_eq,
    narrowValued.conversionRank_eq, ?sameSign, ?intoSigned⟩
  case sameSign =>
    intro same ranked
    have wider : graph.model.valueBytes inner.kind ≤ graph.model.valueBytes outer.kind :=
      ordered.valueBytes_mono narrowValued.isInteger wideValued.isInteger ranked
    have represents : graph.canRepresent wide narrow = .ok true :=
      byBytes.mpr ((DataModel.encompasses_of_same_sign same).mpr wider)
    exact ⟨represents,
      (wideValued.canRepresent_iff_denotes ordered.sized narrowValued).mp represents⟩
  case intoSigned =>
    intro signed unsigned _
    rw [DataModel.encompasses_of_signed_of_unsigned signed unsigned] at byBytes
    rw [wideValued.canRepresent_eq narrowValued, Except.ok.injEq] at byBytes ⊢
    exact Bool.eq_iff_iff.mpr (byBytes.trans decide_eq_true_iff.symm)

end Graph

/-! ## Ties -/

/-- A model in which `short` and `int` are of one size, and both `long` and `long long` are
larger than what carries a value. -/
def tiedModel : DataModel :=
  { DataModel.lp64 with short := ⟨3, 1⟩, int := ⟨3, 1⟩, long := ⟨9, 1⟩, longLong := ⟨200, 8⟩ }

/-- The types are, in order: an enumeration, `short`, `unsigned int`, `unsigned long` and
`long long`. -/
def tiedGraph : Graph :=
  (Graph.empty tiedModel).after
    [.makeEnumeration, .internBasic ⟨.short, true⟩, .internBasic ⟨.int, false⟩,
      .internBasic ⟨.long, false⟩, .internBasic ⟨.longLong, true⟩]

/-- An enumeration has all values of `short`. `long long` represents `unsigned int`, but it
does not represent `unsigned long`, although it is of higher rank than both. -/
theorem tied_represents_of_rank :
    tiedGraph.Reachable ∧ tiedGraph.model.IntegersOrdered ∧
      tiedGraph.ValuedAs ⟨0⟩ ⟨.int, true⟩ ∧ tiedGraph.ValuedAs ⟨1⟩ ⟨.short, true⟩ ∧
      tiedGraph.ValuedAs ⟨2⟩ ⟨.int, false⟩ ∧ tiedGraph.ValuedAs ⟨3⟩ ⟨.long, false⟩ ∧
      tiedGraph.ValuedAs ⟨4⟩ ⟨.longLong, true⟩ ∧
      tiedGraph.canRepresent ⟨0⟩ ⟨1⟩ = .ok true ∧
      (∀ value, tiedGraph.model.Denotes ⟨.short, true⟩ value →
        tiedGraph.model.Denotes ⟨.int, true⟩ value) ∧
      tiedGraph.canRepresent ⟨4⟩ ⟨2⟩ = .ok (decide (3 < 8)) ∧
      tiedGraph.canRepresent ⟨4⟩ ⟨3⟩ = .ok (decide (8 < 8)) := by
  have reachable : tiedGraph.Reachable := ⟨tiedModel, Graph.evolves_after (by decide +kernel)⟩
  have model : tiedGraph.model = tiedModel := by decide +kernel
  have ordered : tiedGraph.model.IntegersOrdered :=
    model ▸ ⟨by decide, by decide, by decide, by decide, by decide⟩
  have enumeration : tiedGraph.ValuedAs ⟨0⟩ ⟨.int, true⟩ := .enumeration (by decide +kernel)
  have short : tiedGraph.ValuedAs ⟨1⟩ ⟨.short, true⟩ := .basic (by decide +kernel) rfl
  have int : tiedGraph.ValuedAs ⟨2⟩ ⟨.int, false⟩ := .basic (by decide +kernel) rfl
  have long : tiedGraph.ValuedAs ⟨3⟩ ⟨.long, false⟩ := .basic (by decide +kernel) rfl
  have longLong : tiedGraph.ValuedAs ⟨4⟩ ⟨.longLong, true⟩ := .basic (by decide +kernel) rfl
  have rank {type : Handle} {basic : BasicType} {found : Nat}
      (valued : tiedGraph.ValuedAs type basic)
      (answered : tiedGraph.conversionRank type = .ok found) : found = basic.kind.rank :=
    Except.ok.inj (answered.symm.trans valued.conversionRank_eq)
  obtain ⟨_, _, wideRank, narrowRank, sameSign, _⟩ :=
    Graph.represents_of_rank ordered enumeration short
  obtain rfl := rank enumeration wideRank
  obtain rfl := rank short narrowRank
  obtain ⟨represents, contained⟩ := sameSign rfl (by decide)
  obtain ⟨_, _, wideRank, narrowRank, _, wider⟩ := Graph.represents_of_rank ordered longLong int
  obtain rfl := rank longLong wideRank
  obtain rfl := rank int narrowRank
  obtain ⟨_, _, wideRank, narrowRank, _, tied⟩ := Graph.represents_of_rank ordered longLong long
  obtain rfl := rank longLong wideRank
  obtain rfl := rank long narrowRank
  exact ⟨reachable, ordered, enumeration, short, int, long, longLong, represents, contained,
    wider rfl rfl (by decide), tied rfl rfl (by decide)⟩

end CTypeGraph
