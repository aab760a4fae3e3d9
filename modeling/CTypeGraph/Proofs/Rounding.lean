import CTypeGraph.ByteCount
import Mathlib.Order.Bounds.Basic

/-!
# Rounding without a word size

`alignedUp` is the rounding of offsets on natural numbers, where nothing can
overflow. It is the measure for the checked rounding of byte counts: the checked
operation answers exactly when the natural answer fits into a word, and then the
two agree. Every later argument about offsets is carried out on this side.

The laws of rounding carry over to words in the same way: what is rounded is least, stays
where it is, and follows the order of the offsets. That a smaller offset is rounded whenever
a larger one is needs the order of the natural answers, since the checked operation might
have refused it.
-/

namespace CTypeGraph

/-- The first multiple of `alignment` at or after `offset`. An alignment of zero
asks for nothing and leaves the offset alone. -/
def alignedUp (offset alignment : Nat) : Nat :=
  if alignment = 0 then offset else (offset + (alignment - 1)) / alignment * alignment

/-- An alignment of zero leaves the offset alone. -/
@[simp]
theorem alignedUp_zero_align (offset : Nat) : alignedUp offset 0 = offset := by
  simp [alignedUp]

/-- An offset that is on the boundary stays where it is. -/
theorem alignedUp_of_dvd {offset alignment : Nat} (positive : 0 < alignment)
    (multiple : alignment ∣ offset) : alignedUp offset alignment = offset := by
  obtain ⟨count, rfl⟩ := multiple
  have nonzero : alignment ≠ 0 := Nat.ne_of_gt positive
  simp only [alignedUp, nonzero, if_false]
  rw [Nat.mul_add_div positive, Nat.div_eq_of_lt (by omega), Nat.add_zero, Nat.mul_comm]

/-- An offset off the boundary moves up by what is missing to the next multiple. -/
theorem alignedUp_of_not_dvd {offset alignment : Nat} (positive : 0 < alignment)
    (between : offset % alignment ≠ 0) :
    alignedUp offset alignment = offset + (alignment - offset % alignment) := by
  have nonzero : alignment ≠ 0 := Nat.ne_of_gt positive
  have below : offset % alignment < alignment := Nat.mod_lt _ positive
  have split : alignment * (offset / alignment) + offset % alignment = offset :=
    Nat.div_add_mod offset alignment
  have carried : offset + (alignment - 1) =
      alignment * (offset / alignment + 1) + (offset % alignment - 1) := by
    rw [Nat.mul_add, Nat.mul_one]
    omega
  have spare : (offset % alignment - 1) / alignment = 0 := Nat.div_eq_of_lt (by omega)
  have quotient : (offset + (alignment - 1)) / alignment = offset / alignment + 1 := by
    rw [carried, Nat.mul_add_div positive, spare, Nat.add_zero]
  simp only [alignedUp, nonzero, if_false, quotient]
  rw [Nat.add_mul, Nat.one_mul, Nat.mul_comm (offset / alignment)]
  omega

/-- Rounding never moves an offset down. -/
theorem le_alignedUp (offset alignment : Nat) : offset ≤ alignedUp offset alignment := by
  rcases Nat.eq_zero_or_pos alignment with rfl | positive
  · simp
  · by_cases multiple : offset % alignment = 0
    · rw [alignedUp_of_dvd positive (Nat.dvd_of_mod_eq_zero multiple)]
    · rw [alignedUp_of_not_dvd positive multiple]
      exact Nat.le_add_right _ _

/-- The rounded offset is a multiple of a positive alignment. -/
theorem dvd_alignedUp (offset : Nat) {alignment : Nat} (positive : 0 < alignment) :
    alignment ∣ alignedUp offset alignment := by
  have nonzero : alignment ≠ 0 := Nat.ne_of_gt positive
  simp only [alignedUp, nonzero, if_false]
  exact Nat.dvd_mul_left _ _

/-- Among the multiples of the alignment that are not before the offset, the
rounded offset is the first. -/
theorem alignedUp_isLeast (offset : Nat) {alignment : Nat} (positive : 0 < alignment) :
    IsLeast {bound | offset ≤ bound ∧ alignment ∣ bound} (alignedUp offset alignment) := by
  refine ⟨⟨le_alignedUp offset alignment, dvd_alignedUp offset positive⟩, ?_⟩
  rintro bound ⟨after, count, rfl⟩
  have nonzero : alignment ≠ 0 := Nat.ne_of_gt positive
  have enough : (offset + (alignment - 1)) / alignment ≤ count := by
    apply Nat.le_of_lt_succ
    rw [Nat.div_lt_iff_lt_mul positive, Nat.succ_mul, Nat.mul_comm count]
    omega
  simp only [alignedUp, nonzero, if_false]
  rw [Nat.mul_comm alignment]
  exact Nat.mul_le_mul_right alignment enough

/-- Rounding never moves an offset behind a later one that is rounded too: the later
one is rounded to a boundary that is not before either of them. -/
theorem alignedUp_mono {offset later : Nat} (alignment : Nat) (ahead : offset ≤ later) :
    alignedUp offset alignment ≤ alignedUp later alignment := by
  rcases Nat.eq_zero_or_pos alignment with rfl | positive
  · simpa only [alignedUp_zero_align] using ahead
  · have behind : offset ≤ alignedUp later alignment :=
      Nat.le_trans ahead (le_alignedUp later alignment)
    exact (alignedUp_isLeast offset positive).2 ⟨behind, dvd_alignedUp later positive⟩

/-- What rounding adds is less than a positive alignment. -/
theorem alignedUp_lt (offset : Nat) {alignment : Nat} (positive : 0 < alignment) :
    alignedUp offset alignment < offset + alignment := by
  by_cases multiple : offset % alignment = 0
  · rw [alignedUp_of_dvd positive (Nat.dvd_of_mod_eq_zero multiple)]
    omega
  · rw [alignedUp_of_not_dvd positive multiple]
    omega

/-- A natural number that fits is the number of a word. -/
theorem ByteCount.exists_toNat_eq {number : Nat} (fits : number < UInt64.size) :
    ∃ count : ByteCount, count.toNat = number :=
  ⟨UInt64.ofNat number, UInt64.toNat_ofNat_of_lt' fits⟩

/-- A sum that stays within a word is the sum of the numbers. -/
theorem ByteCount.toNat_add_of_lt {first second : ByteCount}
    (fits : first.toNat + second.toNat < UInt64.size) :
    (first + second).toNat = first.toNat + second.toNat := by
  rw [UInt64.toNat_add]
  exact Nat.mod_eq_of_lt fits

/-- Checked rounding answers with a word exactly when that word is the rounded
offset. The three ways through the operation are no alignment, an offset on the
boundary, and a checked addition of the missing bytes. -/
theorem ByteCount.roundUp?_eq_some_iff {offset alignment rounded : ByteCount} :
    ByteCount.roundUp? offset alignment = some rounded ↔
      alignedUp offset.toNat alignment.toNat = rounded.toNat := by
  unfold ByteCount.roundUp?
  by_cases absent : alignment = 0
  · subst absent
    simp [← UInt64.toNat_inj]
  · have positive : 0 < alignment.toNat := by
      apply Nat.pos_of_ne_zero
      intro zero
      exact absent (UInt64.toNat_inj.mp zero)
    have remainder : (offset % alignment).toNat = offset.toNat % alignment.toNat :=
      UInt64.toNat_mod offset alignment
    by_cases multiple : offset % alignment = 0
    · have divides : offset.toNat % alignment.toNat = 0 := by
        rw [← remainder, multiple]
        rfl
      rw [if_pos (Or.inr multiple), alignedUp_of_dvd positive (Nat.dvd_of_mod_eq_zero divides),
        Option.some.injEq, UInt64.toNat_inj]
    · have between : offset.toNat % alignment.toNat ≠ 0 := by
        intro divides
        apply multiple
        rw [← UInt64.toNat_inj, remainder, divides]
        rfl
      have smaller : offset % alignment ≤ alignment := by
        rw [UInt64.le_iff_toNat_le, remainder]
        exact Nat.le_of_lt (Nat.mod_lt _ positive)
      rw [if_neg (by simp [absent, multiple]), ByteCount.add?_eq_some_iff,
        UInt64.toNat_sub_of_le _ _ smaller, remainder,
        alignedUp_of_not_dvd positive between]

namespace ByteCount

variable {offset alignment : ByteCount}

/-- Checked rounding fails exactly when the rounded offset does not fit a word. -/
theorem roundUp?_eq_none_iff :
    roundUp? offset alignment = none ↔
      UInt64.size ≤ alignedUp offset.toNat alignment.toNat := by
  constructor
  · intro refused
    apply Nat.le_of_not_lt
    intro fits
    obtain ⟨rounded, exact⟩ := exists_toNat_eq fits
    rw [roundUp?_eq_some_iff.mpr exact.symm] at refused
    cases refused
  · intro exceeds
    cases answered : roundUp? offset alignment with
    | none => rfl
    | some rounded =>
      rw [roundUp?_eq_some_iff] at answered
      rw [answered] at exceeds
      exact absurd rounded.toNat_lt (Nat.not_lt.mpr exceeds)

/-- Checked rounding gives a number exactly when that is the rounded offset and a word can
hold it. -/
theorem map_toNat_roundUp?_eq_some_iff {bound : Nat} :
    (roundUp? offset alignment).map UInt64.toNat = some bound ↔
      alignedUp offset.toNat alignment.toNat = bound ∧ bound < UInt64.size := by
  rw [Option.map_eq_some_iff]
  constructor
  · rintro ⟨rounded, answered, rfl⟩
    exact ⟨roundUp?_eq_some_iff.mp answered, rounded.toNat_lt⟩
  · rintro ⟨exact, fits⟩
    obtain ⟨rounded, rfl⟩ := exists_toNat_eq fits
    exact ⟨rounded, roundUp?_eq_some_iff.mpr exact, rfl⟩

/-- What checked rounding gives is on the boundary already. -/
theorem roundUp?_self_of_roundUp? {rounded : ByteCount}
    (answered : roundUp? offset alignment = some rounded) :
    roundUp? rounded alignment = some rounded := by
  rw [roundUp?_eq_some_iff] at answered ⊢
  rcases Nat.eq_zero_or_pos alignment.toNat with absent | positive
  · rw [absent, alignedUp_zero_align]
  · apply alignedUp_of_dvd positive
    rw [← answered]
    exact dvd_alignedUp _ positive

/-- Checked rounding, without a word on how it is done. For a positive alignment it gives
the least multiple that is not before the offset, provided that a word can hold it, and
fails exactly when that multiple is larger than any word; and it adds less than the
alignment. Without an alignment it gives the offset. Whatever the alignment, what it gives
is rounded to itself, and where it answers for a later offset it answers for an earlier
one, with a number that is no larger. -/
theorem roundUp?_exact (offset later alignment : ByteCount) :
    (0 < alignment →
      (∀ bound : Nat, (roundUp? offset alignment).map UInt64.toNat = some bound ↔
        IsLeast {number | offset.toNat ≤ number ∧ alignment.toNat ∣ number} bound ∧
          bound < UInt64.size) ∧
      (roundUp? offset alignment = none ↔ ∃ bound,
        IsLeast {number | offset.toNat ≤ number ∧ alignment.toNat ∣ number} bound ∧
          UInt64.size ≤ bound)) ∧
    roundUp? offset 0 = some offset ∧
    (∀ rounded, roundUp? offset alignment = some rounded →
      roundUp? rounded alignment = some rounded ∧ offset ≤ rounded ∧
        (0 < alignment → rounded.toNat - offset.toNat < alignment.toNat)) ∧
    ∀ laterRounded, offset ≤ later → roundUp? later alignment = some laterRounded →
      ∃ rounded, roundUp? offset alignment = some rounded ∧ rounded ≤ laterRounded := by
  refine ⟨fun positive => ?least, ?unaligned, fun rounded answered => ?settled,
    fun laterRounded ahead answered => ?monotone⟩
  case least =>
    have first := alignedUp_isLeast offset.toNat (UInt64.lt_iff_toNat_lt.mp positive)
    refine ⟨fun bound => ?_, ?_⟩
    · rw [map_toNat_roundUp?_eq_some_iff]
      apply and_congr_left
      intro _
      exact ⟨fun exact => exact ▸ first, first.unique⟩
    · rw [roundUp?_eq_none_iff]
      constructor
      · exact fun exceeds => ⟨_, first, exceeds⟩
      · rintro ⟨bound, least, exceeds⟩
        rw [first.unique least]
        exact exceeds
  case unaligned => exact roundUp?_eq_some_iff.mpr (alignedUp_zero_align _)
  case settled =>
    have exact := roundUp?_eq_some_iff.mp answered
    refine ⟨roundUp?_self_of_roundUp? answered, ?_, fun positive => ?_⟩
    · rw [UInt64.le_iff_toNat_le, ← exact]
      exact le_alignedUp _ _
    · have padded := alignedUp_lt offset.toNat (UInt64.lt_iff_toNat_lt.mp positive)
      have behind := le_alignedUp offset.toNat alignment.toNat
      omega
  case monotone =>
    have exact := roundUp?_eq_some_iff.mp answered
    have mono := alignedUp_mono alignment.toNat (UInt64.le_iff_toNat_le.mp ahead)
    have fits : alignedUp offset.toNat alignment.toNat < UInt64.size :=
      Nat.lt_of_le_of_lt (exact ▸ mono) laterRounded.toNat_lt
    obtain ⟨rounded, earlier⟩ := exists_toNat_eq fits
    refine ⟨rounded, roundUp?_eq_some_iff.mpr earlier.symm, ?_⟩
    rw [UInt64.le_iff_toNat_le, earlier, ← exact]
    exact mono

/-- Rounding to multiples of twelve. Thirteen goes to twenty-four, which stays where it is. The
last multiple that a word holds is its own, so that everything before it is rounded. Right
behind it nothing is, because the next multiple is larger than any word. -/
theorem roundUp?_exact_twelve :
    roundUp? 13 12 = some 24 ∧ roundUp? 24 12 = some 24 ∧
      roundUp? 18446744073709551612 12 = some 18446744073709551612 ∧
      (∃ rounded, roundUp? 13 12 = some rounded ∧ rounded ≤ 18446744073709551612) ∧
      roundUp? 18446744073709551613 12 = none ∧
      ∃ bound, IsLeast {number | (18446744073709551613 : ByteCount).toNat ≤ number ∧
        (12 : ByteCount).toNat ∣ number} bound ∧ UInt64.size ≤ bound := by
  obtain ⟨_, _, settled, monotone⟩ := roundUp?_exact 13 18446744073709551612 12
  obtain ⟨least, _⟩ := roundUp?_exact 18446744073709551613 0 12
  have small : roundUp? 13 12 = some 24 := by decide +kernel
  have last : roundUp? 18446744073709551612 12 = some 18446744073709551612 := by decide +kernel
  have refused : roundUp? 18446744073709551613 12 = none := by decide +kernel
  exact ⟨small, (settled 24 small).1, last, monotone _ (by decide +kernel) last, refused,
    (least (by decide +kernel)).2.mp refused⟩

end ByteCount

end CTypeGraph
