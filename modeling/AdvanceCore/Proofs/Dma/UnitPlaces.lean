import AdvanceCore.Proofs.Dma.Blocks
import Mathlib.Algebra.Group.Nat.Defs

/-!
# `AdvanceCore.Proofs.Dma.UnitPlaces`: the cells of a block

The units of a block are aligned and as far from each other as they are long. An address that
moves comes to every such place once before it is back where it was. A block whose destinations
are apart from its sources therefore ends before, and no two of its units are stored over each
other, however many there are.

* `DmaTransfer.sourceCell`, `destinationCell`: the address of each byte of a unit.
* `DmaTransfer.exists_steps`, `steps_injective`: every place, and none of them twice.
* `DmaTransfer.Apart`, `Apart.destinationCell_ne`: units are stored apart from each other.
-/

set_option autoImplicit false

namespace AdvanceCore

namespace DmaTransfer

/-- The address of a byte of the unit with a number, where it is loaded. -/
def sourceCell (t : DmaTransfer) (k j : Nat) : Word := t.sourceAt k + BitVec.ofNat 32 j

/-- The address of a byte of the unit with a number, where it is stored. -/
def destinationCell (t : DmaTransfer) (k j : Nat) : Word := t.destinationAt k + BitVec.ofNat 32 j

/-- Units are halfwords or words. -/
theorem size_eq (t : DmaTransfer) : t.size = 2 ∨ t.size = 4 := by
  unfold size
  split
  · exact .inr rfl
  · exact .inl rfl

/-- No unit is empty. -/
theorem size_pos (t : DmaTransfer) : 0 < t.size := by
  rcases t.size_eq with hsize | hsize <;> omega

/-- No unit is longer than a word. -/
theorem size_le (t : DmaTransfer) : t.size ≤ 4 := by
  rcases t.size_eq with hsize | hsize <;> omega

/-- The distance of two units in a row is their size. -/
theorem toNat_unit (t : DmaTransfer) : t.unit.toNat = t.size := by
  unfold unit size
  split <;> rfl

/-! ### Alignment -/

/-- Aligning rounds down to a multiple of the size. -/
theorem toNat_aligned (t : DmaTransfer) (address : Word) :
    (t.aligned address).toNat = address.toNat / t.size * t.size := by
  unfold aligned size
  split
  · exact Bits.toNat_and_not_lowMask address 2
  · exact Bits.toNat_and_not_lowMask address 1

/-- Aligned addresses are multiples of the size. -/
theorem size_dvd_toNat_aligned (t : DmaTransfer) (address : Word) :
    t.size ∣ (t.aligned address).toNat := by
  rw [toNat_aligned]
  exact Nat.dvd_mul_left ..

/-- Whole units go past the alignment. -/
theorem aligned_add (t : DmaTransfer) (address : Word) {offset : Word}
    (hoffset : t.size ∣ offset.toNat) :
    t.aligned (address + offset) = t.aligned address + offset := by
  refine BitVec.eq_of_toNat_eq ?_
  rw [toNat_aligned, BitVec.toNat_add, BitVec.toNat_add, toNat_aligned]
  rcases t.size_eq with hsize | hsize
  all_goals
    rw [hsize] at hoffset ⊢
    omega

/-- The address space is a multiple of the size. -/
theorem size_dvd_two_pow (t : DmaTransfer) : t.size ∣ 2 ^ 32 := by
  rcases t.size_eq with hsize | hsize
  all_goals
    rw [hsize]
    decide

/-- Multiples of the size stay multiples as they are negated, wrap-around included. -/
theorem size_dvd_neg (t : DmaTransfer) {offset : Word} (hoffset : t.size ∣ offset.toNat) :
    t.size ∣ (-offset).toNat := by
  rw [BitVec.toNat_neg, Nat.dvd_mod_iff t.size_dvd_two_pow]
  exact Nat.dvd_sub t.size_dvd_two_pow hoffset

/-- Multiples of the size stay multiples as they are subtracted. -/
theorem size_dvd_sub (t : DmaTransfer) {address other : Word} (haddress : t.size ∣ address.toNat)
    (hother : t.size ∣ other.toNat) : t.size ∣ (address - other).toNat := by
  rw [BitVec.toNat_sub, Nat.dvd_mod_iff t.size_dvd_two_pow]
  exact Nat.dvd_add (Nat.dvd_sub t.size_dvd_two_pow hother) haddress

/-! ### Steps -/

/-- The length of several units, if it fits in the address space. -/
theorem toNat_units (t : DmaTransfer) {k : Nat} (hk : k * t.size < 2 ^ 32) :
    (BitVec.ofNat 32 k * t.unit).toNat = k * t.size := by
  have hsmall : k < 2 ^ 32 := by
    rcases t.size_eq with hsize | hsize
    all_goals
      rw [hsize] at hk
      omega
  rw [BitVec.toNat_mul, BitVec.toNat_ofNat, Nat.mod_eq_of_lt hsmall, toNat_unit,
    Nat.mod_eq_of_lt hk]

/-- Any distance of whole units is so many units. -/
theorem exists_units (t : DmaTransfer) {offset : Word} (hoffset : t.size ∣ offset.toNat) :
    ∃ k, k * t.size < 2 ^ 32 ∧ BitVec.ofNat 32 k * t.unit = offset := by
  obtain ⟨k, hk⟩ := hoffset
  have hlt : k * t.size < 2 ^ 32 := by
    rw [Nat.mul_comm, ← hk]
    exact offset.isLt
  refine ⟨k, hlt, BitVec.eq_of_toNat_eq ?_⟩
  rw [t.toNat_units hlt, hk, Nat.mul_comm]

/-- An address stays, goes up by a unit or goes down by one. -/
theorem distance_cases (step : AddressStep) (t : DmaTransfer) :
    step.distance t.unit = 0 ∨ step.distance t.unit = t.unit ∨
      step.distance t.unit = -t.unit := by
  cases step with
  | increment | incrementReload => exact .inr (.inl rfl)
  | decrement => exact .inr (.inr rfl)
  | fixed => exact .inl rfl

/-- Steps are whole units, also when they wrap around. -/
theorem size_dvd_toNat_steps (t : DmaTransfer) (step : AddressStep) (k : Nat) :
    t.size ∣ (BitVec.ofNat 32 k * step.distance t.unit).toNat := by
  -- The size divides `2 ^ 32`, so it divides what is left of a multiple after wrapping.
  have hunits : t.size ∣ (BitVec.ofNat 32 k * t.unit).toNat := by
    rw [BitVec.toNat_mul, toNat_unit, Nat.dvd_mod_iff t.size_dvd_two_pow]
    exact Nat.dvd_mul_left ..
  obtain hstep | hstep | hstep := t.distance_cases step
  · rw [hstep]
    exact Nat.dvd_zero _
  · rw [hstep]
    exact hunits
  · rw [hstep, BitVec.mul_neg]
    exact t.size_dvd_neg hunits

/-- A step keeps an aligned address aligned, so it is enough to align the first one. -/
theorem destinationAt_eq (t : DmaTransfer) (k : Nat) :
    t.destinationAt k =
      t.aligned t.destination + BitVec.ofNat 32 k * t.destinationStep.distance t.unit :=
  t.aligned_add _ (t.size_dvd_toNat_steps _ k)

section Moving

variable {t : DmaTransfer} {step : AddressStep} (hmoves : step.distance t.unit ≠ 0)
include hmoves

/-- A moving address comes to every place of a unit before it wraps around. -/
theorem exists_steps {offset : Word} (hoffset : t.size ∣ offset.toNat) :
    ∃ k, k * t.size < 2 ^ 32 ∧ BitVec.ofNat 32 k * step.distance t.unit = offset := by
  obtain hstep | hstep | hstep := t.distance_cases step
  · exact absurd hstep hmoves
  · rw [hstep]
    exact t.exists_units hoffset
  · obtain ⟨k, hlt, hk⟩ := t.exists_units (t.size_dvd_neg hoffset)
    exact ⟨k, hlt, by rw [hstep, BitVec.mul_neg, hk, BitVec.neg_neg]⟩

/-- It comes to none of them twice. -/
theorem steps_injective {k k' : Nat} (hk : k * t.size < 2 ^ 32) (hk' : k' * t.size < 2 ^ 32)
    (h : BitVec.ofNat 32 k * step.distance t.unit = BitVec.ofNat 32 k' * step.distance t.unit) :
    k = k' := by
  have hunits : BitVec.ofNat 32 k * t.unit = BitVec.ofNat 32 k' * t.unit := by
    obtain hstep | hstep | hstep := t.distance_cases step
    · exact absurd hstep hmoves
    · rw [hstep] at h
      exact h
    · rw [hstep, BitVec.mul_neg, BitVec.mul_neg] at h
      exact BitVec.neg_inj.mp h
  have hnumbers : k * t.size = k' * t.size := by
    rw [← t.toNat_units hk, hunits, t.toNat_units hk']
  exact Nat.eq_of_mul_eq_mul_right t.size_pos hnumbers

end Moving

/-! ### Blocks -/

/-- The destinations of a block do not share a cell with its sources. -/
def Apart (t : DmaTransfer) : Prop :=
  ∀ k < t.count, ∀ j < t.size, ∀ k' < t.count, ∀ j' < t.size,
    t.destinationCell k j ≠ t.sourceCell k' j'

/-- A block whose destination comes back to where it was has been everywhere on its way, and so
at a source. -/
theorem Apart.mul_size_lt {t : DmaTransfer} (h : t.Apart)
    (hmoves : t.destinationStep.distance t.unit ≠ 0) {k : Nat} (hk : k < t.count) :
    k * t.size < 2 ^ 32 := by
  -- The first source is a number of steps away, and the destination comes by on its way.
  have hoffset : t.size ∣ (t.sourceAt 0 - t.aligned t.destination).toNat :=
    t.size_dvd_sub (t.size_dvd_toNat_aligned _) (t.size_dvd_toNat_aligned _)
  obtain ⟨i, hlt, hi⟩ := exists_steps hmoves hoffset
  have hmeet : t.destinationAt i = t.sourceAt 0 := by
    rw [destinationAt_eq, hi, BitVec.add_comm, BitVec.sub_add_cancel]
  refine Nat.lt_of_not_le fun hwrap => ?_
  have hless : i < k := Nat.lt_of_mul_lt_mul_right (a := t.size) (by omega)
  have hcell : t.destinationCell i 0 = t.sourceCell 0 0 := by
    unfold destinationCell
    rw [hmeet]
    rfl
  exact h i (Nat.lt_trans hless hk) 0 t.size_pos 0 (by omega) 0 t.size_pos hcell

/-- No two units are stored over each other. -/
theorem Apart.destinationCell_ne {t : DmaTransfer} (h : t.Apart)
    (hmoves : t.destinationStep.distance t.unit ≠ 0) {k k' : Nat} (hk : k < t.count)
    (hk' : k' < t.count) (hne : k ≠ k') {j j' : Nat} (hj : j < t.size) (hj' : j' < t.size) :
    t.destinationCell k j ≠ t.destinationCell k' j' := by
  intro hcell
  have hfrom := t.size_dvd_toNat_aligned (t.destinationAfter k)
  have hto := t.size_dvd_toNat_aligned (t.destinationAfter k')
  change t.size ∣ (t.destinationAt k).toNat at hfrom
  change t.size ∣ (t.destinationAt k').toNat at hto
  -- Units at two places of their own do not overlap.
  have hplace : t.destinationAt k = t.destinationAt k' := by
    have hnumber := congrArg BitVec.toNat hcell
    unfold destinationCell at hnumber
    rw [BitVec.toNat_add, BitVec.toNat_add, BitVec.toNat_ofNat, BitVec.toNat_ofNat] at hnumber
    refine BitVec.eq_of_toNat_eq ?_
    rcases t.size_eq with hsize | hsize
    all_goals
      rw [hsize] at hfrom hto hj hj'
      omega
  rw [destinationAt_eq, destinationAt_eq] at hplace
  exact hne (steps_injective hmoves (h.mul_size_lt hmoves hk) (h.mul_size_lt hmoves hk')
    ((BitVec.add_right_inj _).mp hplace))

end DmaTransfer

end AdvanceCore
