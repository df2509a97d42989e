import AdvanceCore.Proofs.Bus.WorkRam
import AdvanceCore.Proofs.Dma.Blocks

/-!
# `AdvanceCore.Proofs.Dma.RamBlocks`: blocks from work RAM to work RAM

A block that stays in work RAM copies its units, as long as no unit is stored over one that is
still to be loaded or that has been stored before. Both parts of the work RAM repeat over their
banks, so this is a condition on cells and not on addresses.

* `DmaTransfer.Fits`: the condition.
* `Board.Copied`, `copied_run`: what has become of the cells and of the rest of the board.
-/

set_option autoImplicit false

namespace AdvanceCore

namespace DmaTransfer

/-- The next `count` units are in work RAM, and their destinations share no cell with a source
or with each other. -/
structure Fits (t : DmaTransfer) (count : Nat) : Prop where
  source : ∀ k < count, InWorkRam (t.sourceAt k)
  destination : ∀ k < count, InWorkRam (t.destinationAt k)
  apart : ∀ k < count, ∀ j < t.size, ∀ k' < count, ∀ j' < t.size,
    ramCell (t.destinationAt k) j ≠ ramCell (t.sourceAt k') j'
  /-- A block that is longer than the memory comes back to its first cells. -/
  distinct : ∀ k < count, ∀ k' < count, k ≠ k' → ∀ j < t.size, ∀ j' < t.size,
    ramCell (t.destinationAt k) j ≠ ramCell (t.destinationAt k') j'

end DmaTransfer

namespace Board

variable {π : Type}

/-- Units of a block have been copied from `b`, and nothing else has happened to it. -/
structure Copied (t : DmaTransfer) (count : Nat) (b b' : Board π) : Prop where
  outside : SameOutsideRam b b'
  copied : ∀ k < count, ∀ j < t.size,
    b'.ramByte (ramCell (t.destinationAt k) j) = b.ramByte (ramCell (t.sourceAt k) j)
  kept : ∀ cell, (∀ k < count, ∀ j < t.size, cell ≠ ramCell (t.destinationAt k) j) →
    b'.ramByte cell = b.ramByte cell

variable [Peripheral π]

/-- One unit is stored as it was loaded. -/
theorem stored_moveUnit {t : DmaTransfer} {b : Board π} (hsource : InWorkRam (t.sourceAt 0))
    (hdestination : InWorkRam (t.destinationAt 0)) :
    Stored b (t.moveUnit b).2 (t.destinationAt 0) t.size
      fun j => b.ramByte (ramCell (t.sourceAt 0) j) := by
  have hfrom : t.sourceAt 0 = t.aligned t.source := congrArg t.aligned t.sourceAfter_zero
  have hto : t.destinationAt 0 = t.aligned t.destination :=
    congrArg t.aligned t.destinationAfter_zero
  rw [hfrom] at hsource ⊢
  rw [hto] at hdestination ⊢
  unfold DmaTransfer.moveUnit
  unfold DmaTransfer.aligned at hsource hdestination ⊢
  unfold DmaTransfer.size
  -- A unit is a load and a store of the same width, and both are accesses inside work RAM.
  split
  · next hwords =>
    rw [if_pos hwords] at hsource hdestination
    obtain ⟨value, hload, hbytes⟩ := load32_ram (b := b) hsource
    unfold DmaTransfer.moveWord
    rw [hload]
    have hstored := store32_ram (b := b) hdestination value
    exact ⟨hstored.outside, fun j hj => (hstored.stored j hj).trans (hbytes j hj), hstored.kept⟩
  · next hhalves =>
    rw [if_neg hhalves] at hsource hdestination
    obtain ⟨value, hload, hbytes⟩ := load16_ram (b := b) hsource
    unfold DmaTransfer.moveHalf
    rw [hload]
    have hstored := store16_ram (b := b) hdestination value
    exact ⟨hstored.outside, fun j hj => (hstored.stored j hj).trans (hbytes j hj), hstored.kept⟩

/-- A unit within a block, by the board that it finds. -/
theorem stored_moveUnits {t : DmaTransfer} {count k : Nat} (h : t.Fits count) (hk : k < count)
    (b : Board π) :
    Stored (t.moveUnits b k).2 (t.moveUnits b (k + 1)).2 (t.destinationAt k) t.size
      fun j => (t.moveUnits b k).2.ramByte (ramCell (t.sourceAt k) j) := by
  obtain ⟨value, hreached⟩ := t.fst_moveUnits b k
  -- The rest of the block begins where the unit is.
  have hsource : (t.moveUnits b k).1.sourceAt 0 = t.sourceAt k := by
    rw [hreached]
    exact congrArg t.aligned (DmaTransfer.sourceAfter_zero _)
  have hdestination : (t.moveUnits b k).1.destinationAt 0 = t.destinationAt k := by
    rw [hreached]
    exact congrArg t.aligned (DmaTransfer.destinationAfter_zero _)
  have hsize : (t.moveUnits b k).1.size = t.size := by rw [hreached]; rfl
  have hunit := stored_moveUnit (t := (t.moveUnits b k).1) (b := (t.moveUnits b k).2)
    (hsource ▸ h.source k hk) (hdestination ▸ h.destination k hk)
  rw [← t.moveUnits_succ b k, hsource, hdestination, hsize] at hunit
  exact hunit

/-- A block within the work RAM changes nothing else. By induction on the units that have been
moved. -/
theorem sameOutsideRam_moveUnits {t : DmaTransfer} {count k : Nat} (h : t.Fits count)
    (hk : k ≤ count) (b : Board π) : SameOutsideRam b (t.moveUnits b k).2 := by
  induction k with
  | zero => exact .refl b
  | succ k ih => exact (ih (Nat.le_of_succ_le hk)).trans (stored_moveUnits h hk b).outside

/-- Each of its units copies the bytes that are at its source by then. -/
theorem copied_moveUnits {t : DmaTransfer} {count : Nat} (h : t.Fits count) (b : Board π) :
    Copied t count b (t.moveUnits b count).2 := by
  have hcopies : UnitCopies (fun k => (t.moveUnits b k).2.ramByte)
      (fun k => ramCell (t.sourceAt k)) (fun k => ramCell (t.destinationAt k)) t.size count :=
    ⟨fun _ hk => (stored_moveUnits h hk b).stored, fun _ hk => (stored_moveUnits h hk b).kept,
      h.apart, h.distinct⟩
  exact ⟨sameOutsideRam_moveUnits h (Nat.le_refl count) b,
    fun _ hk _ hj => hcopies.copied hk hj, fun _ => hcopies.unchanged⟩

/-- A whole block within the work RAM copies its units. -/
theorem copied_run {t : DmaTransfer} (h : t.Fits t.count) (b : Board π) :
    Copied t t.count b (t.run b).2 :=
  copied_moveUnits h b

end Board

end AdvanceCore
