import AdvanceCore.Proofs.Dma.Lifecycle

/-!
# `AdvanceCore.Proofs.Dma.AddressLines`: the address lines of the DMA channels

Switching a channel on latches its addresses without the bits that the channel has no lines
for. From then on they only move from unit to unit, and nothing takes bits off them again: a
block that runs past the last address of its lines goes on behind it, and a channel that
repeats begins its next block from there.

* `AddressStep.le_lines_iff`: when an address that moves is still on its lines.
* `DmaChannel.OnLines`, `DmaTransfer.OnLines`: the addresses that a channel has latched, and
  those of a block after some units.
* `Dma.onLines_perform`, `Dma.onLines_moved`: what keeps the addresses there.
* `Dma.not_units_on_lines`: a block of the first channel that leaves its lines.
* `Dma.units_on_lines`: a channel stays on its lines for as long as its blocks end there.
-/

set_option autoImplicit false

namespace AdvanceCore

open DmaChannel

/-! ### Moving addresses -/

namespace AddressStep

/-- How far a number of units of some bytes move an address that does not wrap around. -/
def offset (step : AddressStep) (bytes units : Nat) : Int :=
  match step with
  | .increment | .incrementReload => units * bytes
  | .decrement => -(units * bytes)
  | .fixed => 0

/-- An address that leaves its lines at one end does not come back at the other, because the
largest block is far shorter than the address space. -/
theorem le_lines_iff (step : AddressStep) {address lines unit : Word} {k : Nat}
    (haddress : address ≤ lines) (hlines : lines ≤ 0x0FFFFFFF) (hunit : unit ≤ 4)
    (hk : k ≤ 0x10000) :
    address + BitVec.ofNat 32 k * step.distance unit ≤ lines ↔
      0 ≤ address.toNat + step.offset unit.toNat k ∧
        address.toNat + step.offset unit.toNat k ≤ lines.toNat := by
  simp only [BitVec.le_def] at haddress hlines hunit ⊢
  change lines.toNat ≤ 0x0FFFFFFF at hlines
  change unit.toNat ≤ 4 at hunit
  have hmoved : k * unit.toNat ≤ 0x10000 * 4 := Nat.mul_le_mul hk hunit
  -- 64 K units of four bytes are far from 32 bits, so neither the product nor the sum wraps
  -- upwards. A sum that wraps downwards is past the lines, since these end below `2 ^ 28`.
  have hproduct : (BitVec.ofNat 32 k * unit).toNat = k * unit.toNat := by
    rw [BitVec.toNat_mul, BitVec.toNat_ofNat, Nat.mod_eq_of_lt (show k < 2 ^ 32 by omega)]
    exact Nat.mod_eq_of_lt (by omega)
  cases step with
  | increment | incrementReload =>
    simp only [distance, offset]
    rw [BitVec.toNat_add, hproduct, ← Int.natCast_mul]
    omega
  | decrement =>
    simp only [distance, offset]
    rw [BitVec.mul_neg, BitVec.toNat_add, BitVec.toNat_neg, hproduct, ← Int.natCast_mul]
    omega
  | fixed =>
    have hstays : address + BitVec.ofNat 32 k * 0 = address := by simp
    simp only [distance, offset]
    rw [hstays]
    omega

/-- An address that is on its lines at both ends of a block is so in between. -/
theorem between (step : AddressStep) {address lines bytes k n : Nat} (haddress : address ≤ lines)
    (hk : k ≤ n)
    (hend : 0 ≤ address + step.offset bytes n ∧ address + step.offset bytes n ≤ lines) :
    0 ≤ address + step.offset bytes k ∧ address + step.offset bytes k ≤ lines := by
  have hle : k * bytes ≤ n * bytes := Nat.mul_le_mul_right bytes hk
  cases step with
  | increment | incrementReload | decrement =>
    simp only [offset] at hend ⊢
    rw [← Int.natCast_mul] at hend ⊢
    omega
  | fixed =>
    simp only [offset]
    omega

end AddressStep

/-! ### Channels and blocks -/

/-- No channel has more than twenty-eight lines for its source. -/
theorem DmaChannel.sourceMask_le (i : DmaId) : sourceMask i ≤ 0x0FFFFFFF := by
  revert i
  decide

/-- No channel has more than twenty-eight lines for its destination. -/
theorem DmaChannel.destinationMask_le (i : DmaId) : destinationMask i ≤ 0x0FFFFFFF := by
  revert i
  decide

/-- The first channel has twenty-seven lines for its source. -/
theorem DmaChannel.sourceMask_first : sourceMask 0 = 0x07FFFFFF := rfl

/-- All channels but the last have twenty-seven lines for their destination. -/
theorem DmaChannel.destinationMask_of_ne {i : DmaId} (h : i ≠ 3) :
    destinationMask i = 0x07FFFFFF :=
  if_neg h

/-- No channel counts further than to 65536. -/
theorem DmaChannel.maxCount_le (i : DmaId) : maxCount i ≤ 0x10000 := by
  revert i
  decide

/-- Twenty-seven lines do not reach up to the cartridge. -/
theorem lt_cartridge_of_le {address : Word} (h : address ≤ 0x07FFFFFF) : address < 0x08000000 := by
  rw [BitVec.le_def] at h
  rw [BitVec.lt_def]
  exact Nat.lt_succ_of_le h

/-- Taking bits off an address leaves it on the others. -/
theorem and_le_lines (address lines : Word) : address &&& lines ≤ lines := by
  rw [BitVec.le_def, BitVec.toNat_and]
  exact Nat.and_le_right

/-- The addresses that the next block begins with are on the lines of the channel. -/
structure DmaChannel.OnLines (c : DmaChannel) (i : DmaId) : Prop where
  source : c.latched.source ≤ sourceMask i
  destination : c.latched.destination ≤ destinationMask i

/-- The addresses of a block after some units are on the lines of its channel. -/
structure DmaTransfer.OnLines (t : DmaTransfer) (k : Nat) : Prop where
  source : t.sourceAfter k ≤ sourceMask t.channel
  destination : t.destinationAfter k ≤ destinationMask t.channel

namespace DmaChannel

/-- Latched addresses are on their lines. -/
theorem onLines_latch (c : DmaChannel) (i : DmaId) : (c.latch i).OnLines i :=
  ⟨and_le_lines .., and_le_lines ..⟩

/-- Only switching a channel on latches addresses. -/
theorem OnLines.written {c c' : DmaChannel} {i : DmaId} (h : c.OnLines i)
    (hwritten : c.Written i c') : c'.OnLines i := by
  cases hwritten with
  | programmed => exact ⟨h.source, h.destination⟩
  | switchedOff => exact ⟨h.source, h.destination⟩
  | switchedOn control =>
    have hlatched := onLines_latch { c with control := control } i
    exact ⟨hlatched.source, hlatched.destination⟩

/-- A signal latches nothing. -/
theorem OnLines.signalled {c c' : DmaChannel} {i : DmaId} (h : c.OnLines i)
    (hsignalled : c.Signalled c') : c'.OnLines i := by
  cases hsignalled with
  | ignored => exact h
  | started => exact ⟨h.source, h.destination⟩
  | ended => exact ⟨h.source, h.destination⟩

/-- A write that switches the channel on latches its addresses. -/
theorem Written.onLines_of_switched_on {c c' : DmaChannel} {i : DmaId} (h : c.Written i c')
    (hoff : c.control.enabled = false) (hon : c'.control.enabled = true) : c'.OnLines i := by
  -- The addresses are latched when the channel is switched on, which only one of the writes does.
  cases h with
  | programmed source destination count control henabled =>
    rw [henabled, hoff] at hon
    cases hon
  | switchedOff control hcontrol =>
    rw [hcontrol] at hon
    cases hon
  | switchedOn control =>
    have hlatched := onLines_latch { c with control := control } i
    exact ⟨hlatched.source, hlatched.destination⟩

/-- No signal switches a channel on. -/
theorem Signalled.enabled_eq_false {c c' : DmaChannel} (h : c.Signalled c')
    (hoff : c.control.enabled = false) : c'.control.enabled = false := by
  cases h with
  | ignored => exact hoff
  | started => exact hoff
  | ended => exact enabled_disable c

/-- A channel that repeats goes on from where its block has ended, or from its destination. -/
theorem onLines_complete (c : DmaChannel) {i : DmaId} {source destination : Word}
    (hsource : source ≤ sourceMask i) (hdestination : destination ≤ destinationMask i) :
    (c.complete i source destination).OnLines i := by
  unfold complete
  dsimp only
  split
  · refine ⟨hsource, ?_⟩
    dsimp only
    split
    · exact and_le_lines ..
    · exact hdestination
  · exact ⟨hsource, hdestination⟩

end DmaChannel

namespace DmaTransfer

/-- A unit has four bytes at most. -/
theorem unit_le (t : DmaTransfer) : t.unit ≤ 4 := by
  unfold unit
  split <;> decide

/-- Aligning an address does not lead upwards. -/
theorem aligned_le (t : DmaTransfer) (address : Word) : t.aligned address ≤ address := by
  rw [BitVec.le_def]
  unfold aligned wordAligned halfAligned
  split
  all_goals
    rw [BitVec.toNat_and]
    exact Nat.and_le_left

/-- Units are on the lines if the first and the last one are. -/
theorem OnLines.of_le {t : DmaTransfer} {k n : Nat} (hfirst : t.OnLines 0) (h : t.OnLines n)
    (hk : k ≤ n) (hn : n ≤ 0x10000) : t.OnLines k := by
  obtain ⟨hsource, hdestination⟩ := hfirst
  rw [sourceAfter_zero] at hsource
  rw [destinationAfter_zero] at hdestination
  -- The addresses move in one direction, so between two addresses on the lines there is none beside
  -- them.
  have hwithin (step : AddressStep) {address lines : Word} (haddress : address ≤ lines)
      (hlines : lines ≤ 0x0FFFFFFF)
      (hend : address + BitVec.ofNat 32 n * step.distance t.unit ≤ lines) :
      address + BitVec.ofNat 32 k * step.distance t.unit ≤ lines := by
    rw [step.le_lines_iff haddress hlines t.unit_le hn] at hend
    rw [step.le_lines_iff haddress hlines t.unit_le (Nat.le_trans hk hn)]
    exact step.between haddress hk hend
  exact ⟨hwithin _ hsource (sourceMask_le _) h.source,
    hwithin _ hdestination (destinationMask_le _) h.destination⟩

variable {β : Type} [MemoryBus β]

/-- A load of a block is one of its units. -/
theorem exists_of_loadAddress {t : DmaTransfer} {bus : β} {a : BusAccess} {address : Word}
    (ha : a ∈ t.accesses bus) (haddress : a.loadAddress? = some address) :
    ∃ k < t.count, t.sourceAt k = address := by
  have hmem : address ∈ (t.accesses bus).filterMap BusAccess.loadAddress? :=
    List.mem_filterMap.mpr ⟨a, ha, haddress⟩
  rw [t.loads_run bus, List.mem_map] at hmem
  obtain ⟨k, hk, hat⟩ := hmem
  exact ⟨k, List.mem_range.mp hk, hat⟩

/-- A store of a block is one of its units. -/
theorem exists_of_storeAddress {t : DmaTransfer} {bus : β} {a : BusAccess} {address : Word}
    (ha : a ∈ t.accesses bus) (haddress : a.storeAddress? = some address) :
    ∃ k < t.count, t.destinationAt k = address := by
  have hmem : address ∈ (t.accesses bus).filterMap BusAccess.storeAddress? :=
    List.mem_filterMap.mpr ⟨a, ha, haddress⟩
  rw [t.stores_run bus, List.mem_map] at hmem
  obtain ⟨k, hk, hat⟩ := hmem
  exact ⟨k, List.mem_range.mp hk, hat⟩

/-- The access is on the lines of the channel, whether it loads or stores. -/
structure Keeps (t : DmaTransfer) (a : BusAccess) : Prop where
  load : ∀ address, a.loadAddress? = some address → address ≤ sourceMask t.channel
  store : ∀ address, a.storeAddress? = some address → address ≤ destinationMask t.channel

/-- A block whose first and last units are on the lines makes no access elsewhere. -/
theorem keeps_of_onLines {t : DmaTransfer} (hfirst : t.OnLines 0) (hlast : t.OnLines (t.count - 1))
    (hcount : t.count ≤ 0x10000) {bus : β} {a : BusAccess} (ha : a ∈ t.accesses bus) :
    t.Keeps a := by
  have hunit {k : Nat} (hk : k < t.count) : t.OnLines k :=
    hfirst.of_le hlast (by omega) (by omega)
  refine ⟨fun address haddress => ?_, fun address haddress => ?_⟩
  · obtain ⟨k, hk, rfl⟩ := exists_of_loadAddress ha haddress
    exact BitVec.le_trans (t.aligned_le _) (hunit hk).source
  · obtain ⟨k, hk, rfl⟩ := exists_of_storeAddress ha haddress
    exact BitVec.le_trans (t.aligned_le _) (hunit hk).destination

end DmaTransfer

namespace Dma

/-- A block belongs to a channel that is active. -/
theorem exists_of_begin {d : Dma} {t : DmaTransfer} (h : d.begin? = some t) :
    ∃ i, (d.get i).active = true ∧ t = d.transferOf i := by
  unfold begin? at h
  obtain ⟨i, howner, rfl⟩ := Option.map_eq_some_iff.mp h
  exact ⟨i, List.find?_some (p := fun i => (d.get i).active) howner, rfl⟩

/-- An operation keeps the addresses of a channel, or latches new ones. -/
theorem onLines_perform {i : DmaId} (d : Dma) (op : Operation) (h : (d.get i).OnLines i) :
    ((d.perform op).get i).OnLines i := by
  rcases d.written_or_signalled_perform op i with hwritten | hsignalled
  · exact h.written hwritten
  · exact h.signalled hsignalled

/-- Whatever the channel was before, it is on its lines once it is switched on. -/
theorem onLines_of_switched_on {d : Dma} {i : DmaId} {op : Operation}
    (hoff : (d.get i).control.enabled = false)
    (hon : ((d.perform op).get i).control.enabled = true) : ((d.perform op).get i).OnLines i := by
  have hchanged := d.written_or_signalled_perform op i
  generalize (d.perform op).get i = after at hchanged hon ⊢
  rcases hchanged with hwritten | hsignalled
  · exact hwritten.onLines_of_switched_on hoff hon
  · -- No signal switches a channel on.
    rw [hsignalled.enabled_eq_false hoff] at hon
    cases hon

/-- If the block is one of the channel, the addresses that it ends with are on the lines. -/
def EndsOnLines (i : DmaId) (t : DmaTransfer) : Prop := t.channel = i → t.OnLines t.count

/-- A block of another channel leaves the addresses alone, and one of the channel leaves those
that it ends with. -/
theorem onLines_moved {β : Type} [MemoryBus β] {channels : β → Dma} (hreached : ReachedBy channels)
    {bus : β} {i : DmaId} {t : DmaTransfer} (hends : EndsOnLines i t)
    (h : ((channels bus).get i).OnLines i) : ((moved channels bus t).get i).OnLines i := by
  rw [get_moved]
  split
  · next hi =>
    obtain ⟨value, hrun⟩ := t.fst_run bus
    have honLines := hends hi
    rw [hrun, ← hi]
    exact onLines_complete _ honLines.source honLines.destination
  · exact (rewritten_run hreached bus t).preserves onLines_perform h

/-- A channel whose blocks have all ended on its lines is on them. -/
theorem ReachableBy.onLines {i : DmaId} {d : Dma} (h : ReachableBy (EndsOnLines i) d) :
    (d.get i).OnLines i := by
  induction h with
  | blank =>
    rw [get_blank]
    exact ⟨BitVec.le_def.mpr (Nat.zero_le _), BitVec.le_def.mpr (Nat.zero_le _)⟩
  | perform _ op ih => exact onLines_perform _ op ih
  | move hreached _ hends _ ih => exact onLines_moved hreached hends ih

/-- A block has no more units than the channels can count. -/
theorem count_transferOf_le {d : Dma} {i : DmaId} (hsound : (d.get i).Sound i)
    (hactive : (d.get i).active = true) : (d.transferOf i).count ≤ 0x10000 := by
  have hmax := maxCount_le i
  have hcount := hsound.count_le (hsound.enabled_of_active hactive)
  unfold transferOf
  dsimp only
  split <;> omega

/-- A block of the first channel, of two words at the last address of its lines. -/
def overrunning : Dma :=
  programmed [(0, 0xFFFC), (2, 0x07FF), (4, 0xFFFC), (6, 0x07FF), (8, 2), (10, 0x8400)]

/-- Not every unit of every block is on the lines of its channel. -/
theorem not_units_on_lines :
    ¬ ∀ d t, Reachable d → d.begin? = some t → ∀ k < t.count, t.OnLines k := by
  intro hall
  have hbegin : overrunning.begin? = some (overrunning.transferOf 0) := by decide
  have hunit := (hall _ _ (reachable_programmed _) hbegin 1 (by decide)).source
  revert hunit
  decide

/-- Switching a channel on puts its addresses on its lines, whatever they were before. They stay
there over every operation and over every block that ends there, and so from the beginning for as
long as the blocks of the channel end there. From any state in which they are there the addresses
of the next block move without wrapping around, up and down the lines, and if the last unit is on
them then so is every access, whatever the bus answers. In particular the first channel then loads
from below the cartridge, and only the last one can store further up. -/
theorem units_on_lines (i : DmaId) :
    (∀ (d : Dma) (op : Operation), (d.get i).control.enabled = false →
      ((d.perform op).get i).control.enabled = true → ((d.perform op).get i).OnLines i) ∧
    (∀ (d : Dma) (op : Operation), (d.get i).OnLines i → ((d.perform op).get i).OnLines i) ∧
    (∀ (β : Type) [MemoryBus β] (channels : β → Dma) (bus : β) (t : DmaTransfer),
      ReachedBy channels → EndsOnLines i t → ((channels bus).get i).OnLines i →
        ((moved channels bus t).get i).OnLines i) ∧
    (∀ d : Dma, ReachableBy (EndsOnLines i) d → (d.get i).Sound i ∧ (d.get i).OnLines i) ∧
    ∀ d : Dma, (d.get i).Sound i → (d.get i).OnLines i →
      ∀ t, d.begin? = some t → t.channel = i →
        (∀ k ≤ t.count,
          (t.sourceAfter k ≤ sourceMask i ↔
            0 ≤ t.source.toNat + t.sourceStep.offset t.unit.toNat k ∧
              t.source.toNat + t.sourceStep.offset t.unit.toNat k ≤ (sourceMask i).toNat) ∧
          (t.destinationAfter k ≤ destinationMask i ↔
            0 ≤ t.destination.toNat + t.destinationStep.offset t.unit.toNat k ∧
              t.destination.toNat + t.destinationStep.offset t.unit.toNat k ≤
                (destinationMask i).toNat)) ∧
        (t.OnLines (t.count - 1) →
          ∀ (β : Type) [MemoryBus β] (bus : β), ∀ a ∈ t.accesses bus,
            t.Keeps a ∧
            (i = 0 → ∀ address, a.loadAddress? = some address → address < 0x08000000) ∧
            (i ≠ 3 → ∀ address, a.storeAddress? = some address → address < 0x08000000)) := by
  refine ⟨fun d op => onLines_of_switched_on, fun d op => onLines_perform d op, ?_,
    fun d h => ⟨h.sound i, h.onLines⟩, ?_⟩
  · intro β _ channels bus t hreached hends h
    exact onLines_moved hreached hends h
  intro d hsound hlatched t hbegin hi
  obtain ⟨j, hactive, rfl⟩ := exists_of_begin hbegin
  -- The channel of the block is the one that is active.
  obtain rfl : j = i := hi
  have hcount := count_transferOf_le hsound hactive
  have hfirst : (d.transferOf j).OnLines 0 :=
    ⟨by rw [DmaTransfer.sourceAfter_zero]; exact hlatched.source,
      by rw [DmaTransfer.destinationAfter_zero]; exact hlatched.destination⟩
  refine ⟨fun k hk => ⟨?_, ?_⟩, fun hlast β _ bus a ha => ?_⟩
  · exact AddressStep.le_lines_iff _ hlatched.source (sourceMask_le j) (DmaTransfer.unit_le _)
      (Nat.le_trans hk hcount)
  · exact AddressStep.le_lines_iff _ hlatched.destination (destinationMask_le j)
      (DmaTransfer.unit_le _) (Nat.le_trans hk hcount)
  · have hkeeps := DmaTransfer.keeps_of_onLines hfirst hlast hcount ha
    refine ⟨hkeeps, fun hzero address haddress => ?_, fun hother address haddress => ?_⟩
    · have hload : address ≤ sourceMask j := hkeeps.load address haddress
      rw [hzero, sourceMask_first] at hload
      exact lt_cartridge_of_le hload
    · have hstore : address ≤ destinationMask j := hkeeps.store address haddress
      rw [destinationMask_of_ne hother] at hstore
      exact lt_cartridge_of_le hstore

/-- A block of the first channel of two words, four words before the end of its lines. It is
moved again with every picture. -/
def approaching : Dma :=
  (programmed [(0, 0xFFF0), (2, 0x07FF), (4, 0xFFF0), (6, 0x07FF), (8, 2), (10, 0x9600)]).perform
    .vblank

/-- The second of these blocks is the last one on the lines. -/
theorem units_on_lines_of_second_block :
    ∃ d t, ReachableBy (EndsOnLines 0) d ∧ (d.get 0).OnLines 0 ∧ d.begin? = some t ∧
      t.sourceAfter t.count = 0x08000000 ∧ ∀ a ∈ t.accesses d, t.Keeps a := by
  have hready : ReachableBy (EndsOnLines 0) approaching := (reachable_programmed _).perform .vblank
  have hbegin : approaching.begin? = some (approaching.transferOf 0) := by decide
  have hends : EndsOnLines 0 (approaching.transferOf 0) := fun _ => ⟨by decide, by decide⟩
  let d := (moved id approaching (approaching.transferOf 0)).perform .vblank
  have hnext : ReachableBy (EndsOnLines 0) d :=
    (ReachableBy.move reachedBy_id hbegin hends hready).perform .vblank
  have hagain : d.begin? = some (d.transferOf 0) := by decide
  obtain ⟨-, -, -, hreachable, hblock⟩ := units_on_lines 0
  obtain ⟨hsound, honLines⟩ := hreachable d hnext
  have hlast : (d.transferOf 0).OnLines ((d.transferOf 0).count - 1) := ⟨by decide, by decide⟩
  exact ⟨d, _, hnext, honLines, hagain, by decide, fun a ha =>
    ((hblock d hsound honLines _ hagain rfl).2 hlast Dma d a ha).1⟩

end Dma

end AdvanceCore
