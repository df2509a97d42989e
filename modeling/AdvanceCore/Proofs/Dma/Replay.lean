import AdvanceCore.Proofs.Bus.FaultyRam
import AdvanceCore.Proofs.Bus.Watched
import AdvanceCore.Proofs.Dma.UnitPlaces

/-!
# `AdvanceCore.Proofs.Dma.Replay`: a block unit by unit

The loop of a block carries four values from unit to unit: both addresses, what is on the bus, and
what is behind it. Three of them can be said in advance or in hindsight. The addresses of a unit
follow from its number, and a unit that cannot be read is the last one that could be. What is left
is to read and write the units in order, overlapping ones and failures included.

* `DmaTransfer.readUnit`, `writeUnit`: the two accesses of a unit, for words and halfwords alike.
* `DmaTransfer.replay`, `latest`: a block by the numbers of its units, with what has been read.
* `DmaTransfer.moveUnits_eq_replay`: the loop does the same, over any bus.
* `DmaTransfer.run_moves_units_in_order`: a block on a RAM whose accesses may fail.
-/

set_option autoImplicit false

namespace AdvanceCore

namespace DmaTransfer

/-! ### One unit -/

section Units

variable {β : Type} [MemoryBus β]

/-- Loads a unit from an aligned address. A halfword comes in the lower half of a word. -/
def readUnit (t : DmaTransfer) (bus : β) (address : Word) : Option Word × β :=
  if t.movesWords then MemoryBus.load32 bus address
  else (MemoryBus.load16 bus address).map (Option.map fun half => half.setWidth 32) id

/-- Stores a unit at an aligned address. Of a halfword this is the lower half. -/
def writeUnit (t : DmaTransfer) (bus : β) (address value : Word) : Bool × β :=
  if t.movesWords then MemoryBus.store32 bus address value
  else MemoryBus.store16 bus address (value.setWidth 16)

/-- What is on the bus after a unit has been moved. A halfword is on both halves. -/
def onBus (t : DmaTransfer) (value : Word) : Word :=
  if t.movesWords then value else value.setWidth 16 ++ value.setWidth 16

/-- A unit is read, or what is on the bus is taken for it, and then it is written. -/
theorem moveUnit_eq (t : DmaTransfer) (bus : β) :
    t.moveUnit bus =
      let read := t.readUnit bus (t.aligned t.source)
      let value := read.1.getD t.openBus
      (t.proceed (t.onBus value), (t.writeUnit read.2 (t.aligned t.destination) value).2) := by
  unfold moveUnit readUnit writeUnit onBus aligned
  split
  · rfl
  · -- A halfword that is widened and cut back is the same halfword.
    unfold moveHalf
    generalize MemoryBus.load16 bus (halfAligned t.source) = answer
    obtain ⟨_ | half, bus⟩ := answer
    · rfl
    · have hlow : (half.setWidth 32).setWidth 16 = half := by simp
      dsimp only [Prod.map, Option.map_some, Option.getD_some, id]
      rw [hlow]

/-- A value from the bus is left as it is by the bus. -/
theorem onBus_onBus (t : DmaTransfer) (value : Word) : t.onBus (t.onBus value) = t.onBus value := by
  unfold onBus
  split
  · rfl
  · rw [BitVec.setWidth_append_eq_right]

/-- A unit is written as it is on the bus. -/
theorem writeUnit_onBus (t : DmaTransfer) (bus : β) (address value : Word) :
    t.writeUnit bus address (t.onBus value) = t.writeUnit bus address value := by
  unfold writeUnit onBus
  split
  · rfl
  · rw [BitVec.setWidth_append_eq_right]

end Units

/-! ### All units -/

/-- The most recent value that has been read, or the initial one. -/
def latest (initial : Word) (answers : List (Option Word)) : Word :=
  (answers.filterMap id).getLastD initial

/-- One more answer is the most recent value, if it is one. -/
theorem latest_append (initial : Word) (answers : List (Option Word)) (answer : Option Word) :
    latest initial (answers ++ [answer]) = answer.getD (latest initial answers) := by
  unfold latest
  rw [List.filterMap_append]
  cases answer with
  | none => simp
  | some value => simp

/-- What is on the bus after some units, by the answers to their loads. -/
def lastOnBus (t : DmaTransfer) (answers : List (Option Word)) : Word :=
  if answers = [] then t.openBus else t.onBus (latest t.openBus answers)

/-- Only before the first unit can the bus hold something that no unit has left there. -/
theorem onBus_lastOnBus (t : DmaTransfer) (answers : List (Option Word)) :
    t.onBus (t.lastOnBus answers) = t.onBus (latest t.openBus answers) := by
  unfold lastOnBus
  split
  · next hnone =>
    rw [hnone]
    rfl
  · exact t.onBus_onBus _

/-- A load that fails gives what is on the bus, and that is what has been read last. -/
theorem onBus_getD_lastOnBus (t : DmaTransfer) (answers : List (Option Word))
    (answer : Option Word) :
    t.onBus (answer.getD (t.lastOnBus answers)) =
      t.onBus (latest t.openBus (answers ++ [answer])) := by
  rw [latest_append]
  cases answer with
  | none => exact t.onBus_lastOnBus answers
  | some value => rfl

/-- What has become of a transfer after some units, by the answers to their loads. -/
def progressed (t : DmaTransfer) (k : Nat) (answers : List (Option Word)) : DmaTransfer :=
  { t with
    source := t.sourceAfter k
    destination := t.destinationAfter k
    openBus := t.lastOnBus answers }

/-- Moving on by one unit adds its answer, and steps both addresses. -/
theorem proceed_progressed (t : DmaTransfer) (k : Nat) (answers : List (Option Word))
    (answer : Option Word) :
    (t.progressed k answers).proceed (t.onBus (answer.getD (t.lastOnBus answers))) =
      t.progressed (k + 1) (answers ++ [answer]) := by
  have hlast : t.lastOnBus (answers ++ [answer]) =
      t.onBus (latest t.openBus (answers ++ [answer])) :=
    if_neg (List.append_ne_nil_of_right_ne_nil answers (List.cons_ne_nil answer []))
  unfold progressed
  rw [hlast, onBus_getD_lastOnBus, sourceAfter_succ, destinationAfter_succ]
  rfl

section Loop

variable {β : Type} [MemoryBus β]

/-- Moves the unit with a number, after those that gave some answers to their loads. The unit is
read and the most recent value is written, each at the place that the number gives. -/
def replayUnit (t : DmaTransfer) (k : Nat) (moved : List (Option Word) × β) :
    List (Option Word) × β :=
  let read := t.readUnit moved.2 (t.sourceAt k)
  let answers := moved.1 ++ [read.1]
  (answers, (t.writeUnit read.2 (t.destinationAt k) (latest t.openBus answers)).2)

/-- Moves the first units of a block by their numbers. Gives the answers to the loads, in order. -/
def replay (t : DmaTransfer) (bus : β) : Nat → List (Option Word) × β
  | 0 => ([], bus)
  | k + 1 => t.replayUnit k (t.replay bus k)

/-- A unit of the block is a unit of the replay: the answers so far are all that the block has to
know of the units before. -/
theorem moveUnit_progressed (t : DmaTransfer) (k : Nat) (moved : List (Option Word) × β) :
    (t.progressed k moved.1).moveUnit moved.2 =
      (t.progressed (k + 1) (t.replayUnit k moved).1, (t.replayUnit k moved).2) := by
  let read := t.readUnit moved.2 (t.sourceAt k)
  -- The two values are the same on the bus, and nothing else of them is written.
  have hwritten : t.writeUnit read.2 (t.destinationAt k) (read.1.getD (t.lastOnBus moved.1)) =
      t.writeUnit read.2 (t.destinationAt k) (latest t.openBus (moved.1 ++ [read.1])) := by
    rw [← t.writeUnit_onBus, onBus_getD_lastOnBus, t.writeUnit_onBus]
  have hbus := congrArg Prod.snd hwritten
  rw [moveUnit_eq]
  exact Prod.ext (t.proceed_progressed k moved.1 read.1) hbus

/-- The loop replays the block and carries what is known of it without the loop. -/
theorem moveUnits_eq_replay (t : DmaTransfer) (bus : β) (count : Nat) :
    t.moveUnits bus count =
      (t.progressed count (t.replay bus count).1, (t.replay bus count).2) := by
  induction count with
  | zero =>
    unfold progressed
    rw [sourceAfter_zero, destinationAfter_zero]
    rfl
  | succ count ih =>
    rw [moveUnits_succ, ih]
    exact t.moveUnit_progressed count (t.replay bus count)

end Loop

/-! ### Blocks without failures -/

section Watched

variable {β : Type} [MemoryBus β]

/-- A watched bus watches the load of a unit. -/
theorem readUnit_watched (t : DmaTransfer) (w : Watched β) (address : Word) :
    t.readUnit w address = w.loaded (t.readUnit w.bus address) := by
  unfold readUnit
  split
  · rfl
  · unfold Watched.loaded
    dsimp only [Prod.map]
    rw [Option.isNone_map]
    rfl

/-- A watched bus watches the store of a unit. -/
theorem writeUnit_watched (t : DmaTransfer) (w : Watched β) (address value : Word) :
    t.writeUnit w address value = w.stored (t.writeUnit w.bus address value) := by
  unfold writeUnit
  split <;> rfl

/-- If nothing has failed after a unit, both of its accesses have succeeded. -/
theorem moveUnit_of_not_failed {t : DmaTransfer} {w : Watched β}
    (h : (t.moveUnit w).2.failed = false) :
    w.failed = false ∧ ∃ value, (t.readUnit w.bus (t.aligned t.source)).1 = some value ∧
      let written := t.writeUnit (t.readUnit w.bus (t.aligned t.source)).2
        (t.aligned t.destination) value
      written.1 = true ∧ (t.moveUnit w).2.bus = written.2 := by
  rw [moveUnit_eq, readUnit_watched] at h ⊢
  dsimp only at h ⊢
  rw [writeUnit_watched] at h ⊢
  generalize t.readUnit w.bus (t.aligned t.source) = read at h ⊢
  obtain ⟨answer, bus⟩ := read
  simp only [Watched.loaded, Watched.stored, Bool.or_eq_false_iff, Bool.not_eq_false'] at h ⊢
  -- A failure stays noted, so there was none before the unit and none at either of its accesses.
  obtain ⟨⟨hbefore, hread⟩, hwritten⟩ := h
  cases answer with
  | none => cases hread
  | some value => exact ⟨hbefore, value, rfl, hwritten, rfl⟩

/-- A failure is not forgotten. -/
theorem not_failed_of_le {t : DmaTransfer} {w : Watched β} {k count : Nat} (hk : k ≤ count)
    (h : (t.moveUnits w count).2.failed = false) : (t.moveUnits w k).2.failed = false := by
  induction hk with
  | refl => exact h
  | @step count _ ih =>
    rw [moveUnits_succ] at h
    exact ih (moveUnit_of_not_failed h).1

end Watched

section Ram

variable {passes : Nat → BusAccess → Bool} {t : DmaTransfer} {ram : FaultyRam passes}

/-- Reading a unit changes no byte. -/
theorem bytes_readUnit (address : Word) : (t.readUnit ram address).2.bytes = ram.bytes := by
  unfold readUnit
  split <;> rfl

/-- A unit that is read has the bytes at its address. -/
theorem byte_of_readUnit {address value : Word} (h : (t.readUnit ram address).1 = some value)
    {j : Nat} (hj : j < t.size) :
    Bits.byte value j = ram.bytes (address + BitVec.ofNat 32 j) := by
  unfold readUnit at h
  unfold size at hj
  split at hj
  · next hwords =>
    rw [if_pos hwords] at h
    rw [FaultyRam.eq_of_load h, byte_wordAt ram.bytes address hj]
  · next hhalves =>
    rw [if_neg hhalves] at h
    obtain ⟨half, hhalf, rfl⟩ := Option.map_eq_some_iff.mp h
    rw [Bits.byte_setWidth half (by omega), FaultyRam.eq_of_load hhalf,
      byte_halfAt ram.bytes address hj]

/-- A unit that is accepted overwrites the bytes at its address. -/
theorem bytes_of_writeUnit {address value : Word} (h : (t.writeUnit ram address value).1 = true) :
    (t.writeUnit ram address value).2.bytes =
      overwritten ram.bytes address t.size (Bits.byte value) := by
  unfold writeUnit at h ⊢
  unfold size
  split at h
  · next hwords =>
    rw [if_pos hwords, if_pos hwords]
    exact FaultyRam.bytes_of_store h
  · next hhalves =>
    rw [if_neg hhalves, if_neg hhalves]
    refine (FaultyRam.bytes_of_store h).trans (overwritten_congr fun j hj => ?_)
    exact Bits.byte_setWidth value (by omega)

/-- A unit without failures is copied, and nothing else changes. -/
theorem bytes_moveUnit {w : Watched (FaultyRam passes)} (h : (t.moveUnit w).2.failed = false) :
    (t.moveUnit w).2.bus.bytes = overwritten w.bus.bytes (t.aligned t.destination) t.size
      fun j => w.bus.bytes (t.aligned t.source + BitVec.ofNat 32 j) := by
  obtain ⟨-, value, hread, hwritten, hbus⟩ := moveUnit_of_not_failed h
  rw [hbus, bytes_of_writeUnit hwritten, bytes_readUnit]
  exact overwritten_congr fun j hj => byte_of_readUnit hread hj

/-- The unit after the first `k` ones copies what is there by then. -/
theorem bytes_moveUnits {w : Watched (FaultyRam passes)} {k : Nat}
    (h : (t.moveUnits w (k + 1)).2.failed = false) :
    (t.moveUnits w (k + 1)).2.bus.bytes =
      overwritten (t.moveUnits w k).2.bus.bytes (t.destinationAt k) t.size
        fun j => (t.moveUnits w k).2.bus.bytes (t.sourceCell k j) := by
  have hunit : t.moveUnits w (k + 1) =
      (t.progressed k (t.replay w k).1).moveUnit (t.moveUnits w k).2 := by
    rw [moveUnits_succ, moveUnits_eq_replay]
  rw [hunit] at h ⊢
  exact bytes_moveUnit h

/-- A block copies its units if nothing fails and its destinations are apart from its sources. -/
theorem unitCopies {w : Watched (FaultyRam passes)} (h : (t.moveUnits w t.count).2.failed = false)
    (hapart : t.Apart) (hmoves : t.destinationStep.distance t.unit ≠ 0) :
    UnitCopies (fun k => (t.moveUnits w k).2.bus.bytes) t.sourceCell t.destinationCell t.size
      t.count := by
  constructor
  · intro k hk j hj
    rw [bytes_moveUnits (not_failed_of_le hk h)]
    exact overwritten_inside hj t.size_le
  · intro k hk cell hcell
    rw [bytes_moveUnits (not_failed_of_le hk h)]
    exact overwritten_outside hcell
  · exact hapart
  · intro k hk k' hk' hne j hj j' hj'
    exact hapart.destinationCell_ne hmoves hk hk' hne hj hj'

/-- A block moves its units in the order of their numbers, whatever their number and size, in
either direction, over one another and around the end of the address space. Of the accesses any
may fail: the unit that is written is the one that has been read most recently, or before any what
was on the bus at first, and what cannot be written is left out. Both addresses end behind the
last unit, and the last unit stays on the bus.

If nothing fails, the destination moves, and no unit is written over a source, then the block is
a copy of what was there at first and nothing else has changed. -/
theorem run_moves_units_in_order (t : DmaTransfer) (ram : FaultyRam passes) :
    (t.run ram).2 = (t.replay ram t.count).2 ∧
    (t.run ram).1 =
      { t with
        source := t.source + BitVec.ofNat 32 t.count * t.sourceStep.distance t.unit
        destination := t.destination + BitVec.ofNat 32 t.count * t.destinationStep.distance t.unit
        openBus := t.lastOnBus (t.replay ram t.count).1 } ∧
    ((t.run (⟨ram, false⟩ : Watched (FaultyRam passes))).2.failed = false → t.Apart →
      t.destinationStep.distance t.unit ≠ 0 →
      (∀ k < t.count, ∀ j < t.size,
        (t.run ram).2.bytes (t.destinationCell k j) = ram.bytes (t.sourceCell k j)) ∧
      ∀ cell, (∀ k < t.count, ∀ j < t.size, cell ≠ t.destinationCell k j) →
        (t.run ram).2.bytes cell = ram.bytes cell) := by
  have hrun : t.run ram =
      (t.progressed t.count (t.replay ram t.count).1, (t.replay ram t.count).2) :=
    t.moveUnits_eq_replay ram t.count
  refine ⟨congrArg Prod.snd hrun, congrArg Prod.fst hrun, fun hpassed hapart hmoves => ?_⟩
  have hcopies := unitCopies (w := ⟨ram, false⟩) hpassed hapart hmoves
  have hbus : (t.run ram).2 = (t.run (⟨ram, false⟩ : Watched (FaultyRam passes))).2.bus :=
    congrArg Prod.snd (Watched.busMap.moveUnits t ⟨ram, false⟩ t.count)
  rw [hbus]
  exact ⟨fun _ hk _ hj => hcopies.copied hk hj, fun _ => hcopies.unchanged⟩

/-- Three halfwords, read downwards and written upwards. -/
def threeHalves : DmaTransfer where
  channel := 1
  source := 0x104
  destination := 0x200
  count := 3
  movesWords := false
  sourceStep := .decrement
  destinationStep := .increment
  openBus := 0

/-- A RAM in which every byte is the lowest one of its address. -/
def numbered (passes : Nat → BusAccess → Bool) : FaultyRam passes :=
  { bytes := fun address => address.setWidth 8 }

/-- They arrive if the first six accesses get through. -/
theorem three_halves_moved :
    let moved := threeHalves.run (numbered fun time _ => time < 6)
    moved.2.bytes 0x205 = 0x01 ∧ moved.2.bytes 0x206 = 0x06 ∧
      moved.1 =
        { threeHalves with source := 0xFE, destination := 0x206, openBus := 0x01000100 } := by
  obtain ⟨-, htransfer, hcopied⟩ :=
    run_moves_units_in_order threeHalves (numbered fun time _ => time < 6)
  have hapart : threeHalves.Apart := by
    unfold Apart
    decide
  obtain ⟨hcopy, hkept⟩ := hcopied rfl hapart (by decide)
  exact ⟨hcopy 2 (by decide) 1 (by decide), hkept 0x206 (by decide), htransfer⟩

/-- If the second load fails, the first halfword is written twice. -/
example : (threeHalves.run (numbered fun time _ => time ≠ 2)).2.bytes 0x202 = 0x04 := by decide

end Ram

end DmaTransfer

end AdvanceCore
