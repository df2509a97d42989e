import AdvanceCore.Bus
import AdvanceCore.Dma.Channel

/-!
# `AdvanceCore.Dma.Transfer`: moving a block

A transfer is detached from its channel while it runs, because the bus that it moves
its units over reaches the registers of the channel too.
-/

set_option autoImplicit false

namespace AdvanceCore

/-- A block on its way. -/
structure DmaTransfer where
  channel : DmaId
  source : Word
  destination : Word
  /-- The number of units in the block. -/
  count : Nat
  /-- The units are words instead of halfwords. -/
  movesWords : Bool
  sourceStep : AddressStep
  destinationStep : AddressStep
  /-- The last value on the bus, which a failed load gives again. -/
  openBus : Word
  deriving DecidableEq, Repr

namespace DmaTransfer

/-- The bytes of a unit. -/
def unit (t : DmaTransfer) : Word := if t.movesWords then 4 else 2

/-- Moves both addresses to the next unit, and keeps the value moved. -/
def proceed (t : DmaTransfer) (value : Word) : DmaTransfer :=
  { t with
    source := t.source + t.sourceStep.distance t.unit
    destination := t.destination + t.destinationStep.distance t.unit
    openBus := value }

variable {β : Type} [MemoryBus β]

/-- Moves a word. -/
def moveWord (t : DmaTransfer) (bus : β) : DmaTransfer × β :=
  let (loaded, bus) := MemoryBus.load32 bus (wordAligned t.source)
  let value := loaded.getD t.openBus
  let (_, bus) := MemoryBus.store32 bus (wordAligned t.destination) value
  (t.proceed value, bus)

/-- Moves a halfword, which is then on both halves of the bus. -/
def moveHalf (t : DmaTransfer) (bus : β) : DmaTransfer × β :=
  let (loaded, bus) := MemoryBus.load16 bus (halfAligned t.source)
  let value := loaded.getD (t.openBus.setWidth 16)
  let (_, bus) := MemoryBus.store16 bus (halfAligned t.destination) value
  (t.proceed (value ++ value), bus)

/-- Moves one unit. A failed load moves the last value on the bus, and a failed store
is dropped. -/
def moveUnit (t : DmaTransfer) (bus : β) : DmaTransfer × β :=
  if t.movesWords then t.moveWord bus else t.moveHalf bus

/-- Moves a number of units. -/
def moveUnits (t : DmaTransfer) (bus : β) : Nat → DmaTransfer × β
  | 0 => (t, bus)
  | count + 1 =>
    let (t, bus) := t.moveUnit bus
    moveUnits t bus count

/-- The cycles of a block: two for each unit and two to start. -/
def cycles (t : DmaTransfer) : Nat := 2 + 2 * t.count

/-- Moves the whole block. -/
def run (t : DmaTransfer) (bus : β) : DmaTransfer × β :=
  t.moveUnits bus t.count

end DmaTransfer

end AdvanceCore
