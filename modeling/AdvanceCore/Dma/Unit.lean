import AdvanceCore.Dma.Transfer
import AdvanceCore.InterruptController

/-!
# `AdvanceCore.Dma.Unit`: the four DMA channels

An active channel owns the bus until its block is moved, the lowest channel first.
`Dma.begin?` takes its block, `DmaTransfer.run` moves it and `Dma.finish` completes
the channel. Signals make enabled channels active that wait for them.
-/

set_option autoImplicit false

namespace AdvanceCore

/-- The DMA channels. -/
structure Dma where
  channels : Vector DmaChannel 4 := Vector.replicate 4 {}
  /-- The last value that a transfer has moved. -/
  openBus : Word := 0
  deriving DecidableEq, Repr

/-- One of the two sound FIFOs has an address of its own, four bytes after the other. -/
def fifoAddress (fifo : Nat) : Word := 0x040000A0 + 4 * BitVec.ofNat 32 fifo

namespace Dma

/-- One of the channels. -/
def get (d : Dma) (i : DmaId) : DmaChannel := d.channels[i]

/-- Replaces one of the channels. -/
def set (d : Dma) (i : DmaId) (channel : DmaChannel) : Dma :=
  { d with channels := d.channels.set i channel }

/-- A channel that is set is read back, and the others are kept. -/
@[simp] theorem get_set (d : Dma) (i j : DmaId) (channel : DmaChannel) :
    (d.set i channel).get j = if i = j then channel else d.get j := by
  simp only [get, set, Fin.getElem_fin, Vector.getElem_set, Fin.ext_iff]

/-! ### Transfers -/

/-- The channel that owns the bus. -/
def owner? (d : Dma) : Option DmaId :=
  (List.finRange 4).find? fun i => (d.get i).active

/-- Whether a channel owns the bus. -/
def isActive (d : Dma) : Bool := d.owner?.isSome

/-- The block of a channel. A FIFO takes four words at one address, whatever the
channel is set to. -/
def transferOf (d : Dma) (i : DmaId) : DmaTransfer :=
  let c := d.get i
  let fifo := c.feedsFifo i
  { channel := i
    source := c.latched.source
    destination := c.latched.destination
    count := if fifo then 4 else c.latched.count
    movesWords := fifo || c.control.movesWords
    sourceStep := c.control.sourceStep
    destinationStep := if fifo then .fixed else c.control.destinationStep
    openBus := d.openBus }

/-- Takes the block of the channel that owns the bus. -/
def begin? (d : Dma) : Option DmaTransfer := d.owner?.map d.transferOf

/-- Completes the channel of a transfer. -/
def finish (d : Dma) (t : DmaTransfer) (interrupts : InterruptController) :
    Dma × InterruptController :=
  let c := d.get t.channel
  let interrupts :=
    if c.control.interrupts then interrupts.raise (.dma t.channel) else interrupts
  ({ d with openBus := t.openBus }.set t.channel
    (c.complete t.channel t.source t.destination), interrupts)

/-! ### Signals -/

/-- Applies a function to every channel. -/
def mapChannels (d : Dma) (f : DmaId → DmaChannel → DmaChannel) : Dma :=
  { d with channels := d.channels.mapFinIdx fun i c h => f ⟨i, h⟩ c }

/-- Mapping the channels maps each of them by its number. -/
@[simp] theorem get_mapChannels (d : Dma) (f : DmaId → DmaChannel → DmaChannel) (i : DmaId) :
    (d.mapChannels f).get i = f i (d.get i) := by
  simp only [mapChannels, get, Fin.getElem_fin, Vector.getElem_mapFinIdx]

/-- Makes the enabled channels active that wait for a signal. -/
def trigger (d : Dma) (waits : DmaId → DmaChannel → Bool) : Dma :=
  d.mapChannels fun i c => if c.control.enabled && waits i c then { c with active := true } else c

/-- The picture is complete. -/
def signalVblank (d : Dma) : Dma :=
  d.trigger fun _ c => c.control.timing = .vblank

/-- A line of the captured picture is complete. The capture takes lines 2 to 161 and
ends with the one after. -/
def capture (c : DmaChannel) (line : Nat) : DmaChannel :=
  if 2 ≤ line ∧ line ≤ 161 then { c with active := true }
  else if line = 162 then { c.disable with active := false }
  else c

/-- A line of the picture is complete. Channels that wait for lines only see the
visible ones. -/
def signalHblank (d : Dma) (line : Nat) : Dma :=
  let d := if line < 160 then d.trigger fun _ c => c.control.timing = .hblank else d
  d.mapChannels fun i c => if c.capturesLines i then capture c line else c

/-- A sound FIFO asks for more samples. -/
def signalFifo (d : Dma) (fifo : Nat) : Dma :=
  d.trigger fun i c => c.feedsFifo i && c.latched.destination == fifoAddress fifo

/-! ### Registers -/

/-- The registers of a channel. -/
inductive Register where
  | sourceLow
  | sourceHigh
  | destinationLow
  | destinationHigh
  | count
  | control
  deriving DecidableEq, Repr

/-- The register at an even offset within a channel. -/
def Register.ofOffset : Nat → Register
  | 0 => .sourceLow
  | 2 => .sourceHigh
  | 4 => .destinationLow
  | 6 => .destinationHigh
  | 8 => .count
  | _ => .control

/-- The channel and the register at an offset. -/
def registerAt? (offset : Nat) : Option (DmaId × Register) :=
  if h : offset / 12 < 4 then some (⟨offset / 12, h⟩, .ofOffset (offset % 12)) else none

/-- The registers by offset. Only the control registers can be read, the others give
zero. -/
def register? (d : Dma) (offset : Nat) : Option Half :=
  (registerAt? offset).map fun
    | (i, .control) => (d.get i).control.word
    | _ => 0

/-- Replaces bits of the low half of an address. -/
def mergeLow (address : Word) (value mask : Half) : Word :=
  Bits.merge address (value.setWidth 32) (mask.setWidth 32)

/-- Replaces bits of the high half of an address. -/
def mergeHigh (address : Word) (value mask : Half) : Word :=
  Bits.merge address (value.setWidth 32 <<< 16) (mask.setWidth 32 <<< 16)

/-- Writes a register of a channel. -/
def writeChannel (c : DmaChannel) (i : DmaId) (r : Register) (value mask : Half) : DmaChannel :=
  match r with
  | .sourceLow => { c with source := mergeLow c.source value mask }
  | .sourceHigh => { c with source := mergeHigh c.source value mask }
  | .destinationLow => { c with destination := mergeLow c.destination value mask }
  | .destinationHigh => { c with destination := mergeHigh c.destination value mask }
  | .count => { c with count := Bits.merge c.count value mask }
  | .control => c.writeControl i value mask

/-- Writes a register. -/
def writeRegister (d : Dma) (offset : Nat) (value mask : Half) : Bool × Dma :=
  match registerAt? offset with
  | some (i, r) => (true, d.set i (writeChannel (d.get i) i r value mask))
  | none => (false, d)

instance : RegisterBlock Dma where
  readRegister := register?
  writeRegister := writeRegister

end Dma

end AdvanceCore
