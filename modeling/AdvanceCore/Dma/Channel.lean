import AdvanceCore.Interrupt

/-!
# `AdvanceCore.Dma.Channel`: one DMA channel

A channel holds the addresses and the count that a program has written. Switching it
on latches them, and its transfers only use the latched ones. The channels have
address lines of different widths.
-/

set_option autoImplicit false

namespace AdvanceCore

/-- How an address moves from unit to unit. -/
inductive AddressStep where
  | increment
  | decrement
  | fixed
  /-- Increments, and starts over when the channel repeats. -/
  | incrementReload
  deriving DecidableEq, Repr

namespace AddressStep

/-- The step with a two-bit code. -/
def ofCode (code : BitVec 2) : AddressStep :=
  match code with
  | 0b00#2 => .increment
  | 0b01#2 => .decrement
  | 0b10#2 => .fixed
  | _ => .incrementReload

/-- The distance that a step moves an address, for units of a number of bytes. -/
def distance (step : AddressStep) (unit : Word) : Word :=
  match step with
  | .increment | .incrementReload => unit
  | .decrement => -unit
  | .fixed => 0

end AddressStep

/-- When an enabled channel starts. -/
inductive StartTiming where
  | immediate
  | vblank
  | hblank
  /-- Channels 1 and 2 wait for a sound FIFO, channel 3 for lines of a captured
  picture. -/
  | special
  deriving DecidableEq, Repr

/-- The timing with a two-bit code. -/
def StartTiming.ofCode (code : BitVec 2) : StartTiming :=
  match code with
  | 0b00#2 => .immediate
  | 0b01#2 => .vblank
  | 0b10#2 => .hblank
  | _ => .special

/-- The control register of a channel. -/
structure DmaControl where
  word : Half
  deriving DecidableEq, Repr

namespace DmaControl

/-- How the destination moves. -/
def destinationStep (c : DmaControl) : AddressStep := .ofCode (c.word.extractLsb' 5 2)

/-- How the source moves. It cannot be reloaded, so that setting only increments. -/
def sourceStep (c : DmaControl) : AddressStep :=
  match AddressStep.ofCode (c.word.extractLsb' 7 2) with
  | .incrementReload => .increment
  | step => step

/-- The channel stays enabled after a block. -/
def repeats (c : DmaControl) : Bool := c.word.getLsbD 9

/-- The units are words instead of halfwords. -/
def movesWords (c : DmaControl) : Bool := c.word.getLsbD 10

/-- When the channel starts. -/
def timing (c : DmaControl) : StartTiming := .ofCode (c.word.extractLsb' 12 2)

/-- A moved block requests an interrupt. -/
def interrupts (c : DmaControl) : Bool := c.word.getLsbD 14

/-- The channel is switched on. -/
def enabled (c : DmaControl) : Bool := c.word.getLsbD 15

/-- Switches the channel on or off. -/
def withEnabled (c : DmaControl) (on : Bool) : DmaControl := ⟨Bits.setBit c.word 15 on⟩

end DmaControl

/-- The addresses and the count of a block. -/
structure DmaBlock where
  source : Word := 0
  destination : Word := 0
  /-- The number of units. -/
  count : Nat := 0
  deriving DecidableEq, Repr

/-- A channel. -/
structure DmaChannel where
  /-- The source as written. -/
  source : Word := 0
  /-- The destination as written. -/
  destination : Word := 0
  /-- The count as written. -/
  count : Half := 0
  control : DmaControl := ⟨0⟩
  /-- What the next transfer uses. -/
  latched : DmaBlock := {}
  /-- The channel waits for the bus. -/
  active : Bool := false
  deriving DecidableEq, Repr

namespace DmaChannel

/-- The address lines of a channel's source. -/
def sourceMask (i : DmaId) : Word := if i = 0 then 0x07FFFFFF else 0x0FFFFFFF

/-- The address lines of a channel's destination. -/
def destinationMask (i : DmaId) : Word := if i = 3 then 0x0FFFFFFF else 0x07FFFFFF

/-- The largest number of units in a block. -/
def maxCount (i : DmaId) : Nat := if i = 3 then 0x10000 else 0x4000

/-- The number of units in a block, where a count of zero is the largest. -/
def blockCount (c : DmaChannel) (i : DmaId) : Nat :=
  let count := c.count.toNat % maxCount i
  if count = 0 then maxCount i else count

/-- The destination on the address lines. -/
def maskedDestination (c : DmaChannel) (i : DmaId) : Word :=
  c.destination &&& destinationMask i

/-- Latches the addresses and the count. -/
def latch (c : DmaChannel) (i : DmaId) : DmaChannel :=
  { c with
    latched :=
      { source := c.source &&& sourceMask i
        destination := c.maskedDestination i
        count := c.blockCount i } }

/-- Whether a channel feeds a sound FIFO. -/
def feedsFifo (c : DmaChannel) (i : DmaId) : Bool :=
  c.control.timing = .special && (i = 1 || i = 2)

/-- Whether a channel captures the picture line by line. -/
def capturesLines (c : DmaChannel) (i : DmaId) : Bool :=
  c.control.enabled && c.control.timing = .special && i = 3

/-- Writes the control register. Switching the channel on latches its addresses, and
one with immediate timing becomes active at once. Switching it off makes it inactive. -/
def writeControl (c : DmaChannel) (i : DmaId) (value mask : Half) : DmaChannel :=
  let wasEnabled := c.control.enabled
  let c := { c with control := ⟨Bits.merge c.control.word value mask⟩ }
  if !c.control.enabled then { c with active := false }
  else if !wasEnabled then { c.latch i with active := c.control.timing = .immediate }
  else c

/-- Switches a channel off. -/
def disable (c : DmaChannel) : DmaChannel :=
  { c with control := c.control.withEnabled false }

/-- Completes a block whose addresses have come to the given ones. A channel that
waits for a signal may repeat: it gets a full count again, and its destination starts
over if it is set to reload. All others are switched off. -/
def complete (c : DmaChannel) (i : DmaId) (source destination : Word) : DmaChannel :=
  let c :=
    { c with
      latched := { c.latched with source := source, destination := destination }
      active := false }
  if c.control.repeats && c.control.timing ≠ .immediate then
    { c with
      latched :=
        { c.latched with
          count := c.blockCount i
          destination :=
            if c.control.destinationStep = .incrementReload then c.maskedDestination i
            else destination } }
  else c.disable

end DmaChannel

end AdvanceCore
