import AdvanceCore.Bits

/-!
# `AdvanceCore.Bus`: the address space as the processor sees it

A bus answers loads and stores of bytes, halfwords and words, little-endian, and
says of each whether it succeeded. Everything that can be addressed is a bus: a
memory, a block of registers, a whole console.

A load may change what it reads from, because a register can have side effects, so
every access gives the bus back.

* `MemoryBus`: the six accesses. Callers keep halfwords and words aligned.
* `Load`, `Store`: the accesses an instruction makes at any address.
* `storeWords`, `loadWords`: a run of aligned words, given up at the first failure.
-/

set_option autoImplicit false

namespace AdvanceCore

/-- Loads and stores over a state `β`. A load gives nothing where nobody answers. A
store says whether it was accepted. -/
class MemoryBus (β : Type) where
  load8 : β → Word → Option Byte × β
  load16 : β → Word → Option Half × β
  load32 : β → Word → Option Word × β
  store8 : β → Word → Byte → Bool × β
  store16 : β → Word → Half → Bool × β
  store32 : β → Word → Word → Bool × β

/-- The address of the word that contains `address`. -/
def wordAligned (address : Word) : Word := address &&& ~~~3

/-- The address of the halfword that contains `address`. -/
def halfAligned (address : Word) : Word := address &&& ~~~1

/-- The loads of the instruction set, by what they leave in a register. -/
inductive Load where
  | word
  | half
  | byte
  | signedByte
  | signedHalf
  deriving DecidableEq, Repr

/-- The stores of the instruction set. -/
inductive Store where
  | word
  | half
  | byte
  deriving DecidableEq, Repr

variable {β : Type} [MemoryBus β]

/-- Loads a byte and widens it with its sign. -/
def loadSignedByte (bus : β) (address : Word) : Option Word × β :=
  let (value, bus) := MemoryBus.load8 bus address
  (value.map fun v => v.signExtend 32, bus)

/-- Performs a load. A word or halfword at an unaligned address comes rotated, so
that the addressed byte is the lowest. A signed halfword at an odd address is a
signed byte. -/
def Load.run (kind : Load) (bus : β) (address : Word) : Option Word × β :=
  match kind with
  | .word =>
    let (value, bus) := MemoryBus.load32 bus (wordAligned address)
    (value.map fun v => v.rotateRight ((address &&& 3).toNat * 8), bus)
  | .half =>
    let (value, bus) := MemoryBus.load16 bus (halfAligned address)
    (value.map fun v => (v.setWidth 32).rotateRight ((address &&& 1).toNat * 8), bus)
  | .byte =>
    let (value, bus) := MemoryBus.load8 bus address
    (value.map fun v => v.setWidth 32, bus)
  | .signedByte => loadSignedByte bus address
  | .signedHalf =>
    if address.getLsbD 0 then loadSignedByte bus address
    else
      let (value, bus) := MemoryBus.load16 bus address
      (value.map fun v => v.signExtend 32, bus)

/-- Performs a store of the low part of `value`. Low address bits that would make a
halfword or word unaligned are ignored. -/
def Store.run (kind : Store) (bus : β) (address value : Word) : Bool × β :=
  match kind with
  | .word => MemoryBus.store32 bus (wordAligned address) value
  | .half => MemoryBus.store16 bus (halfAligned address) (value.setWidth 16)
  | .byte => MemoryBus.store8 bus address (value.setWidth 8)

/-- How far a run of word accesses came. -/
structure WordRun (α : Type) where
  /-- The accesses made, a failing one included. -/
  accesses : Nat
  /-- What the run gives. -/
  outcome : α

/-- Stores words at ascending addresses until one is refused. The outcome says
whether all were accepted. -/
def storeWords (bus : β) (address : Word) : List Word → WordRun Bool × β
  | [] => (⟨0, true⟩, bus)
  | value :: rest =>
    match MemoryBus.store32 bus (wordAligned address) value with
    | (false, bus) => (⟨1, false⟩, bus)
    | (true, bus) =>
      let (run, bus) := storeWords bus (address + 4) rest
      (⟨run.accesses + 1, run.outcome⟩, bus)

/-- Loads `count` words from ascending addresses until one fails. The outcome holds
the words that were read. -/
def loadWords (bus : β) (address : Word) : Nat → WordRun (List Word) × β
  | 0 => (⟨0, []⟩, bus)
  | count + 1 =>
    match MemoryBus.load32 bus (wordAligned address) with
    | (none, bus) => (⟨1, []⟩, bus)
    | (some value, bus) =>
      let (run, bus) := loadWords bus (address + 4) count
      (⟨run.accesses + 1, value :: run.outcome⟩, bus)

end AdvanceCore
