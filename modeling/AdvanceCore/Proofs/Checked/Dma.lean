import AdvanceCore.Proofs.Checked.Bus
import AdvanceCore.Proofs.Dma.AddressLines

/-!
# `AdvanceCore.Proofs.Checked.Dma`: blocks that are counted

A channel that is set up by a program reads its control register field by field, and so does
the end of its block. The fields are where they are in every control register, so neither
breaks. The cycles of a block are worked out from its count, which is a number of thirty-two
bits: they fit because no channel can count that far.

* `Dma.unbroken`: no access breaks the registers of the channels.
* `DmaTransfer.run?_eq`, `DmaTransfer.cycles?_of_le`: a block over any bus, and its cycles.
* `Dma.nextBlock?_eq`, `Dma.finish?_eq`: how a block begins and ends.
-/

set_option autoImplicit false

namespace AdvanceCore

open Bits

/-! ### One channel -/

namespace DmaControl

/-- The checked form of `destinationStep`. -/
def destinationStep? (c : DmaControl) : Option AddressStep :=
  return .ofCode (← slice? c.word 5 2)

/-- The checked form of `sourceStep`. -/
def sourceStep? (c : DmaControl) : Option AddressStep := do
  return match AddressStep.ofCode (← slice? c.word 7 2) with
    | .incrementReload => .increment
    | step => step

/-- The checked form of `timing`. -/
def timing? (c : DmaControl) : Option StartTiming := return .ofCode (← slice? c.word 12 2)

/-- The checked form of `repeats`. -/
def repeats? (c : DmaControl) : Option Bool := bit? c.word 9

/-- The checked form of `movesWords`. -/
def movesWords? (c : DmaControl) : Option Bool := bit? c.word 10

/-- The checked form of `interrupts`. -/
def interrupts? (c : DmaControl) : Option Bool := bit? c.word 14

/-- The checked form of `enabled`. -/
def enabled? (c : DmaControl) : Option Bool := bit? c.word 15

/-- The checked form of `withEnabled`. -/
def withEnabled? (c : DmaControl) (on : Bool) : Option DmaControl :=
  return ⟨← setBit? c.word 15 on⟩

/-- The step of the destination is in bits 5 and 6. -/
@[simp] theorem destinationStep?_eq (c : DmaControl) :
    c.destinationStep? = some c.destinationStep := by
  simp [destinationStep?, destinationStep]

/-- The step of the source is in bits 7 and 8. -/
@[simp] theorem sourceStep?_eq (c : DmaControl) : c.sourceStep? = some c.sourceStep := by
  simp only [sourceStep?, slice?_of_le, Nat.reduceLT, Nat.reduceAdd, Nat.reduceLeDiff,
    Option.bind_eq_bind, Option.bind_some]
  rfl

/-- The timing is in bits 12 and 13. -/
@[simp] theorem timing?_eq (c : DmaControl) : c.timing? = some c.timing := by
  simp [timing?, timing]

/-- The enable bit is the highest of the register, and can be written. -/
@[simp] theorem withEnabled?_eq (c : DmaControl) (on : Bool) :
    c.withEnabled? on = some (c.withEnabled on) := by
  simp [withEnabled?, withEnabled]

/-- The repeat bit is bit 9 of the register. -/
@[simp] theorem repeats?_eq (c : DmaControl) : c.repeats? = some c.repeats :=
  bit?_of_lt _ (by decide)

/-- The bit that selects words is bit 10. -/
@[simp] theorem movesWords?_eq (c : DmaControl) : c.movesWords? = some c.movesWords :=
  bit?_of_lt _ (by decide)

/-- The bit that asks for an interrupt is bit 14. -/
@[simp] theorem interrupts?_eq (c : DmaControl) : c.interrupts? = some c.interrupts :=
  bit?_of_lt _ (by decide)

/-- The enable bit is bit 15. -/
@[simp] theorem enabled?_eq (c : DmaControl) : c.enabled? = some c.enabled :=
  bit?_of_lt _ (by decide)

end DmaControl

namespace DmaChannel

/-- The checked form of `feedsFifo`. -/
def feedsFifo? (c : DmaChannel) (i : DmaId) : Option Bool :=
  return (← c.control.timing?) = .special && (i = 1 || i = 2)

/-- The checked form of `writeControl`. -/
def writeControl? (c : DmaChannel) (i : DmaId) (value mask : Half) : Option DmaChannel := do
  let wasEnabled ← c.control.enabled?
  let c := { c with control := ⟨Bits.merge c.control.word value mask⟩ }
  if !(← c.control.enabled?) then return { c with active := false }
  else if !wasEnabled then return { c.latch i with active := (← c.control.timing?) = .immediate }
  else return c

/-- The checked form of `disable`. -/
def disable? (c : DmaChannel) : Option DmaChannel :=
  return { c with control := ← c.control.withEnabled? false }

/-- The checked form of `complete`. -/
def complete? (c : DmaChannel) (i : DmaId) (source destination : Word) : Option DmaChannel := do
  let c :=
    { c with
      latched := { c.latched with source := source, destination := destination }
      active := false }
  if (← c.control.repeats?) && (← c.control.timing?) ≠ .immediate then
    let reloads := (← c.control.destinationStep?) = .incrementReload
    return { c with
      latched :=
        { c.latched with
          count := c.blockCount i
          destination := if reloads then c.maskedDestination i else destination } }
  else c.disable?

/-- Whether a channel feeds a FIFO depends on its number and its timing. -/
@[simp] theorem feedsFifo?_eq (c : DmaChannel) (i : DmaId) :
    c.feedsFifo? i = some (c.feedsFifo i) := by
  simp [feedsFifo?, feedsFifo]

/-- A write to the control register compares the enable bit before and after. -/
@[simp] theorem writeControl?_eq (c : DmaChannel) (i : DmaId) (value mask : Half) :
    c.writeControl? i value mask = some (c.writeControl i value mask) := by
  simp only [writeControl?, writeControl, DmaControl.enabled?_eq, DmaControl.timing?_eq,
    Option.bind_eq_bind, Option.bind_some, Option.pure_def, ← apply_ite some]

/-- Switching a channel off clears one bit. -/
@[simp] theorem disable?_eq (c : DmaChannel) : c.disable? = some c.disable := by
  simp [disable?, disable]

/-- The end of a block reads three fields of the control register. -/
@[simp] theorem complete?_eq (c : DmaChannel) (i : DmaId) (source destination : Word) :
    c.complete? i source destination = some (c.complete i source destination) := by
  simp only [complete?, complete, DmaControl.repeats?_eq, DmaControl.timing?_eq,
    DmaControl.destinationStep?_eq, disable?_eq, Option.bind_eq_bind, Option.bind_some,
    Option.pure_def, ← apply_ite some]

end DmaChannel

/-! ### Blocks -/

namespace DmaTransfer

variable {β : Type} [MemoryBus β]

/-- The checked form of `moveHalf`. A multiplication puts the value on both halves of the bus. -/
def moveHalf? (t : DmaTransfer) (bus : β) : Option (DmaTransfer × β) := do
  let (loaded, bus) := MemoryBus.load16 bus (halfAligned t.source)
  let value := loaded.getD (t.openBus.setWidth 16)
  let lines ← product? 32 value.toNat 0x00010001
  let (_, bus) := MemoryBus.store16 bus (halfAligned t.destination) value
  return (t.proceed (BitVec.ofNat 32 lines), bus)

/-- The checked form of `moveUnit`. -/
def moveUnit? (t : DmaTransfer) (bus : β) : Option (DmaTransfer × β) :=
  if t.movesWords then some (t.moveWord bus) else t.moveHalf? bus

/-- The checked form of `moveUnits`. -/
def moveUnits? (t : DmaTransfer) (bus : β) : Nat → Option (DmaTransfer × β)
  | 0 => some (t, bus)
  | count + 1 => do
    let (t, bus) ← t.moveUnit? bus
    moveUnits? t bus count

/-- The checked form of `run`. -/
def run? (t : DmaTransfer) (bus : β) : Option (DmaTransfer × β) := t.moveUnits? bus t.count

/-- The checked form of `cycles`. -/
def cycles? (t : DmaTransfer) : Option Nat := do
  sum? 32 2 (← product? 32 2 t.count)

/-- A halfword fits twice into a word. -/
theorem product?_twice (value : Half) :
    product? 32 value.toNat 0x00010001 = some (value ++ value).toNat := by
  have hlt := value.isLt
  have htwice : (value ++ value).toNat = value.toNat * 0x00010001 := by
    rw [BitVec.toNat_append, ← Nat.shiftLeft_add_eq_or_of_lt hlt, Nat.shiftLeft_eq]
    omega
  rw [htwice]
  exact product?_of_lt (by omega)

/-- Moving a unit does not break. The value of a halfword is put on both halves of the bus by a
multiplication, which fits. -/
theorem moveUnit?_eq (t : DmaTransfer) (bus : β) : t.moveUnit? bus = some (t.moveUnit bus) := by
  unfold moveUnit? moveUnit
  split
  · rfl
  · simp only [moveHalf?, product?_twice, Option.bind_eq_bind, Option.bind_some,
      BitVec.ofNat_toNat, BitVec.setWidth_eq]
    rfl

/-- Moving several units does not break either, by induction on their number. -/
theorem moveUnits?_eq (t : DmaTransfer) (bus : β) (count : Nat) :
    t.moveUnits? bus count = some (t.moveUnits bus count) := by
  induction count generalizing t bus with
  | zero => rfl
  | succ count ih =>
    rw [moveUnits?, moveUnit?_eq]
    exact ih ..

/-- Moving a block breaks nothing but what the bus may break. -/
theorem run?_eq (t : DmaTransfer) (bus : β) : t.run? bus = some (t.run bus) :=
  t.moveUnits?_eq bus t.count

/-- The cycles of a block fit, unless it is far longer than the blocks of a channel. -/
theorem cycles?_of_le {t : DmaTransfer} (h : t.count ≤ 2 ^ 30) : t.cycles? = some t.cycles := by
  have hproduct : 2 * t.count < 2 ^ 32 := by omega
  have hsum : 2 + 2 * t.count < 2 ^ 32 := by omega
  simp only [cycles?, product?_of_lt hproduct, sum?_of_lt hsum, Option.bind_eq_bind,
    Option.bind_some]
  rfl

end DmaTransfer

/-! ### The four channels -/

namespace Dma

/-- The checked form of `transferOf`. -/
def transferOf? (d : Dma) (i : DmaId) : Option DmaTransfer := do
  let c := d.get i
  let fifo ← c.feedsFifo? i
  let movesWords ← c.control.movesWords?
  let destinationStep ← c.control.destinationStep?
  return {
    channel := i
    source := c.latched.source
    destination := c.latched.destination
    count := if fifo then 4 else c.latched.count
    movesWords := fifo || movesWords
    sourceStep := ← c.control.sourceStep?
    destinationStep := if fifo then .fixed else destinationStep
    openBus := d.openBus }

/-- The checked form of `begin?`, which gives nothing if no channel is active. -/
def nextBlock? (d : Dma) : Option (Option DmaTransfer) := do
  match d.owner? with
  | some i => return some (← d.transferOf? i)
  | none => return none

/-- The checked form of `finish`. -/
def finish? (d : Dma) (t : DmaTransfer) (interrupts : InterruptController) :
    Option (Dma × InterruptController) := do
  let c := d.get t.channel
  let next := { d with openBus := t.openBus }.set t.channel
    (← c.complete? t.channel t.source t.destination)
  if ← c.control.interrupts? then return (next, ← interrupts.raise? (.dma t.channel))
  else return (next, interrupts)

/-- The checked form of `mergeHigh`. -/
def mergeHigh? (address : Word) (value mask : Half) : Option Word :=
  return Bits.merge address (← shiftLeft? (value.setWidth 32) 16)
    (← shiftLeft? (mask.setWidth 32) 16)

/-- The checked form of `writeChannel`. -/
def writeChannel? (c : DmaChannel) (i : DmaId) (r : Register) (value mask : Half) :
    Option DmaChannel :=
  match r with
  | .sourceLow => return { c with source := mergeLow c.source value mask }
  | .sourceHigh => return { c with source := ← mergeHigh? c.source value mask }
  | .destinationLow => return { c with destination := mergeLow c.destination value mask }
  | .destinationHigh => return { c with destination := ← mergeHigh? c.destination value mask }
  | .count => return { c with count := Bits.merge c.count value mask }
  | .control => c.writeControl? i value mask

instance : CheckedBlock Dma where
  readRegister? d offset := some (d.register? offset)
  writeRegister? d offset value mask := do
    match registerAt? offset with
    | some (i, r) => return (true, d.set i (← writeChannel? (d.get i) i r value mask))
    | none => return (false, d)

/-- A block begins with what the channel has latched, and a count of four where it feeds a FIFO. -/
@[simp] theorem transferOf?_eq (d : Dma) (i : DmaId) :
    d.transferOf? i = some (d.transferOf i) := by
  simp only [transferOf?, DmaChannel.feedsFifo?_eq, DmaControl.movesWords?_eq,
    DmaControl.destinationStep?_eq, DmaControl.sourceStep?_eq, Option.bind_eq_bind,
    Option.bind_some]
  rfl

/-- The next block is found without breaking, if there is one. -/
theorem nextBlock?_eq (d : Dma) : d.nextBlock? = some d.begin? := by
  unfold nextBlock? begin?
  cases d.owner? <;> simp

/-- Completing a block may raise the interrupt of its channel, which has its bit. -/
theorem finish?_eq (d : Dma) (t : DmaTransfer) (interrupts : InterruptController) :
    d.finish? t interrupts = some (d.finish t interrupts) := by
  simp only [finish?, finish, DmaChannel.complete?_eq, DmaControl.interrupts?_eq,
    InterruptController.raise?_eq, Option.bind_eq_bind, Option.bind_some, Option.pure_def]
  cases (d.get t.channel).control.interrupts <;> rfl

/-- A write to any register of a channel does not break. -/
theorem writeChannel?_eq (c : DmaChannel) (i : DmaId) (r : Register) (value mask : Half) :
    writeChannel? c i r value mask = some (writeChannel c i r value mask) := by
  cases r <;> simp [writeChannel?, writeChannel, mergeHigh?, mergeHigh]

/-- No channel can count as far as a block would have to be long to break the step that moves
it. -/
theorem count_le_of_begin {d : Dma} {t : DmaTransfer} (h : d.Reachable)
    (hbegin : d.begin? = some t) : t.count ≤ 0x10000 := by
  obtain ⟨i, hactive, rfl⟩ := exists_of_begin hbegin
  exact count_transferOf_le (h.sound i) hactive

/-- No access breaks the registers of the channels. -/
theorem unbroken : Unbroken fun _ : Dma => True := by
  refine UnbrokenBlock.unbroken
    ⟨fun _ _ _ => rfl, fun d _ offset value mask => ⟨?_, trivial⟩⟩
  simp only [CheckedBlock.writeRegister?, RegisterBlock.writeRegister, writeRegister]
  cases registerAt? offset with
  | none => rfl
  | some place => simp [writeChannel?_eq]

end Dma

end AdvanceCore
