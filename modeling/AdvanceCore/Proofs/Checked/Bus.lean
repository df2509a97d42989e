import AdvanceCore.Cartridge
import AdvanceCore.InterruptController
import AdvanceCore.Proofs.Checked.Words

/-!
# `AdvanceCore.Proofs.Checked.Bus`: accesses that can break

A bus in checked form answers each of the six accesses with nothing where the machine breaks.
For some parts of the console this depends on their state, so `Unbroken` speaks of a bus in
states that satisfy a predicate, and says that no access leads out of them.

* `CheckedBus`, `Unbroken`: the accesses in checked form, and a bus that they do not break.
* `CheckedMemory`: memories. Every byte that is read or written lies inside of the memory.
* `CheckedBlock`: blocks of registers. Bytes are shifted to their places and back.
* `InterruptController.raise?`: the bit of an interrupt is inside of its register.
-/

set_option autoImplicit false

namespace AdvanceCore

open Bits

/-- Loads and stores that give nothing where the machine breaks. -/
class CheckedBus (β : Type) where
  load8? : β → Word → Option (Option Byte × β)
  load16? : β → Word → Option (Option Half × β)
  load32? : β → Word → Option (Option Word × β)
  store8? : β → Word → Byte → Option (Bool × β)
  store16? : β → Word → Half → Option (Bool × β)
  store32? : β → Word → Word → Option (Bool × β)

/-- The checked form of an access breaks nothing. It gives what the access gives, and the bus
that it leaves is sound. -/
structure Succeeds {α β : Type} (sound : β → Prop) (checked : Option (α × β)) (done : α × β) :
    Prop where
  eq : checked = some done
  sound : sound done.2

/-- In a sound state no access breaks the bus, and a sound state is what it leaves. -/
structure Unbroken {β : Type} [MemoryBus β] [CheckedBus β] (sound : β → Prop) : Prop where
  load8 : ∀ bus, sound bus → ∀ address,
    Succeeds sound (CheckedBus.load8? bus address) (MemoryBus.load8 bus address)
  load16 : ∀ bus, sound bus → ∀ address,
    Succeeds sound (CheckedBus.load16? bus address) (MemoryBus.load16 bus address)
  load32 : ∀ bus, sound bus → ∀ address,
    Succeeds sound (CheckedBus.load32? bus address) (MemoryBus.load32 bus address)
  store8 : ∀ bus, sound bus → ∀ address value,
    Succeeds sound (CheckedBus.store8? bus address value) (MemoryBus.store8 bus address value)
  store16 : ∀ bus, sound bus → ∀ address value,
    Succeeds sound (CheckedBus.store16? bus address value) (MemoryBus.store16 bus address value)
  store32 : ∀ bus, sound bus → ∀ address value,
    Succeeds sound (CheckedBus.store32? bus address value) (MemoryBus.store32 bus address value)

/-! ### Memories -/

/-- The byte at an index of a row, if the row is long enough. -/
def ByteStore.get? {size : Nat} (s : ByteStore size) (i : Nat) : Option Byte :=
  if h : i < size then some (s.get ⟨i, h⟩) else none

/-- Replaces the byte at an index of a row, if the row is long enough. -/
def ByteStore.set? {size : Nat} (s : ByteStore size) (i : Nat) (value : Byte) :
    Option (ByteStore size) :=
  if h : i < size then some (s.set ⟨i, h⟩ value) else none

/-- A position that is in range can be read. -/
theorem ByteStore.get?_val {size : Nat} (s : ByteStore size) (i : Fin size) :
    s.get? i.val = some (s.get i) :=
  dif_pos i.isLt

/-- A position that is in range can be written. -/
theorem ByteStore.set?_val {size : Nat} (s : ByteStore size) (i : Fin size) (value : Byte) :
    s.set? i.val value = some (s.set i value) :=
  dif_pos i.isLt

/-- Bytes at addresses, with nothing where the machine breaks. -/
class CheckedMemory (μ : Type) where
  readByte? : μ → Word → Option (Option Byte)
  writeByte? : μ → Word → Byte → Option μ

namespace CheckedMemory

variable {μ : Type} [CheckedMemory μ]

/-- The checked form of `ByteMemory.readHalf`. -/
def readHalf? (m : μ) (address : Word) : Option (Option Half) := do
  let low ← readByte? m address
  let high ← readByte? m (address + 1)
  return low.bind fun low => high.map fun high => high ++ low

/-- The checked form of `ByteMemory.readWord`. -/
def readWord? (m : μ) (address : Word) : Option (Option Word) := do
  let low ← readHalf? m address
  let high ← readHalf? m (address + 2)
  return low.bind fun low => high.map fun high => high ++ low

/-- The checked form of `ByteMemory.writeHalf`. -/
def writeHalf? (m : μ) (address : Word) (value : Half) : Option μ := do
  let m ← writeByte? m address (← byte? value 0)
  writeByte? m (address + 1) (← byte? value 1)

/-- The checked form of `ByteMemory.writeWord`. -/
def writeWord? (m : μ) (address value : Word) : Option μ := do
  let m ← writeHalf? m address (← slice? value 0 16)
  writeHalf? m (address + 2) (← slice? value 16 16)

end CheckedMemory

instance {μ : Type} [CheckedMemory μ] : CheckedBus μ where
  load8? m address := return (← CheckedMemory.readByte? m address, m)
  load16? m address := return (← CheckedMemory.readHalf? m address, m)
  load32? m address := return (← CheckedMemory.readWord? m address, m)
  store8? m address value := return (true, ← CheckedMemory.writeByte? m address value)
  store16? m address value := return (true, ← CheckedMemory.writeHalf? m address value)
  store32? m address value := return (true, ← CheckedMemory.writeWord? m address value)

/-- A memory whose bytes can be reached without breaking anything. -/
class LawfulMemory (μ : Type) [ByteMemory μ] [CheckedMemory μ] : Prop where
  readByte?_eq : ∀ (m : μ) (address : Word),
    CheckedMemory.readByte? m address = some (ByteMemory.readByte m address)
  writeByte?_eq : ∀ (m : μ) (address : Word) (value : Byte),
    CheckedMemory.writeByte? m address value = some (ByteMemory.writeByte m address value)

namespace LawfulMemory

variable {μ : Type} [ByteMemory μ] [CheckedMemory μ] [LawfulMemory μ]

/-- A half is read from its two bytes, of which either may be missing. -/
theorem readHalf?_eq (m : μ) (address : Word) :
    CheckedMemory.readHalf? m address = some (ByteMemory.readHalf m address) := by
  simp only [CheckedMemory.readHalf?, ByteMemory.readHalf, readByte?_eq]
  cases ByteMemory.readByte m (address + 1) <;> rfl

/-- A word is read from its two halves in the same way. -/
theorem readWord?_eq (m : μ) (address : Word) :
    CheckedMemory.readWord? m address = some (ByteMemory.readWord m address) := by
  simp only [CheckedMemory.readWord?, ByteMemory.readWord, readHalf?_eq]
  cases ByteMemory.readHalf m (address + 2) <;> rfl

/-- A half is written as its two bytes. -/
theorem writeHalf?_eq (m : μ) (address : Word) (value : Half) :
    CheckedMemory.writeHalf? m address value = some (ByteMemory.writeHalf m address value) := by
  simp [CheckedMemory.writeHalf?, ByteMemory.writeHalf, writeByte?_eq]

/-- A word is written as its two halves. -/
theorem writeWord?_eq (m : μ) (address value : Word) :
    CheckedMemory.writeWord? m address value = some (ByteMemory.writeWord m address value) := by
  simp [CheckedMemory.writeWord?, ByteMemory.writeWord, writeHalf?_eq]

/-- A memory does not break on the bus, whatever it holds. -/
theorem unbroken : Unbroken fun _ : μ => True where
  load8 m _ address := ⟨by simp [CheckedBus.load8?, MemoryBus.load8, readByte?_eq], trivial⟩
  load16 m _ address := ⟨by simp [CheckedBus.load16?, MemoryBus.load16, readHalf?_eq], trivial⟩
  load32 m _ address := ⟨by simp [CheckedBus.load32?, MemoryBus.load32, readWord?_eq], trivial⟩
  store8 m _ address value :=
    ⟨by simp [CheckedBus.store8?, MemoryBus.store8, writeByte?_eq], trivial⟩
  store16 m _ address value :=
    ⟨by simp [CheckedBus.store16?, MemoryBus.store16, writeHalf?_eq], trivial⟩
  store32 m _ address value :=
    ⟨by simp [CheckedBus.store32?, MemoryBus.store32, writeWord?_eq], trivial⟩

end LawfulMemory

/-- The boot ROM compares an address with its length, which is that of its bytes. -/
instance : CheckedMemory BootRom where
  readByte? rom address := do
    if address.toNat < bootRomSize then return some (← rom.store.get? address.toNat)
    else return none
  writeByte? rom _ _ := some rom

instance : LawfulMemory BootRom where
  readByte?_eq rom address := by
    simp only [CheckedMemory.readByte?, ByteMemory.readByte]
    split
    · next h => simp [rom.store.get?_val ⟨address.toNat, h⟩]
    · rfl
  writeByte?_eq _ _ _ := rfl

/-- The place of an address in a RAM, which is masked with the last place. -/
def WorkRam.place? (size : Nat) (address : Word) : Option Nat :=
  return address.toNat &&& (← difference? size 1)

instance {size : Nat} : CheckedMemory (WorkRam size) where
  readByte? ram address := return some (← ram.store.get? (← WorkRam.place? size address))
  writeByte? ram address value :=
    return { ram with store := ← ram.store.set? (← WorkRam.place? size address) value }

/-- In a RAM whose size is a power of two the mask leaves the place of the address. -/
theorem WorkRam.place?_eq {k : Nat} (ram : WorkRam (2 ^ k)) (address : Word) :
    place? (2 ^ k) address = some (ram.index address).val := by
  rw [place?, difference?_of_le (Nat.two_pow_pos k)]
  exact congrArg some (Nat.and_two_pow_sub_one_eq_mod ..)

/-- The place in a mirrored RAM is found by a mask. That it is in range is what asks for a size that
is a power of two. -/
theorem WorkRam.lawful (k : Nat) : LawfulMemory (WorkRam (2 ^ k)) where
  readByte?_eq ram address := by
    simp [CheckedMemory.readByte?, ByteMemory.readByte, ram.place?_eq, ram.store.get?_val]
  writeByte?_eq ram address value := by
    simp [CheckedMemory.writeByte?, ByteMemory.writeByte, ram.place?_eq, ram.store.set?_val]

instance : LawfulMemory (WorkRam externalRamSize) := WorkRam.lawful 18

instance : LawfulMemory (WorkRam internalRamSize) := WorkRam.lawful 15

/-- The cartridge answers for every address. Past the end of its ROM it picks a byte of a
halfword. -/
instance : CheckedMemory Cartridge where
  readByte? c address := do
    if h : address.toNat < c.rom.size then return some (c.rom.get address.toNat h).toBitVec
    else
      let lines := (← shiftRight? address 1).setWidth 16
      return some (← byte? lines (address &&& 1).toNat)
  writeByte? c _ _ := some c

instance : LawfulMemory Cartridge where
  readByte?_eq c address := by
    have hodd : (address &&& 1).toNat ≤ 1 := toNat_and_le address 1
    have hbyte : 8 * (address &&& 1).toNat < 16 := by omega
    have hlines : byte? ((address >>> 1).setWidth 16) (address &&& 1).toNat =
        some (byte (Cartridge.addressLines address) (address &&& 1).toNat) := byte?_of_lt _ hbyte
    change _ = some (some (c.byteAt address))
    by_cases h : address.toNat < c.rom.size
    · rw [Cartridge.byteAt, dif_pos h]
      exact dif_pos h
    · rw [Cartridge.byteAt, dif_neg h]
      refine (dif_neg h).trans ?_
      simp only [shiftRight?_of_lt, Nat.reduceLT, hlines, Option.bind_eq_bind, Option.bind_some]
      rfl
  writeByte?_eq _ _ _ := rfl

/-! ### Blocks of registers -/

/-- A block of registers, with nothing where the machine breaks. -/
class CheckedBlock (ρ : Type) where
  readRegister? : ρ → Nat → Option (Option Half)
  writeRegister? : ρ → (offset : Nat) → (value mask : Half) → Option (Bool × ρ)

namespace CheckedBlock

variable {ρ : Type} [CheckedBlock ρ]

/-- The checked form of `RegisterBlock.loadHalf`. -/
def loadHalf? (block : ρ) (address : Word) : Option (Option Half) :=
  readRegister? block (halfAligned address).toNat

/-- The place of a byte in its register. -/
def place? (address : Word) : Option Nat := product? 32 (address &&& 1).toNat 8

/-- The checked form of `RegisterBlock.loadByte`. -/
def loadByte? (block : ρ) (address : Word) : Option (Option Byte) := do
  match ← loadHalf? block address with
  | some half => return some ((← shiftRight? half (← place? address)).setWidth 8)
  | none => return none

/-- The checked form of `RegisterBlock.loadWord`. -/
def loadWord? (block : ρ) (address : Word) : Option (Option Word) := do
  match ← loadHalf? block address, ← loadHalf? block (address + 2) with
  | some low, some high =>
    return some ((← shiftLeft? (high.setWidth 32) 16) ||| low.setWidth 32)
  | _, _ => return none

/-- The checked form of `RegisterBlock.storeHalf`. -/
def storeHalf? (block : ρ) (address : Word) (value : Half) : Option (Bool × ρ) :=
  writeRegister? block (halfAligned address).toNat value (BitVec.allOnes 16)

/-- The checked form of `RegisterBlock.storeByte`. -/
def storeByte? (block : ρ) (address : Word) (value : Byte) : Option (Bool × ρ) := do
  let shift ← place? address
  writeRegister? block (halfAligned address).toNat (← shiftLeft? (value.setWidth 16) shift)
    (← shiftLeft? 0x00FF shift)

/-- The checked form of `RegisterBlock.storeWord`. -/
def storeWord? (block : ρ) (address value : Word) : Option (Bool × ρ) := do
  let (low, block) ← storeHalf? block address (← slice? value 0 16)
  let (high, block) ← storeHalf? block (address + 2) ((← shiftRight? value 16).setWidth 16)
  return (low && high, block)

end CheckedBlock

instance {ρ : Type} [CheckedBlock ρ] : CheckedBus ρ where
  load8? block address := return (← CheckedBlock.loadByte? block address, block)
  load16? block address := return (← CheckedBlock.loadHalf? block address, block)
  load32? block address := return (← CheckedBlock.loadWord? block address, block)
  store8? := CheckedBlock.storeByte?
  store16? := CheckedBlock.storeHalf?
  store32? := CheckedBlock.storeWord?

/-- In a sound state no register breaks the block, and a sound state is what a write leaves. -/
structure UnbrokenBlock {ρ : Type} [RegisterBlock ρ] [CheckedBlock ρ] (sound : ρ → Prop) :
    Prop where
  read : ∀ block, sound block → ∀ offset,
    CheckedBlock.readRegister? block offset = some (RegisterBlock.readRegister block offset)
  write : ∀ block, sound block → ∀ offset value mask,
    Succeeds sound (CheckedBlock.writeRegister? block offset value mask)
      (RegisterBlock.writeRegister block offset value mask)

/-- A byte of a register is moved by eight bits at most. -/
theorem CheckedBlock.place?_eq (address : Word) :
    place? address = some (8 * (address &&& 1).toNat) ∧ 8 * (address &&& 1).toNat < 16 := by
  have hodd : (address &&& 1).toNat ≤ 1 := toNat_and_le address 1
  have hplace : (address &&& 1).toNat * 8 < 2 ^ 32 := by omega
  rw [place?, product?_of_lt hplace, Nat.mul_comm]
  exact ⟨rfl, by omega⟩

namespace UnbrokenBlock

open CheckedBlock

variable {ρ : Type} [RegisterBlock ρ] [CheckedBlock ρ] {sound : ρ → Prop}
  (h : UnbrokenBlock sound) {block : ρ} (hsound : sound block)
include h hsound

/-- A halfword of a block is one of its registers. -/
theorem loadHalf?_eq (address : Word) :
    loadHalf? block address = some (RegisterBlock.loadHalf block address) :=
  h.read block hsound _

/-- A byte is one half of a register. -/
theorem loadByte?_eq (address : Word) :
    loadByte? block address = some (RegisterBlock.loadByte block address) := by
  obtain ⟨hplace, hlt⟩ := place?_eq address
  rw [loadByte?, h.loadHalf?_eq hsound, RegisterBlock.loadByte]
  cases RegisterBlock.loadHalf block address with
  | none => rfl
  | some half =>
    simp only [hplace, shiftRight?_of_lt half hlt, Option.bind_eq_bind, Option.bind_some,
      BitVec.setWidth_ushiftRight_eq_extractLsb]
    rfl

/-- A word is two registers. -/
theorem loadWord?_eq (address : Word) :
    loadWord? block address = some (RegisterBlock.loadWord block address) := by
  rw [loadWord?, h.loadHalf?_eq hsound, h.loadHalf?_eq hsound, RegisterBlock.loadWord]
  cases RegisterBlock.loadHalf block address with
  | none => rfl
  | some low =>
    cases RegisterBlock.loadHalf block (address + 2) with
    | none => rfl
    | some high =>
      simp only [shiftLeft?_of_lt, Nat.reduceLT, Option.bind_eq_bind, Option.bind_some]
      exact congrArg (some ∘ some) (shiftLeft_or_setWidth high low)

/-- A stored halfword goes to one register. -/
theorem storeHalf?_eq (address : Word) (value : Half) :
    Succeeds sound (storeHalf? block address value)
      (RegisterBlock.storeHalf block address value) :=
  h.write block hsound _ _ _

/-- A stored byte goes to one register, with a mask that covers its half. -/
theorem storeByte?_eq (address : Word) (value : Byte) :
    Succeeds sound (storeByte? block address value)
      (RegisterBlock.storeByte block address value) := by
  obtain ⟨hplace, hlt⟩ := place?_eq address
  simp only [storeByte?, hplace, shiftLeft?_of_lt _ hlt, Option.bind_eq_bind, Option.bind_some]
  exact h.write block hsound _ _ _

/-- A stored word goes to two registers, and the second one finds the block as the first one has
left it. -/
theorem storeWord?_eq (address value : Word) :
    Succeeds sound (storeWord? block address value)
      (RegisterBlock.storeWord block address value) := by
  have hlow := h.storeHalf?_eq hsound address (value.extractLsb' 0 16)
  have hhigh := h.storeHalf?_eq hlow.sound (address + 2) (value.extractLsb' 16 16)
  refine ⟨?_, hhigh.sound⟩
  simp only [storeWord?, slice?_of_le, shiftRight?_of_lt, Nat.reduceLT, Nat.reduceLeDiff,
    Nat.reduceAdd, BitVec.setWidth_ushiftRight_eq_extractLsb, hlow.eq, hhigh.eq,
    Option.bind_eq_bind, Option.bind_some]
  rfl

omit hsound in
/-- Nor does it break on the bus. -/
theorem unbroken : Unbroken sound where
  load8 block hsound address :=
    ⟨by simp [CheckedBus.load8?, MemoryBus.load8, h.loadByte?_eq hsound], hsound⟩
  load16 block hsound address :=
    ⟨by simp [CheckedBus.load16?, MemoryBus.load16, h.loadHalf?_eq hsound], hsound⟩
  load32 block hsound address :=
    ⟨by simp [CheckedBus.load32?, MemoryBus.load32, h.loadWord?_eq hsound], hsound⟩
  store8 block hsound := h.storeByte?_eq hsound
  store16 block hsound := h.storeHalf?_eq hsound
  store32 block hsound := h.storeWord?_eq hsound

end UnbrokenBlock

/-! ### Interrupts -/

/-- The checked form of `Interrupt.mask`. -/
def Interrupt.mask? (i : Interrupt) : Option Half := shiftLeft? 1 i.bit

/-- There are fourteen interrupts, so each has its bit in a halfword. -/
@[simp] theorem Interrupt.mask?_eq (i : Interrupt) : i.mask? = some i.mask :=
  shiftLeft?_of_lt 1 (Nat.lt_trans i.bit_lt (by decide))

namespace InterruptController

/-- The checked form of `raise`. -/
def raise? (c : InterruptController) (i : Interrupt) : Option InterruptController :=
  return { c with requested := c.requested ||| (← i.mask?) }.checkWake

/-- An interrupt can always be raised. -/
@[simp] theorem raise?_eq (c : InterruptController) (i : Interrupt) :
    c.raise? i = some (c.raise i) := by
  simp [raise?, raise]

/-- The registers of interrupts and power are read and written under masks only. -/
instance : CheckedBlock InterruptController where
  readRegister? c offset := some (c.register? offset)
  writeRegister? c offset value mask := some (c.writeRegister offset value mask)

/-- No access breaks the registers of the interrupts, whatever they hold. -/
theorem unbroken : Unbroken fun _ : InterruptController => True :=
  UnbrokenBlock.unbroken ⟨fun _ _ _ => rfl, fun _ _ _ _ _ => ⟨rfl, trivial⟩⟩

end InterruptController

end AdvanceCore
