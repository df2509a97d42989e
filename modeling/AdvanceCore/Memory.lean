import AdvanceCore.Bus

/-!
# `AdvanceCore.Memory`: the memories of the console

A memory answers for single bytes and accepts every store. Halfwords and words are
the bytes at consecutive addresses, the lowest first.

* `ByteStore`: a fixed number of bytes.
* `ByteMemory`: bytes at addresses, and the bus that follows from them.
* `BootRom`: read-only, nothing behind its end.
* `WorkRam`: repeats over the whole of its bank.
-/

set_option autoImplicit false

namespace AdvanceCore

/-! ### Bytes in a row -/

/-- Setting a byte keeps the size. -/
private theorem size_setByte (bytes : ByteArray) (i : Nat) (value : UInt8)
    (h : i < bytes.size) : (bytes.set i value h).size = bytes.size := by
  cases bytes
  exact Array.size_set ..

/-- A row of `size` bytes. -/
structure ByteStore (size : Nat) where
  bytes : ByteArray
  size_bytes : bytes.size = size

namespace ByteStore

variable {size : Nat}

/-- A row of zeros. -/
def zero (size : Nat) : ByteStore size :=
  ⟨⟨Array.replicate size 0⟩, by simp [ByteArray.size]⟩

/-- An image filled up with zeros. -/
def ofImage (image : ByteArray) (h : image.size ≤ size) : ByteStore size :=
  ⟨image ++ (zero (size - image.size)).bytes, by
    rw [ByteArray.size_append, size_bytes]
    omega⟩

/-- The byte at an index. -/
def get (s : ByteStore size) (i : Fin size) : Byte :=
  have h : i.val < s.bytes.size := by rw [s.size_bytes]; exact i.isLt
  s.bytes[i.val].toBitVec

/-- Replaces the byte at an index. -/
def set (s : ByteStore size) (i : Fin size) (value : Byte) : ByteStore size :=
  ⟨s.bytes.set i (UInt8.ofBitVec value) (by rw [s.size_bytes]; exact i.isLt),
    (size_setByte ..).trans s.size_bytes⟩

/-- A byte that is set is read back, and the others are kept. -/
@[simp] theorem get_set (s : ByteStore size) (i j : Fin size) (value : Byte) :
    (s.set i value).get j = if i = j then value else s.get j := by
  simp only [get, set, ByteArray.getElem_eq_getElem_data, ByteArray.set, Array.getElem_set,
    Fin.ext_iff]
  split <;> rfl

end ByteStore

/-! ### Memories on the bus -/

/-- Bytes at addresses. A byte that cannot be written is kept without complaint. -/
class ByteMemory (μ : Type) where
  readByte : μ → Word → Option Byte
  writeByte : μ → Word → Byte → μ

namespace ByteMemory

variable {μ : Type} [ByteMemory μ]

/-- The two bytes from an address on. -/
def readHalf (m : μ) (address : Word) : Option Half := do
  let low ← readByte m address
  let high ← readByte m (address + 1)
  return high ++ low

/-- The four bytes from an address on. -/
def readWord (m : μ) (address : Word) : Option Word := do
  let low ← readHalf m address
  let high ← readHalf m (address + 2)
  return high ++ low

/-- Writes two bytes from an address on. -/
def writeHalf (m : μ) (address : Word) (value : Half) : μ :=
  writeByte (writeByte m address (Bits.byte value 0)) (address + 1) (Bits.byte value 1)

/-- Writes four bytes from an address on. -/
def writeWord (m : μ) (address value : Word) : μ :=
  writeHalf (writeHalf m address (value.extractLsb' 0 16)) (address + 2)
    (value.extractLsb' 16 16)

end ByteMemory

/-- A memory on the bus. -/
instance {μ : Type} [ByteMemory μ] : MemoryBus μ where
  load8 m address := (ByteMemory.readByte m address, m)
  load16 m address := (ByteMemory.readHalf m address, m)
  load32 m address := (ByteMemory.readWord m address, m)
  store8 m address value := (true, ByteMemory.writeByte m address value)
  store16 m address value := (true, ByteMemory.writeHalf m address value)
  store32 m address value := (true, ByteMemory.writeWord m address value)

/-! ### The memories -/

/-- The bytes of the boot ROM. -/
abbrev bootRomSize : Nat := 0x4000

/-- The bytes of the external work RAM. -/
abbrev externalRamSize : Nat := 0x40000

/-- The external work RAM is not empty. -/
theorem externalRamSize_pos : 0 < externalRamSize := by decide

/-- The bytes of the internal work RAM. -/
abbrev internalRamSize : Nat := 0x8000

/-- The internal work RAM is not empty. -/
theorem internalRamSize_pos : 0 < internalRamSize := by decide

/-- The program the processor starts in, at address zero. -/
structure BootRom where
  store : ByteStore bootRomSize

instance : ByteMemory BootRom where
  readByte rom address :=
    if h : address.toNat < bootRomSize then some (rom.store.get ⟨address.toNat, h⟩) else none
  writeByte rom _ _ := rom

/-- A RAM that repeats over its bank. -/
structure WorkRam (size : Nat) where
  store : ByteStore size
  size_pos : 0 < size

namespace WorkRam

variable {size : Nat}

/-- A RAM of zeros. -/
def zero (size : Nat) (h : 0 < size) : WorkRam size := ⟨.zero size, h⟩

/-- The place of an address in the RAM. -/
def index (ram : WorkRam size) (address : Word) : Fin size :=
  ⟨address.toNat % size, Nat.mod_lt _ ram.size_pos⟩

instance : ByteMemory (WorkRam size) where
  readByte ram address := some (ram.store.get (ram.index address))
  writeByte ram address value := { ram with store := ram.store.set (ram.index address) value }

end WorkRam

end AdvanceCore
